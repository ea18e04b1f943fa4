/-
Polling for detections: one task for each stream that is polled. A task
asks at once, and then again one interval after each answer. An answer
that takes longer than the request timeout is a failure.

A task that is stopped takes no further step. Should it have been in the
middle of one, its outcome arrives late: the feed has gone on to another
session by then and refuses it. A task that cannot work out its next interval
crashes before its feed hears of the failure. Nobody takes it off: the stream
is as if it were not polled, and may be enabled anew.
-/
import VideoWall.ByName
import VideoWall.Polling.Backoff
import VideoWall.Polling.Feed

namespace VideoWall.Polling

open Recorder

/-- Where a task waits: to run for the first time, for an answer to the
request it made at `since`, or for its next request. -/
inductive Point where
  | fresh
  | asking (since : Nat)
  | waiting (due : Nat)
  | over
  | crashed
  deriving DecidableEq, Repr, Inhabited

/-- A task, in the session of the feed that it was started in. -/
structure Task where
  session : Nat
  backoff : Backoff
  point : Point := .fresh
  deriving DecidableEq, Repr, Inhabited

/-- What a task waits for. -/
inductive Signal where
  | begins
  | answered (outcome : Except String (List Detection))
  | timedOut
  | intervalOver

namespace Task

/-- What is said of a request without an answer. -/
def timeoutMessage (cfg : Settings) : String :=
  "detection request timed out after " ++ toString cfg.requestTimeout ++ " ms"

/-- Whether a task has neither ended nor crashed. -/
def isRunning (t : Task) : Bool := t.point ≠ .over && t.point ≠ .crashed

/-- Hands an outcome to the feed. A task whose session is over ends. -/
def deliver (cfg : Settings) (now : Nat) (outcome : Except String (List Detection)) (t : Task)
    (f : Feed) : Task × Feed :=
  match t.backoff.after? cfg outcome with
  | none => ({ t with point := .crashed }, f)
  | some backoff =>
      match f.apply t.session outcome backoff.errors with
      | (f, true) => ({ t with backoff, point := .waiting (now + backoff.interval) }, f)
      | (f, false) => ({ t with backoff, point := .over }, f)

/-- The step of a task on a signal, if it waits for that signal. -/
def step? (cfg : Settings) (now : Nat) (signal : Signal) (t : Task) (f : Feed) :
    Option (Task × Feed) :=
  match t.point, signal with
  | .fresh, .begins => some ({ t with point := .asking now }, f)
  | .asking _, .answered outcome => some (t.deliver cfg now outcome f)
  | .asking since, .timedOut =>
      if since + cfg.requestTimeout ≤ now then
        some (t.deliver cfg now (.error (timeoutMessage cfg)) f)
      else none
  | .waiting due, .intervalOver =>
      if due ≤ now then some ({ t with point := .asking now }, f) else none
  | _, _ => none

end Task

/-- All tasks and feeds, by the name of their stream. `stopped` are the
tasks that might still bring an outcome. -/
structure Poller where
  settings : Settings := {}
  tasks : ByName Task := {}
  feeds : ByName Feed := {}
  stopped : List (String × Task) := []
  deriving Inhabited

namespace Poller

/-- The feed of a stream, an empty one before it is first used. -/
def feed (p : Poller) (name : String) : Feed := (p.feeds.get? name).getD {}

/-- Whether a task runs for a stream. -/
def isEnabled (p : Poller) (name : String) : Bool := (p.tasks.get? name).any Task.isRunning

/-- Whether one name comes before another in the order of their bytes,
which is the order of their characters. -/
def namesInOrder (a b : String) : Bool := a ≤ b

/-- The streams that are polled, in the order of their names. -/
def enabledStreams (p : Poller) : List String := p.tasks.names.mergeSort namesInOrder

/-- Starts polling a stream that is not polled. -/
def enable (p : Poller) (name : String) : Poller :=
  if p.isEnabled name then p
  else
    let feed := (p.feed name).begin
    { p with
      feeds := p.feeds.set name feed
      tasks := p.tasks.set name ⟨feed.session, .fresh p.settings, .fresh⟩ }

/-- Stops polling a stream and clears its feed. -/
def disable (p : Poller) (name : String) : Poller :=
  { p with
    tasks := p.tasks.erase name
    stopped := p.stopped ++ ((p.tasks.get? name).map fun t => (name, t)).toList
    feeds := p.feeds.modify name Feed.finish }

/-- Stops all polling. -/
def disableAll (p : Poller) : Poller := p.tasks.names.foldl disable p

/-- Gives a signal to the task of a stream. -/
def step? (now : Nat) (name : String) (signal : Signal) (p : Poller) : Option Poller := do
  let t ← p.tasks.get? name
  let (t, f) ← t.step? p.settings now signal (p.feed name)
  pure { p with tasks := p.tasks.set name t, feeds := p.feeds.set name f }

/-- The outcome of a stopped task arrives late. They may come in any
order. -/
def arriveLate? (now : Nat) (i : Nat) (outcome : Except String (List Detection)) (p : Poller) :
    Option Poller :=
  match p.stopped[i]? with
  | none => none
  | some (name, t) =>
      let (_, f) := t.deliver p.settings now outcome (p.feed name)
      some { p with stopped := p.stopped.eraseIdx i, feeds := p.feeds.modify name fun _ => f }

end Poller

end VideoWall.Polling
