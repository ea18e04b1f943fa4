/-
A recorder that answers from a script. Every request line has a list of
replies; each request takes the next one, and the last one is repeated.
Without a script nobody can be reached.
-/
import VideoWall.Recorder.Dialogue
import VideoWall.ByName

namespace VideoWall.Rehearsal

open Recorder

/-- What is answered: after a delay in milliseconds a status and a body,
or nothing but a broken connection. -/
structure ScriptedReply where
  status : Nat := 200
  body : List UInt8 := []
  delay : Nat := 0
  dropped : Bool := false
  deriving Inhabited

/-- The digits of a stamp in milliseconds. -/
def stampLength : Nat := 13

/-- A text in which every stamp of a manifest address is covered up, so
that addresses of different times are alike. -/
def coverStamps : List Char → List Char
  | [] => []
  | '_' :: 't' :: '=' :: rest =>
      let digits := rest.takeWhile Char.isDigit
      if digits.length = stampLength then
        "_t=<millis>".toList ++ coverStamps (rest.dropWhile Char.isDigit)
      else '_' :: 't' :: '=' :: coverStamps rest
  | c :: rest => c :: coverStamps rest
termination_by s => s.length
decreasing_by
  · have := (List.dropWhile_suffix Char.isDigit (l := rest)).length_le
    simp only [List.length_cons]
    omega
  all_goals simp only [List.length_cons]; omega

/-- The server: whether it is there, its script, and what it has been
asked, newest first. -/
structure Server where
  reachable : Bool := true
  routes : ByName (List ScriptedReply) := ⟨[]⟩
  asked : List Request := []

namespace Server

/-- The line of a request, the same at all times. -/
def lineOf (r : Request) : String := String.ofList (coverStamps r.line.toList)

/-- The reply at a place of a list whose last item is repeated. -/
def replyAt (replies : List ScriptedReply) (n : Nat) : ScriptedReply :=
  match replies[n]? with
  | some r => r
  | none => replies.getLast?.getD { status := 404 }

/-- Whether an answer of a status has a body. -/
def hasBody (status : Nat) : Bool := status != 204 && status != 304

/-- Answers a request and remembers it. -/
def answer (s : Server) (r : Request) : Answer × Server :=
  if !s.reachable then (.disrupted .unreachable, s)
  else
    let before := (s.asked.filter fun q => lineOf q == lineOf r).length
    let reply := replyAt ((s.routes.get? (lineOf r)).getD []) before
    let answer :=
      if r.timeout ≤ reply.delay then .late
      else if reply.dropped then .disrupted .dropped
      else .reply reply.status (if hasBody reply.status then reply.body else [])
    (answer, { s with asked := r :: s.asked })

/-- Holds a dialogue. -/
def converse {α : Type} (s : Server) (d : Dialogue α) : α × Server := d.run answer s

end Server

end VideoWall.Rehearsal
