/-
Histories of a registry: everything that can happen to it, in any order,
and what holds after all of it.

# What can happen

Whoever owns the registry attaches, replaces and tears down sessions and
passes on the user's wishes. In between the sessions act by themselves:
they take signals, at any time and with whatever the outside answers;
engines and their decoders write to elements; and sessions that were torn
down are woken one day, in any order. An engine and its decoder write for
epochs that the engine was attached for, and may do so ever after, which
is why a history keeps the calls that were made.

An event that cannot happen (a signal that nobody waits for, a write of
an engine that was never attached) leaves everything as it is, so every
list of events is a history.

# What holds

`History.Sound`: the registry is sound, and every epoch that an engine
was attached for is known to its element. Every event keeps that
(`Sound.after`), so it holds after every history (`sound_run`).
-/
import VideoWall.Proofs.Player.Operations

namespace VideoWall.Player

open Media

-- =============================================================== events

/-- What happens by itself. -/
inductive Activity where
  | signal (name : String) (supply : Supply) (now : Nat) (signal : Signal)
  | write (name : String) (engine : EngineId) (epoch : Nat) (w : Element.Write)
  | wake (supply : Supply) (now : Nat) (i : Nat) (signal : Signal)

/-- What can happen to a registry. -/
inductive Event where
  | attach (name : String)
  | replace (name : String)
  | teardown (name : String)
  | teardownAll
  | requestPlay (name : String)
  | activity (a : Activity)

/-- Whether an event may start a session for a stream. -/
def Event.starts (name : String) : Event → Bool
  | .attach n | .replace n | .requestPlay n => n == name
  | _ => false

/-- Whether an event takes the session of a stream off. -/
def Event.closes (name : String) : Event → Bool
  | .teardown n => n == name
  | .teardownAll => true
  | _ => false

/-- A registry, and the calls that its sessions have made, each with the
name of its stream. -/
structure History where
  players : Registry
  calls : List (String × Call) := []

namespace History

variable {h : History} {name : String}

/-- Before anything has happened. -/
def opened (settings : Settings) (supported : Bool) : History := ⟨{ settings, supported }, []⟩

/-- Whether an engine was attached to the element of a stream for an
epoch. -/
def wasAttached (h : History) (name : String) (engine : EngineId) (epoch : Nat) : Bool :=
  h.calls.any fun
    | (n, .attach g k _) => n == name && g == engine && k == epoch
    | _ => false

/-- An activity. -/
def act (h : History) : Activity → History
  | .signal name supply now signal =>
      match h.players.step? supply now name signal with
      | some (players, calls) => ⟨players, h.calls ++ calls.map fun call => (name, call)⟩
      | none => h
  | .write name engine epoch w =>
      if h.wasAttached name engine epoch then { h with players := h.players.write name epoch w }
      else h
  | .wake supply now i signal =>
      match h.players.wake? supply now i signal with
      | some (players, calls) => ⟨players, h.calls ++ calls⟩
      | none => h

/-- The shapes of activities. -/
inductive Acts (h : History) : Activity → History → Prop where
  | nothing (a : Activity) : Acts h a h
  | steps {name : String} {supply : Supply} {now : Nat} {signal : Signal} {players : Registry}
      {calls : List Call}
      (hstep : h.players.step? supply now name signal = some (players, calls)) :
      Acts h (.signal name supply now signal)
        ⟨players, h.calls ++ calls.map fun call => (name, call)⟩
  | writes {name : String} {engine : EngineId} {epoch : Nat} (w : Element.Write)
      (hattached : h.wasAttached name engine epoch = true) :
      Acts h (.write name engine epoch w) { h with players := h.players.write name epoch w }
  | wakes (supply : Supply) (now i : Nat) (signal : Signal) (stream : String) (x : Session) :
      Acts h (.wake supply now i signal)
        ⟨{ h.players with departing := h.players.departing.eraseIdx i },
          h.calls ++ (x.engine.toList.map Call.dispose).map fun call => (stream, call)⟩

/-- Every activity has one of the shapes: a session on its way out that is
woken only disposes the engine in its hand. -/
theorem acts (h : History) (a : Activity) : h.Acts a (h.act a) := by
  cases a with
  | signal name supply now signal =>
      unfold act
      dsimp only
      cases hstep : h.players.step? supply now name signal with
      | none => exact .nothing _
      | some result => exact .steps hstep
  | write name engine epoch w =>
      unfold act
      dsimp only
      split
      case isTrue hattached => exact .writes w hattached
      case isFalse => exact .nothing _
  | wake supply now i signal =>
      unfold act
      dsimp only
      cases hwake : h.players.wake? supply now i signal with
      | none => exact .nothing _
      | some result =>
          obtain ⟨players, calls⟩ := result
          obtain ⟨stream, x, -, rfl, rfl⟩ := Registry.wake?_inv hwake
          exact .wakes supply now i signal stream x

/-- An event. -/
def after (h : History) : Event → History
  | .attach name => { h with players := h.players.attach name }
  | .replace name => { h with players := h.players.replace name }
  | .teardown name => { h with players := h.players.teardown name }
  | .teardownAll => { h with players := h.players.teardownAll }
  | .requestPlay name => { h with players := h.players.requestPlay name }
  | .activity a => h.act a

/-- Events, one after the other. -/
def run (h : History) (events : List Event) : History := events.foldl after h

@[simp]
theorem run_append (h : History) (before later : List Event) :
    h.run (before ++ later) = (h.run before).run later :=
  List.foldl_append ..

@[simp]
theorem run_cons (h : History) (event : Event) (later : List Event) :
    h.run (event :: later) = (h.after event).run later := rfl

-- ============================================================ soundness

/-- The registry is sound, and elements know the epochs that engines were
attached for. -/
structure Sound (h : History) : Prop where
  players : h.players.Sound
  attached : ∀ name engine k url, (name, Call.attach engine k url) ∈ h.calls →
    (h.players.element name).Knows k

/-- A history that has just been opened is sound. -/
theorem sound_opened (settings : Settings) (supported : Bool) :
    (opened settings supported).Sound := by
  refine ⟨fun name => ⟨?_, fun _ => rfl, ?_, ?_, Element.clean_idle⟩, ?_⟩
  · rintro (hs | hs)
    · cases hs
    · cases hs
  · intro x hx
    cases hx
  · intro x hx
    cases hx
  · intro name engine k url hmem
    cases hmem

/-- An engine knows its element by the epoch that it was attached with. -/
theorem Sound.knows (hs : h.Sound) {engine : EngineId} {k : Nat}
    (hw : h.wasAttached name engine k = true) : (h.players.element name).Knows k := by
  unfold wasAttached at hw
  rw [List.any_eq_true] at hw
  obtain ⟨⟨n, c⟩, hmem, hc⟩ := hw
  cases c with
  | attach g j url =>
      simp only [Bool.and_eq_true, beq_iff_eq] at hc
      obtain ⟨⟨rfl, rfl⟩, rfl⟩ := hc
      exact hs.attached n g j url hmem
  | _ => cases hc

/-- What follows a sound registry, with calls that attach for known epochs
at most, is a sound history. -/
private theorem Sound.of_follows (hs : h.Sound) {players : Registry} {calls : List (String × Call)}
    (hf : Registry.Follows h.players players)
    (hcalls : ∀ name engine k url, (name, Call.attach engine k url) ∈ calls →
      (players.element name).Knows k) : Sound ⟨players, h.calls ++ calls⟩ := by
  refine ⟨hf.sound hs.players, ?_⟩
  intro name engine k url hmem
  rcases List.mem_append.1 hmem with hold | hnew
  · exact hf.keeps hs.players name k (hs.attached name engine k url hold)
  · exact hcalls name engine k url hnew

/-- What follows from a sound history is sound. -/
theorem Sound.of_operation (hs : h.Sound) {players : Registry}
    (hf : Registry.Follows h.players players) : Sound { h with players } := by
  refine ⟨hf.sound hs.players, ?_⟩
  intro name engine k url hmem
  exact hf.keeps hs.players name k (hs.attached name engine k url hmem)

/-- Every activity keeps a history sound. -/
theorem Sound.act (hs : h.Sound) (a : Activity) : (h.act a).Sound := by
  have hshape := h.acts a
  generalize h.act a = h' at hshape
  cases hshape with
  | nothing => exact hs
  | @steps name supply now signal players calls hstep =>
      obtain ⟨hf, hknown⟩ := Registry.follows_step hstep
      refine hs.of_follows hf ?_
      intro n engine k url hmem
      obtain ⟨c, hc, heq⟩ := List.mem_map.1 hmem
      cases heq
      exact hknown hs.players engine k url hc
  | writes w hattached => exact hs.of_operation (Registry.follows_write (hs.knows hattached) w)
  | wakes supply now i signal stream x =>
      refine hs.of_follows
        ⟨rfl, fun hp name => (hp name).congr ⟨rfl, rfl, rfl⟩, fun _ _ _ hk => hk⟩ ?_
      intro n engine k url hmem
      obtain ⟨c, hc, heq⟩ := List.mem_map.1 hmem
      cases heq
      obtain ⟨_, -, hdispose⟩ := List.mem_map.1 hc
      cases hdispose

/-- Every event keeps a history sound. -/
theorem Sound.after (hs : h.Sound) (event : Event) : (h.after event).Sound := by
  cases event with
  | attach name => exact hs.of_operation (Registry.follows_attach _ name)
  | replace name => exact hs.of_operation (Registry.follows_replace _ name)
  | teardown name => exact hs.of_operation (Registry.follows_teardown _ name)
  | teardownAll => exact hs.of_operation (Registry.follows_teardownAll _)
  | requestPlay name => exact hs.of_operation (Registry.follows_requestPlay _ name)
  | activity a => exact hs.act a

/-- Every run keeps a history sound. -/
theorem Sound.run (hs : h.Sound) (events : List Event) : (h.run events).Sound := by
  induction events generalizing h with
  | nil => exact hs
  | cons event later ih => exact ih (hs.after event)

/-- Every history is sound. -/
theorem sound_run (settings : Settings) (supported : Bool) (events : List Event) :
    ((opened settings supported).run events).Sound :=
  (sound_opened settings supported).run events

end History

end VideoWall.Player
