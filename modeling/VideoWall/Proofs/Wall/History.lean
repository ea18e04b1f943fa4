/-
Histories of a wall: the user's operations in any order, and in between
whatever sessions, engines, decoders and polling tasks do by themselves,
at any time.

A wall and the calls that its sessions have made are sound after every
history (`History.sound_run`). As in a history of players, an event that
cannot happen leaves everything as it is.
-/
import VideoWall.Proofs.Wall.Operations

namespace VideoWall.Wall

open Recorder Player Polling

/-- What can happen to a wall. -/
inductive Event where
  | operation (op : Operation)
  | shutdown
  | playing (a : Player.Activity)
  | polling (a : Polling.Activity)

/-- Whether an event is nobody's doing. -/
def Event.isActivity : Event → Bool
  | .playing _ | .polling _ => true
  | _ => false

/-- An event at which the session of a stream has a signal, but the clock cannot
tell a whole interval from then. -/
def Event.IsLate (cfg : Player.Settings) (name : String) (event : Event) : Prop :=
  ∃ supply now signal, event = .playing (.signal name supply now signal)
    ∧ ¬ Clock.IsInstant (now + cfg.refreshInterval)

/-- A wall, and the calls that its sessions have made. -/
structure History where
  wall : Controller
  calls : List (String × Call) := []

namespace History

variable {h : History}

/-- The players and their calls. -/
def players (h : History) : Player.History := ⟨h.wall.players, h.calls⟩

/-- A wall on which nothing has happened, with the view that was kept. -/
def opened (playing : Player.Settings) (supported : Bool) (polling : Polling.Settings)
    (view : View) : History :=
  ⟨{ players := { settings := playing, supported }, poller := { settings := polling }, view }, []⟩

/-- An event. -/
def after (h : History) : Event → History
  | .operation op => { h with wall := h.wall.perform op }
  | .shutdown => { h with wall := h.wall.shutdown }
  | .playing a =>
      let next := h.players.act a
      ⟨{ h.wall with players := next.players }, next.calls⟩
  | .polling a => { h with wall := { h.wall with poller := h.wall.poller.act a } }

/-- Events, one after the other. -/
def run (h : History) (events : List Event) : History := events.foldl after h

@[simp]
theorem run_append (h : History) (before later : List Event) :
    h.run (before ++ later) = (h.run before).run later :=
  List.foldl_append ..

@[simp]
theorem run_cons (h : History) (event : Event) (later : List Event) :
    h.run (event :: later) = (h.after event).run later := rfl

-- ============================================================ soundness

/-- The wall is sound, and so is the history of its players. -/
structure Sound (h : History) : Prop where
  wall : h.wall.Sound
  players : h.players.Sound

/-- A wall that has just been opened is sound. -/
theorem sound_opened (playing : Player.Settings) (supported : Bool) (polling : Polling.Settings)
    (view : View) : (opened playing supported polling view).Sound := by
  have hplayers := Player.History.sound_opened playing supported
  refine ⟨⟨hplayers.players, Poller.sound_new polling, ?_, ?_⟩, hplayers⟩
  · intro _ name hname
    cases hname
  · intro name _
    exact ⟨rfl, rfl, rfl, rfl, rfl, rfl, rfl⟩

/-- By themselves players change neither the list nor the view, and the
same streams are on screen. -/
theorem Sound.playing (hs : h.Sound) (a : Player.Activity) : (h.after (.playing a)).Sound := by
  have hplayers := hs.players.act a
  refine ⟨⟨hplayers.players, hs.wall.poller, ?_, ?_⟩, hplayers⟩
  · intro hsupported name hname
    have hbefore : h.wall.players.supported = true :=
      (Player.History.supported_act h.players a).symm.trans hsupported
    exact (Player.History.hasSession_act hs.players a name).trans
      (hs.wall.onScreen hbefore name hname)
  · intro name hname
    exact Player.History.tornDown_act hs.players (hs.wall.offScreen name hname) a

/-- Every event keeps a wall sound. -/
theorem Sound.after (hs : h.Sound) (event : Event) : (h.after event).Sound := by
  cases event with
  | operation op =>
      exact ⟨hs.wall.perform op, hs.players.of_operation (Controller.follows_perform h.wall op)⟩
  | shutdown =>
      exact ⟨hs.wall.shutdown,
        hs.players.of_operation (Registry.follows_teardownAll h.wall.players)⟩
  | playing a => exact hs.playing a
  | polling a =>
      exact ⟨⟨hs.wall.players, (hs.wall.poller.act a).sound, hs.wall.onScreen, hs.wall.offScreen⟩,
        hs.players⟩

/-- Every run keeps a wall sound. -/
theorem Sound.run (hs : h.Sound) (events : List Event) : (h.run events).Sound := by
  induction events generalizing h with
  | nil => exact hs
  | cons event later ih => exact ih (hs.after event)

/-- Every history of a wall is sound. -/
theorem sound_run (playing : Player.Settings) (supported : Bool) (polling : Polling.Settings)
    (view : View) (events : List Event) :
    ((opened playing supported polling view).run events).Sound :=
  (sound_opened playing supported polling view).run events

/-- Whether video can be decoded never changes. -/
theorem supported_run (h : History) (events : List Event) :
    (h.run events).wall.players.supported = h.wall.players.supported := by
  induction events generalizing h with
  | nil => rfl
  | cons event later ih =>
      rw [run_cons, ih]
      cases event with
      | operation op => exact (Controller.follows_perform h.wall op).supported
      | shutdown => exact (Registry.follows_teardownAll h.wall.players).supported
      | playing a => exact Player.History.supported_act h.players a
      | polling a => rfl

-- ============================================================= crashes

/-- How sessions play never changes. -/
theorem settings_run (h : History) (events : List Event) :
    (h.run events).wall.players.settings = h.wall.players.settings := by
  induction events generalizing h with
  | nil => rfl
  | cons event later ih =>
      rw [run_cons, ih]
      cases event with
      | operation op => exact Controller.settings_perform h.wall op
      | shutdown => exact Registry.settings_teardowns _ _
      | playing a => exact Player.History.settings_after h.players (.activity a)
      | polling a => rfl

theorem paced_after {cfg : Polling.Settings} (hp : h.wall.poller.Paced cfg) (event : Event) :
    (h.after event).wall.poller.Paced cfg := by
  cases event with
  | operation op => exact Controller.paced_perform hp op
  | shutdown => exact hp.disables _
  | playing a => exact hp
  | polling a => exact hp.act a

/-- Every run keeps the poller's pace. -/
theorem paced_run {cfg : Polling.Settings} (hp : h.wall.poller.Paced cfg) (events : List Event) :
    (h.run events).wall.poller.Paced cfg := by
  induction events generalizing h with
  | nil => exact hp
  | cons event later ih => exact ih (paced_after hp event)

/-- A session has crashed only at such an event. -/
theorem Sound.hasCrashed_run (hs : h.Sound) {name : String} {events : List Event}
    (hcrashed : (h.run events).wall.players.hasCrashed name = true) :
    h.wall.players.hasCrashed name = true
      ∨ ∃ event ∈ events, event.IsLate h.wall.players.settings name := by
  induction events generalizing h with
  | nil => exact Or.inl hcrashed
  | cons event later ih =>
      have hsettings : (h.after event).wall.players.settings = h.wall.players.settings :=
        settings_run h [event]
      rcases ih (hs.after event) hcrashed with hbefore | ⟨e, hmem, hlate⟩
      · cases event with
        | operation op => exact Or.inl (hs.wall.hasCrashed_perform op hbefore)
        | shutdown =>
            have hnone := (Registry.tornDown_teardownAll hs.wall.players name).hasCrashed
            exact absurd (hbefore.symm.trans hnone) (by decide)
        | playing a =>
            rcases Player.History.hasCrashed_act hs.players a name hbefore with
              hold | ⟨supply, now, signal, rfl, hlate⟩
            · exact Or.inl hold
            · exact Or.inr ⟨_, List.mem_cons_self, supply, now, signal, rfl, hlate⟩
        | polling a => exact Or.inl hbefore
      · rw [hsettings] at hlate
        exact Or.inr ⟨e, List.mem_cons_of_mem _ hmem, hlate⟩

/-- What crashes in a history of a wall: a session at a signal from which the
clock cannot tell a whole interval, and a task only if the longest interval of
polling has no double. -/
theorem crashes_run (playing : Player.Settings) (supported : Bool) (polling : Polling.Settings)
    (view : View) (events : List Event) (name : String) :
    (((opened playing supported polling view).run events).wall.players.hasCrashed name = true →
        ∃ event ∈ events, event.IsLate playing name)
      ∧ (((opened playing supported polling view).run events).wall.poller.hasCrashed name = true →
        ¬ Clock.IsDuration (polling.longest * 2)) := by
  refine ⟨fun hcrashed => ?_, fun hcrashed => ?_⟩
  · have hsound := sound_opened playing supported polling view
    rcases hsound.hasCrashed_run hcrashed with hnone | hlate
    · cases hnone
    · exact hlate
  · have hnew : (opened playing supported polling view).wall.poller.Paced polling :=
      Poller.paced_new polling
    exact (paced_run hnew events).late hcrashed

end History

end VideoWall.Wall
