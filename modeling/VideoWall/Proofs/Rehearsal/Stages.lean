/-
A rehearsal is a history.

A stage decides what comes next: who is on the way out ends first, then
sessions and tasks take the signals that they have, one after the other,
and time passes from one event to the next. It decides among things that
can happen, and it does nothing else to the wall. So every rehearsal is one
of the histories that the laws of walls, players and pollers are about, and
what a rehearsal shows is what can be seen.

# What happens by itself

`Lives` says that a wall has become another one by activities alone. One
step of a stage is one activity (`lives_advance?`), so everything that is
ready may run (`lives_settle`) and time may pass (`lives_sleep`).

# What the director does

Most cues are either the wall's or the devices': those of a wall are its
operations, with fatal errors and time in between (`rehearsal_of_wall`);
those of the devices attach and play, enable and disable
(`rehearsal_of_devices`). Only a picture that is shown out of nowhere is in
no history, since pictures come from engines.

A rehearsal that is calculated in words is the plain one, as long as lists and
layouts are of a size for that (`rehearsal_is_calculated`).
-/
import VideoWall.Proofs.Polling.History
import VideoWall.Proofs.Wall.Arithmetic
import VideoWall.Proofs.Wall.History
import VideoWall.Rehearsal.Stage

namespace VideoWall.Rehearsal

open Player Polling Wall

variable {w w' w'' : Controller} {s s' : Stage}

-- ====================================================== what lives by itself

/-- A wall has become another one by activities, whatever calls were made
before. -/
def Lives (w w' : Controller) : Prop :=
  ∃ events : List Wall.Event, (∀ event ∈ events, event.isActivity = true)
    ∧ ∀ calls, ((⟨w, calls⟩ : Wall.History).run events).wall = w'

theorem Lives.refl (w : Controller) : Lives w w := ⟨[], by simp, fun _ => rfl⟩

theorem Lives.single (event : Wall.Event) (hevent : event.isActivity = true)
    (h : ∀ calls, ((⟨w, calls⟩ : Wall.History).after event).wall = w') : Lives w w' :=
  ⟨[event], by simpa using hevent, h⟩

/-- A wall that has lived on may live on. -/
theorem Lives.trans (h : Lives w w') (h' : Lives w' w'') : Lives w w'' := by
  obtain ⟨before, hbefore, hrun⟩ := h
  obtain ⟨later, hlater, hrun'⟩ := h'
  refine ⟨before ++ later, ?_, fun calls => ?_⟩
  · rw [List.forall_mem_append]
    exact ⟨hbefore, hlater⟩
  · rw [Wall.History.run_append, ← hrun' ((⟨w, calls⟩ : Wall.History).run before).calls,
      ← hrun calls]

/-- A session takes a signal. -/
theorem lives_step? {supply : Supply} {now : Nat} {stream : String} {signal : Player.Signal}
    {players : Registry} {calls : List Call}
    (h : w.players.step? supply now stream signal = some (players, calls)) :
    Lives w { w with players } := by
  refine .single (.playing (.signal stream supply now signal)) rfl fun made => ?_
  simp only [Wall.History.after, Wall.History.players, Player.History.act, h]

/-- A task takes a signal. -/
theorem lives_poll {now : Nat} {stream : String} {signal : Polling.Signal} {poller : Poller}
    (h : w.poller.step? now stream signal = some poller) : Lives w { w with poller } := by
  refine .single (.polling (.signal stream now signal)) rfl fun made => ?_
  simp only [Wall.History.after, Poller.act, h, Option.getD_some]

/-- The session that has been on its way out for longest ends: it is woken. -/
theorem lives_depart? {players : Registry} {calls : List Call} (supply : Supply)
    (h : w.players.depart? = some (players, calls)) : Lives w { w with players } := by
  obtain ⟨stream, x, rest, hdeparting, rfl⟩ : ∃ stream x rest,
      w.players.departing = (stream, x) :: rest
        ∧ players = { w.players with departing := rest } := by
    unfold Registry.depart? at h
    split at h
    · cases h
    · rename_i stream x rest hdeparting
      exact ⟨stream, x, rest, hdeparting, (Prod.mk.inj (Option.some.inj h)).1.symm⟩
  refine .single (.playing (.wake supply 0 0 .begins)) rfl fun made => ?_
  cases hwake : w.players.wake? supply 0 0 .begins with
  | none =>
      have hnobody := Registry.departing_of_wake?_none hwake
      rw [hdeparting] at hnobody
      cases hnobody
  | some woken =>
      obtain ⟨players, calls⟩ := woken
      obtain ⟨-, -, -, hplayers, -⟩ := Registry.wake?_inv hwake
      rw [hdeparting] at hplayers
      simp only [Wall.History.after, Wall.History.players, Player.History.act, hwake, hplayers]
      rfl

-- ===================================================================== steps

/-- The answers of the devices are not the wall's. -/
theorem wall_answer (stream : String) (s : Stage) (call : Call) :
    (s.answer stream call).wall = s.wall := by
  cases call with
  | source answer => cases answer <;> rfl
  | create answer => cases answer <;> rfl
  | attach engine epoch url => rfl
  | play engine muted => rfl
  | dispose engine => rfl

theorem wall_answers (stream : String) (calls : List Call) (s : Stage) :
    (calls.foldl (Stage.answer stream) s).wall = s.wall := by
  induction calls generalizing s with
  | nil => rfl
  | cons call rest ih => exact (ih _).trans (wall_answer stream s call)

/-- A step of a session is an activity of the wall. -/
theorem lives_stepSession {stream : String} {x : Session} {signal : Player.Signal}
    (h : s.stepSession stream x signal = some s') : Lives s.wall s'.wall := by
  simp only [Stage.stepSession, Option.bind_eq_bind, Option.bind_eq_some_iff, Option.pure_def,
    Option.some.injEq] at h
  obtain ⟨⟨players, calls⟩, hstep, rfl⟩ := h
  have hwall : ∀ t : Stage, t.wall = { s.wall with players } →
      Lives s.wall (calls.foldl (Stage.answer stream) t).wall := by
    intro t ht
    rw [wall_answers, ht]
    exact lives_step? hstep
  refine hwall _ ?_
  cases signal with
  | begins | pauseOver | wish | refreshDue => rfl
  | attached outcome | played outcome =>
      dsimp only [Stage.consume]
      split <;> rfl
  | fatal message =>
      dsimp only [Stage.consume]
      split <;> rfl

/-- A step of a task is an activity of the wall. -/
theorem lives_stepTask {stream : String} {signal : Polling.Signal}
    (h : s.stepTask stream signal = some s') : Lives s.wall s'.wall := by
  simp only [Stage.stepTask, Option.bind_eq_bind, Option.bind_eq_some_iff] at h
  obtain ⟨poller, hstep, t, -, h⟩ := h
  have hwall : s'.wall = { s.wall with poller } := by
    split at h <;> cases h <;> rfl
  rw [hwall]
  exact lives_poll hstep

/-- A departure is an activity of the wall. -/
theorem lives_stage_depart? (h : s.depart? = some s') : Lives s.wall s'.wall := by
  simp only [Stage.depart?, Option.bind_eq_bind, Option.bind_eq_some_iff] at h
  obtain ⟨_, _, ⟨players, calls⟩, hdepart, h⟩ := h
  have hwall : s'.wall = { s.wall with players } := by
    split at h
    · cases h
      rfl
    · cases h
      exact wall_answers _ _ _
  rw [hwall]
  exact lives_depart? (s.supply "") hdepart

/-- A step of something that is ready is one activity. -/
theorem lives_advance? (h : s.advance? = some s') : Lives s.wall s'.wall := by
  unfold Stage.advance? at h
  split at h
  case h_1 t hdepart =>
    cases h
    exact lives_stage_depart? hdepart
  case h_2 =>
    dsimp only at h
    split at h
    case h_1 t hsession =>
      cases h
      obtain ⟨⟨stream, x⟩, -, hx⟩ := List.exists_of_findSome?_eq_some hsession
      obtain ⟨signal, -, hstep⟩ := Option.bind_eq_some_iff.1 hx
      exact lives_stepSession hstep
    case h_2 =>
      obtain ⟨⟨stream, t⟩, -, ht⟩ := List.exists_of_findSome?_eq_some h
      obtain ⟨signal, -, hstep⟩ := Option.bind_eq_some_iff.1 ht
      exact lives_stepTask hstep

-- ====================================================================== time

theorem lives_settleWithin (fuel : Nat) (s : Stage) : Lives s.wall (s.settleWithin fuel).wall := by
  induction fuel generalizing s with
  | zero => exact .refl _
  | succ fuel ih =>
      unfold Stage.settleWithin
      split
      case h_1 => exact .refl _
      case h_2 t hnext => exact (lives_advance? hnext).trans (ih t)

theorem lives_settle (s : Stage) : Lives s.wall s.settle.wall := lives_settleWithin _ s

/-- Running up to a limit is a life of the wall. -/
theorem lives_runUntil (limit fuel : Nat) (s : Stage) :
    Lives s.wall (s.runUntil limit fuel).wall := by
  induction fuel generalizing s with
  | zero => exact .refl _
  | succ fuel ih =>
      unfold Stage.runUntil
      split
      case h_1 => exact lives_settle { s with now := limit }
      case h_2 t hnext => exact (lives_settle { s with now := t }).trans (ih _)

/-- While time passes a wall lives. -/
theorem lives_sleep (ms : Nat) (s : Stage) : Lives s.wall (s.sleep ms).wall :=
  lives_runUntil _ _ s

-- ====================================================================== cues

/-- What a cue is to a wall, if it is one of the wall's. -/
def Cue.event? : Cue → Option Wall.Event
  | .setStreams streams => some (.operation (.setStreams streams))
  | .setLayout layout => some (.operation (.setLayout layout))
  | .select stream => some (.operation (.select stream))
  | .step delta => some (.operation (.stepPage delta))
  | .showDetections shown => some (.operation (.setShowDetections shown))
  | .restart => some (.operation .restartVisible)
  | .reconcile => some (.operation .reconcile)
  | .shutdown => some .shutdown
  | _ => none

/-- What a cue is to the players, if it is one of theirs. -/
def Cue.playing? : Cue → Option Player.Event
  | .attach stream => some (.attach stream)
  | .teardown stream => some (.teardown stream)
  | .teardownAll => some .teardownAll
  | .replace stream => some (.replace stream)
  | .play stream => some (.requestPlay stream)
  | _ => none

/-- What a cue is to the poller, if it is one of its own. -/
def Cue.polling? : Cue → Option Poller.Event
  | .enable stream => some (.enable stream)
  | .disable stream => some (.disable stream)
  | .disableAll => some .disableAll
  | _ => none

/-- Whether a cue is nobody's doing: an engine fails, or time passes. -/
def Cue.happens : Cue → Bool
  | .fatal .. | .sleep _ => true
  | _ => false

variable {cue : Cue}

/-- A cue of what happens is a life of the wall. -/
theorem lives_perform (h : cue.happens = true) (s : Stage) : Lives s.wall (s.perform cue).wall := by
  cases cue with
  | fatal stream message =>
      have hwall : (s.perform (.fatal stream message)).wall = s.wall := by
        dsimp only [Stage.perform, Stage.sendFatal]
        split <;> rfl
      rw [hwall]
      exact .refl _
  | sleep ms => exact lives_sleep ms s
  | _ => cases h

/-- A cue of an event has the wall take that event. -/
theorem wall_perform {event : Wall.Event} (h : cue.event? = some event) (s : Stage)
    (calls : List (String × Call)) :
    ((⟨s.wall, calls⟩ : Wall.History).after event).wall = (s.perform cue).wall := by
  cases cue <;> cases h <;> rfl

-- ==================================================================== walls

/-- A cue that is the wall's, and all that comes of it, is a run of the
wall. -/
theorem wall_play (h : cue.event?.isSome = true ∨ cue.happens = true) (s : Stage) :
    ∃ events : List Wall.Event, ∀ calls,
      ((⟨s.wall, calls⟩ : Wall.History).run events).wall = (s.play cue).wall := by
  obtain ⟨later, -, hlater⟩ := lives_settle ({ s with log := [] }.perform cue)
  rcases h with h | h
  · obtain ⟨event, hevent⟩ := Option.isSome_iff_exists.1 h
    refine ⟨event :: later, fun calls => ?_⟩
    have hfirst := wall_perform hevent { s with log := [] } calls
    rw [Wall.History.run_cons]
    refine Eq.trans ?_ (hlater ((⟨s.wall, calls⟩ : Wall.History).after event).calls)
    rw [← hfirst]
  · obtain ⟨events, -, hrun⟩ :=
      (lives_perform h { s with log := [] }).trans (lives_settle _)
    exact ⟨events, hrun⟩

/-- A rehearsal of a wall is a history of a wall, so that what holds after every
history of a wall holds on the stage. -/
private theorem rehearsal_of_wall (script : Script) (playing : Player.Settings)
    (polling : Polling.Settings) (view : View) (cues : List Cue)
    (hcues : ∀ cue ∈ cues, cue.event?.isSome = true ∨ cue.happens = true) :
    ∃ events : List Wall.Event,
      (cues.foldl Stage.play (Stage.opened script playing polling view)).wall
        = ((Wall.History.opened playing script.supported polling view).run events).wall := by
  have hrun : ∀ s : Stage, ∃ events : List Wall.Event, ∀ calls,
      ((⟨s.wall, calls⟩ : Wall.History).run events).wall = (cues.foldl Stage.play s).wall := by
    induction cues with
    | nil => exact fun s => ⟨[], fun _ => rfl⟩
    | cons cue rest ih =>
        obtain ⟨hcue, hrest⟩ := List.forall_mem_cons.1 hcues
        intro s
        obtain ⟨events, hevents⟩ := wall_play hcue s
        obtain ⟨later, hlater⟩ := ih hrest (s.play cue)
        refine ⟨events ++ later, fun calls => ?_⟩
        rw [Wall.History.run_append, List.foldl_cons,
          ← hlater ((⟨s.wall, calls⟩ : Wall.History).run events).calls, ← hevents calls]
  obtain ⟨events, hevents⟩ := hrun (Stage.opened script playing polling view)
  exact ⟨events, (hevents []).symm⟩

/-- What is on stage is sound, whatever the director does to the wall. -/
theorem sound_rehearsal (script : Script) (playing : Player.Settings)
    (polling : Polling.Settings) (view : View) (cues : List Cue)
    (hcues : ∀ cue ∈ cues, cue.event?.isSome = true ∨ cue.happens = true) :
    (cues.foldl Stage.play (Stage.opened script playing polling view)).wall.Sound := by
  obtain ⟨events, hevents⟩ := rehearsal_of_wall script playing polling view cues hcues
  rw [hevents]
  exact (Wall.History.sound_run playing script.supported polling view events).wall

-- =================================================================== devices

/-- The players that a wall's event is for. -/
def playing? : Wall.Event → Option Player.Event
  | .playing a => some (.activity a)
  | _ => none

/-- The poller that a wall's event is for. -/
def polling? : Wall.Event → Option Poller.Event
  | .polling a => some (.activity a)
  | _ => none

/-- The devices of a wall that lives take the events that are theirs. -/
theorem devices_run {events : List Wall.Event} (h : ∀ event ∈ events, event.isActivity = true)
    (t : Wall.History) :
    (t.run events).players = t.players.run (events.filterMap playing?)
      ∧ (t.run events).wall.poller = t.wall.poller.run (events.filterMap polling?) := by
  induction events generalizing t with
  | nil => exact ⟨rfl, rfl⟩
  | cons event later ih =>
      obtain ⟨hevent, hlater⟩ := List.forall_mem_cons.1 h
      rw [Wall.History.run_cons]
      cases event with
      | operation op | shutdown => cases hevent
      | playing a | polling a => exact ih hlater _

/-- Players and poller have each taken some events, whatever calls were made
before. -/
structure Serves (w w' : Controller) : Prop where
  players : ∃ events : List Player.Event, ∀ calls,
    ((⟨w.players, calls⟩ : Player.History).run events).players = w'.players
  poller : ∃ events : List Poller.Event, w.poller.run events = w'.poller

/-- Who lives on serves. -/
theorem Lives.serves (h : Lives w w') : Serves w w' := by
  obtain ⟨events, hall, hrun⟩ := h
  refine ⟨⟨events.filterMap playing?, fun calls => ?_⟩, events.filterMap polling?, ?_⟩
  · rw [← hrun calls]
    exact (congrArg Player.History.players (devices_run hall ⟨w, calls⟩).1).symm
  · rw [← hrun []]
    exact (devices_run hall ⟨w, []⟩).2.symm

theorem Serves.refl (w : Controller) : Serves w w := ⟨⟨[], fun _ => rfl⟩, [], rfl⟩

theorem Serves.trans (h : Serves w w') (h' : Serves w' w'') : Serves w w'' := by
  obtain ⟨⟨before, hbefore⟩, first, hfirst⟩ := h
  obtain ⟨⟨later, hlater⟩, second, hsecond⟩ := h'
  refine ⟨⟨before ++ later, fun calls => ?_⟩, first ++ second, ?_⟩
  · rw [Player.History.run_append,
      ← hlater ((⟨w.players, calls⟩ : Player.History).run before).calls, ← hbefore calls]
  · rw [← hsecond, ← hfirst]
    exact List.foldl_append ..

/-- Whether a cue is for the devices, or nobody's doing. -/
def Cue.isOfDevices (cue : Cue) : Bool := cue.playing?.isSome || cue.polling?.isSome || cue.happens

/-- A cue of the devices has the wall serve. -/
theorem serves_perform (h : cue.isOfDevices = true) (s : Stage) :
    Serves s.wall (s.perform cue).wall := by
  unfold Cue.isOfDevices at h
  rw [Bool.or_eq_true, Bool.or_eq_true] at h
  rcases h with (h | h) | h
  · obtain ⟨event, hevent⟩ := Option.isSome_iff_exists.1 h
    refine ⟨⟨[event], fun calls => ?_⟩, [], ?_⟩
    · cases cue <;> cases hevent <;> rfl
    · cases cue <;> cases hevent <;> rfl
  · obtain ⟨event, hevent⟩ := Option.isSome_iff_exists.1 h
    refine ⟨⟨[], fun calls => ?_⟩, [event], ?_⟩
    · cases cue <;> cases hevent <;> rfl
    · cases cue <;> cases hevent <;> rfl
  · exact (lives_perform h s).serves

/-- A rehearsal of the devices is a history of players beside one of a
poller. -/
theorem rehearsal_of_devices (script : Script) (playing : Player.Settings)
    (polling : Polling.Settings) (view : View) (cues : List Cue)
    (hcues : ∀ cue ∈ cues, cue.isOfDevices = true) :
    (∃ events : List Player.Event,
      (cues.foldl Stage.play (Stage.opened script playing polling view)).wall.players
        = ((Player.History.opened playing script.supported).run events).players)
      ∧ ∃ events : List Poller.Event,
        (cues.foldl Stage.play (Stage.opened script playing polling view)).wall.poller
          = ({ settings := polling } : Poller).run events := by
  have hrun : ∀ s : Stage, Serves s.wall (cues.foldl Stage.play s).wall := by
    induction cues with
    | nil => exact fun s => .refl _
    | cons cue rest ih =>
        obtain ⟨hcue, hrest⟩ := List.forall_mem_cons.1 hcues
        exact fun s => ((serves_perform hcue { s with log := [] }).trans
          (lives_settle _).serves).trans (ih hrest _)
  obtain ⟨⟨events, hevents⟩, events', hevents'⟩ := hrun (Stage.opened script playing polling view)
  exact ⟨⟨events, (hevents []).symm⟩, events', hevents'.symm⟩

-- ================================================================ arithmetic

/-- What a cue brings is of a size that can be calculated with. -/
def Cue.Sized (cue : Cue) : Prop :=
  ∀ op, cue.event? = some (.operation op) → Calculation.SizedOperation op

/-- A wall that lives keeps its list and its view. -/
theorem Lives.sized (h : Lives w w') (hs : Calculation.Sized w) : Calculation.Sized w' := by
  obtain ⟨events, hall, hrun⟩ := h
  have hsame : ∀ t : Wall.History, (t.run events).wall.streams = t.wall.streams
      ∧ (t.run events).wall.view = t.wall.view := by
    clear hrun
    induction events with
    | nil => exact fun t => ⟨rfl, rfl⟩
    | cons event later ih =>
        obtain ⟨hevent, hlater⟩ := List.forall_mem_cons.1 hall
        intro t
        rw [Wall.History.run_cons]
        cases event with
        | operation op | shutdown => cases hevent
        | playing a | polling a => exact ih hlater _
  obtain ⟨hstreams, hview⟩ := hsame ⟨w, []⟩
  rw [hrun []] at hstreams hview
  exact ⟨hstreams ▸ hs.length, hview ▸ hs.words, hview ▸ hs.fits⟩

/-- A sized cue keeps the wall sized. -/
theorem sized_perform (hs : Calculation.Sized s.wall) (hcue : cue.Sized) :
    Calculation.Sized (s.perform cue).wall := by
  cases cue with
  | setStreams | setLayout | select | step | showDetections | restart | reconcile =>
      exact hs.perform (hcue _ rfl)
  | fatal stream message => exact (lives_perform rfl s).sized hs
  | sleep ms => exact (lives_perform rfl s).sized hs
  | _ => exact ⟨hs.length, hs.words, hs.fits⟩

/-- On sized walls the checks change nothing. -/
private theorem performChecked_eq (hs : Calculation.Sized s.wall) (hcue : cue.Sized) :
    s.performChecked cue = .ok (s.perform cue) := by
  have hchanged : ∀ op, cue.event? = some (.operation op) →
      (Calculation.perform s.wall op).map (fun wall => { s with wall })
        = .ok { s with wall := s.wall.perform op } := by
    intro op hop
    rw [hs.perform_eq (hcue op hop)]
    rfl
  cases cue with
  | setStreams | setLayout | select | step | showDetections | reconcile => exact hchanged _ rfl
  | _ => rfl

/-- As long as everything is of a size that can be calculated with, no
calculation of a rehearsal is stopped, and it is the plain rehearsal. -/
theorem rehearsal_is_calculated {cues : List Cue} (hs : Calculation.Sized s.wall)
    (hcues : ∀ cue ∈ cues, cue.Sized) :
    cues.foldlM Stage.playChecked s = .ok (cues.foldl Stage.play s) := by
  induction cues generalizing s with
  | nil => rfl
  | cons cue rest ih =>
      obtain ⟨hcue, hrest⟩ := List.forall_mem_cons.1 hcues
      have hplay : s.playChecked cue = .ok (s.play cue) := by
        rw [Stage.playChecked, performChecked_eq (s := { s with log := [] }) hs hcue]
        rfl
      have hsized : Calculation.Sized (s.play cue).wall :=
        (lives_settle _).sized (sized_perform (s := { s with log := [] }) hs hcue)
      rw [List.foldlM_cons, hplay]
      exact ih hsized hrest

end VideoWall.Rehearsal
