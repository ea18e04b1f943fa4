/-
A wall, its players and its poller are in step.

# In step

Once the wall has a list of streams, what is on screen is what the view
asks for (`Controller.Settled`): the selection is in the list, the page is
one that there is, the names on screen are those of the streams that
belong there, and the streams that have a task are those of them that have
a detector, while detections are shown. With the soundness of the wall,
the streams with a session are those on screen, and the feed of a stream
without a task is blank (`Controller.InStep`). Sessions and tasks run unless
they have crashed, which no wall does whose intervals the clock can bear
(`History.wall_in_step`); on any other, a stream may be on screen without a
session that runs (`History.crashed_on_screen`).

# Why operations keep it

Reconciling settles a wall whatever it was before (`settled_reconcile`),
as long as the selection is in the list. The operations that do not end
with it change nothing that matters: a selection, on a wall with pages,
does not bear on what belongs there.
-/
import VideoWall.Proofs.Player.Engines
import VideoWall.Proofs.Wall.History

namespace VideoWall.Wall

open Recorder Player Polling

namespace Controller

variable {c b : Controller}

/-- What is on screen and what is polled is what the view asks for. -/
structure Settled (c : Controller) : Prop where
  selected : c.SelectionListed
  page : c.view.layout ≠ .single → c.view.page < c.pages
  visible : c.visible = c.wanted.map (·.name)
  polled : ∀ name, c.poller.hasTask name = true
    ↔ ∃ s ∈ c.wanted, s.name = name ∧ c.polls s = true

/-- The view, the players and the poller agree. -/
structure InStep (c : Controller) : Prop extends Settled c where
  housed : ∀ name, c.players.hasSession name = true ↔ name ∈ c.visible
  /-- The streams with a running session are those on screen, but for the ones
  whose session has crashed. -/
  attached : ∀ name, c.players.isAttached name = true
    ↔ name ∈ c.visible ∧ c.players.hasCrashed name = false
  /-- The streams with a running task are those to be polled, but for the ones
  whose task has crashed. -/
  enabled : ∀ name, c.poller.isEnabled name = true
    ↔ (∃ s ∈ c.wanted, s.name = name ∧ c.polls s = true) ∧ c.poller.hasCrashed name = false
  blank : ∀ name, c.poller.hasTask name = false → (c.poller.feed name).Blank

-- ============================================================ the view

/-- There is always a page. -/
theorem pageCount_pos (total pageSize : Nat) : 0 < pageCount total pageSize :=
  Nat.lt_of_lt_of_le Nat.zero_lt_one (Nat.le_max_right _ _)

/-- A page is clamped to one that is there. -/
theorem clampPage_lt (page total pageSize : Nat) :
    clampPage page total pageSize < pageCount total pageSize := by
  have hpos := pageCount_pos total pageSize
  unfold clampPage
  omega

/-- On a wall with pages, the settled page is one of them. -/
theorem page_settledView (hlayout : c.view.layout ≠ .single) :
    c.settledView.page < ({ c with view := c.settledView } : Controller).pages := by
  unfold settledView pages
  cases hl : c.view.layout with
  | single => exact absurd hl hlayout
  | count streams =>
      simp only [hl]
      exact clampPage_lt _ _ _
  | custom columns rows =>
      simp only [hl]
      exact clampPage_lt _ _ _

/-- Settling keeps the layout. -/
theorem settledView_layout (c : Controller) : c.settledView.layout = c.view.layout := by
  unfold settledView
  split
  · rfl
  · rfl

/-- Settling keeps the selection. -/
theorem settledView_selected (c : Controller) : c.settledView.selected = c.view.selected := by
  unfold settledView
  split
  · rfl
  · rfl

/-- What belongs on screen is in the list. -/
theorem mem_names_of_wanted {name : String} (h : name ∈ c.wanted.map (·.name)) :
    name ∈ c.names := by
  obtain ⟨s, hs, rfl⟩ := List.mem_map.1 h
  refine List.mem_map.2 ⟨s, ?_, rfl⟩
  unfold wanted visibleStreams at hs
  split at hs
  · exact List.mem_of_mem_drop (List.mem_of_mem_take hs)
  · exact List.mem_of_mem_drop (List.mem_of_mem_take hs)

/-- On a wall with pages the selection does not bear on what belongs on
screen. -/
private theorem wanted_select (hlayout : c.view.layout ≠ .single) (selected : Option String) :
    ({ c with view.selected := selected } : Controller).wanted = c.wanted := by
  unfold wanted visibleStreams
  cases hl : c.view.layout with
  | single => exact absurd hl hlayout
  | count streams => rfl
  | custom columns rows => rfl

-- ========================================================== operations

/-- Reconciling settles a wall. -/
theorem settled_reconcile (h : c.Sound) (hselected : c.SelectionListed) :
    c.reconcile.Settled := by
  have hsettled : ({ c with view := c.settledView } : Controller).Sound := h.congr ⟨rfl, rfl, rfl⟩
  refine ⟨?_, ?_, rfl, ?_⟩
  · intro name hname
    refine hselected name ?_
    rw [← settledView_selected]
    exact hname
  · intro hlayout
    refine page_settledView ?_
    rw [← settledView_layout]
    exact hlayout
  · exact hasTask_reconcilePoller hsettled.poller _

/-- A wall whose streams are set is settled. -/
theorem settled_setStreams (h : c.Sound) (streams : List Stream) :
    (c.setStreams streams).Settled :=
  settled_reconcile (h.congr ⟨rfl, rfl, rfl⟩) (selectionListed_setStreams c streams)

/-- On a settled wall what is on screen is in the list. -/
private theorem Settled.visible_listed (h : c.Settled) : ∀ name ∈ c.visible, name ∈ c.names := by
  intro name hname
  rw [h.visible] at hname
  exact mem_names_of_wanted hname

/-- Every operation keeps a wall settled. -/
theorem Settled.perform (h : c.Settled) (hs : c.Sound) (op : Operation) :
    (c.perform op).Settled := by
  have hshape := c.performs op
  generalize c.perform op = c' at hshape
  cases hshape with
  | nothing => exact h
  | selects name hlisted hlayout =>
      have hwanted := wanted_select hlayout (some name)
      refine ⟨?_, ?_, ?_, ?_⟩
      · intro n hn
        cases hn
        exact hlisted
      · exact h.page
      · rw [hwanted]
        exact h.visible
      · rw [hwanted]
        exact h.polled
  | reconciles b hsame hlisted =>
      exact settled_reconcile (hs.congr hsame) (hlisted h.selected h.visible_listed)
  | restarts => exact ⟨h.selected, h.page, h.visible, h.polled⟩
  | wishes name hvisible => exact ⟨h.selected, h.page, h.visible, h.polled⟩

/-- A settled wall that can decode video is in step. -/
private theorem Settled.inStep (h : c.Settled) (hs : c.Sound)
    (hsupported : c.players.supported = true) : c.InStep :=
  { h with
    housed := hs.hasSession_iff hsupported
    attached := hs.isAttached_iff hsupported
    enabled := fun name => by rw [(hs.poller name).isEnabled_iff, h.polled]
    blank := fun name hidle => (hs.poller name).blank hidle }

end Controller

-- =========================================================== histories

namespace History

variable {h : History}

/-- Without a shutdown a settled wall stays settled. -/
theorem settled_after (hw : h.wall.Settled) (hs : h.Sound) {event : Event}
    (hopen : event ≠ .shutdown) : (h.after event).wall.Settled := by
  cases event with
  | operation op => exact hw.perform hs.wall op
  | shutdown => exact absurd rfl hopen
  | playing a => exact ⟨hw.selected, hw.page, hw.visible, hw.polled⟩
  | polling a =>
      refine ⟨hw.selected, hw.page, hw.visible, fun name => ?_⟩
      show (h.wall.poller.act a).hasTask name = true ↔ _
      rw [(hs.wall.poller.act a).hasTask]
      exact hw.polled name

/-- A wall stays settled until it shuts down. -/
theorem settled_run (hw : h.wall.Settled) (hs : h.Sound) {events : List Event}
    (hopen : Event.shutdown ∉ events) : (h.run events).wall.Settled := by
  induction events generalizing h with
  | nil => exact hw
  | cons event later ih =>
      rw [List.mem_cons, not_or] at hopen
      exact ih (settled_after hw hs (Ne.symm hopen.1)) (hs.after event) hopen.2

/-- By itself nothing starts on a wall that was stopped. -/
theorem stopped_after (hw : h.wall.Stopped) (hs : h.Sound) {event : Event}
    (hactivity : event.isActivity = true) : (h.after event).wall.Stopped := by
  cases event with
  | operation op => cases hactivity
  | shutdown => cases hactivity
  | playing a =>
      have hidle : ∀ name, (h.players.act a).players.hasSession name = false := by
        intro name
        rw [Player.History.hasSession_act hs.players a name]
        show h.wall.players.hasSession name = false
        unfold Registry.hasSession
        rw [(hs.wall.players name).isAttached_eq, hw.sessions, hw.crashed]
        rfl
      refine ⟨hw.visible, fun name => ?_, fun name => (Bool.or_eq_false_iff.1 (hidle name)).2,
        hw.tasks, hw.feeds⟩
      exact ((hs.playing a).wall.players name).get?_of_not_attached
        (Bool.or_eq_false_iff.1 (hidle name)).1
  | polling a =>
      have hpoller := hs.wall.poller.act a
      have htasks : ∀ name, (h.wall.poller.act a).tasks.get? name = none := by
        intro name
        have hidle := hpoller.hasTask name
        unfold Poller.hasTask at hidle
        rw [hw.tasks] at hidle
        simpa using hidle
      exact ⟨hw.visible, hw.sessions, hw.crashed, htasks,
        fun name => (hpoller.sound name).idle (htasks name)⟩

/-- A wall that has stopped stays so. -/
theorem stopped_run (hw : h.wall.Stopped) (hs : h.Sound) {events : List Event}
    (hactivity : ∀ event ∈ events, event.isActivity = true) : (h.run events).wall.Stopped := by
  induction events generalizing h with
  | nil => exact hw
  | cons event later ih =>
      have hfirst := hactivity event List.mem_cons_self
      exact ih (stopped_after hw hs hfirst) (hs.after event)
        fun e he => hactivity e (List.mem_cons_of_mem _ he)

/-- In every history of a wall that can decode video: from the first list
of streams on, and until a shutdown, the wall is in step after every event;
and after a shutdown nothing runs and nothing is shown, whatever comes in
late. A session crashes only at a signal from which the clock cannot tell a
whole interval between refreshes, and a task only if the longest interval of
polling has no double. -/
theorem wall_in_step (playing : Player.Settings) (polling : Polling.Settings) (view : View)
    (before : List Event) :
    (∀ streams after, Event.shutdown ∉ after →
      ((opened playing true polling view).run
        (before ++ .operation (.setStreams streams) :: after)).wall.InStep)
    ∧ (∀ after, (∀ event ∈ after, event.isActivity = true) →
        ((opened playing true polling view).run (before ++ .shutdown :: after)).wall.Stopped)
    ∧ ∀ name,
        (((opened playing true polling view).run before).wall.players.hasCrashed name = true →
          ∃ event ∈ before, event.IsLate playing name)
        ∧ (((opened playing true polling view).run before).wall.poller.hasCrashed name = true →
          ¬ Clock.IsDuration (polling.longest * 2)) := by
  have hsound := sound_run playing true polling view before
  refine ⟨?_, ?_, crashes_run playing true polling view before⟩
  · intro streams after hopen
    have hafter := hsound.after (.operation (.setStreams streams))
    have hsupported := supported_run (opened playing true polling view)
      (before ++ .operation (.setStreams streams) :: after)
    rw [run_append, run_cons] at hsupported ⊢
    have hsettled := Controller.settled_setStreams hsound.wall streams
    exact (settled_run hsettled hafter hopen).inStep (hafter.run after).wall hsupported
  · intro after hactivity
    have hafter := hsound.after .shutdown
    rw [run_append, run_cons]
    exact stopped_run hsound.wall.stopped_shutdown hafter hactivity

/-- The gate's camera has a detector, the yard's has none. -/
def twoStreams : List Stream :=
  [ { name := "gate", detectionBasedRecording := true, detectionModel := "people" },
    { name := "yard" } ]

/-- The user looks at the gate alone and then at the yard; in between the
gate's session begins. -/
def gateThenYard : List Event :=
  [ .operation (.select "gate"),
    .operation (.setLayout .single),
    .playing (.signal "gate" ⟨.ok default, .ok 1⟩ 0 .begins),
    .operation (.stepPage 1) ]

theorem wall_in_step_of_two_streams :
    (Event.shutdown ∉ gateThenYard
      ∧ ((opened {} true {} {}).run
          ([] ++ .operation (.setStreams twoStreams) :: gateThenYard)).wall.visible = ["yard"]
      ∧ ((opened {} true {} {}).run
          ([] ++ .operation (.setStreams twoStreams) :: gateThenYard)).wall.InStep)
    ∧ ((∀ event ∈ [Event.polling (.late 0 0 (.ok []))], event.isActivity = true)
      ∧ ((opened {} true {} {}).run
          (.operation (.setStreams twoStreams) :: gateThenYard
            ++ .shutdown :: [.polling (.late 0 0 (.ok []))])).wall.Stopped) := by
  have hopen : Event.shutdown ∉ gateThenYard := by simp [gateThenYard]
  have hlate : ∀ event ∈ [Event.polling (.late 0 0 (.ok []))], event.isActivity = true := by
    simp [Event.isActivity]
  obtain ⟨-, hstops, -⟩ :=
    wall_in_step {} {} {} (.operation (.setStreams twoStreams) :: gateThenYard)
  exact ⟨⟨hopen, by decide, (wall_in_step {} {} {} []).1 twoStreams gateThenYard hopen⟩,
    hlate, hstops _ hlate⟩

/-- The user has the gate on screen, which begins to play, and then looks for it
once more. -/
def gatePlays : List Event :=
  [ .operation (.setStreams twoStreams),
    .playing (.signal "gate" ⟨.ok default, .ok 1⟩ 0 .begins),
    .playing (.signal "gate" ⟨.ok default, .ok 1⟩ 0 (.attached (.ok ()))),
    .playing (.signal "gate" ⟨.ok default, .ok 1⟩ 0 (.played (.ok ()))),
    .operation (.select "gate") ]

/-- With the longest interval between refreshes, the gate is on screen without a
session that runs. -/
theorem crashed_on_screen :
    Event.shutdown ∉ gatePlays
      ∧ ((opened Player.History.patient true {} {}).run gatePlays).wall.visible = ["gate", "yard"]
      ∧ ((opened Player.History.patient true {} {}).run gatePlays).wall.players.isAttached "gate"
        = false :=
  ⟨by simp [gatePlays], by decide, by decide⟩

end History

end VideoWall.Wall
