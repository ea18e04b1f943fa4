/-
Histories of a poller: enabling and disabling in any order, with whatever
the tasks do in between, the outcomes of stopped tasks included, which
arrive late and in any order.

# The law

The feed of a stream hears of the present task of the stream, and of
nobody else (`Poller.KeepsApart`). That task is in the session that the
feed is in, a stopped one is in a session before it, and a feed takes
outcomes for its own session only. So whatever a stopped task brings is
lost on feeds and tasks, also when the stream has been enabled again.
-/
import VideoWall.Proofs.Polling.Feeds
import VideoWall.Proofs.Polling.Pace

namespace VideoWall.Polling

open Recorder

-- =============================================================== signals

/-- Whether a signal is the end of a fetch. -/
def Signal.endsFetch : Signal → Bool
  | .answered _ | .timedOut => true
  | _ => false

namespace Task

variable {cfg : Settings} {now : Nat} {signal : Signal} {t t' : Task} {f f' : Feed}

/-- Whether a task has a fetch in flight. -/
def isFetching (t : Task) : Bool :=
  match t.point with
  | .asking _ => true
  | _ => false

/-- A task touches its feed only where a fetch of its own ends. -/
private theorem step?_feed (h : t.step? cfg now signal f = some (t', f')) :
    f' = f ∨ (t.isFetching = true ∧ signal.endsFetch = true) := by
  obtain ⟨session, backoff, point⟩ := t
  cases point with
  | fresh =>
      cases signal with
      | begins =>
          cases h
          exact Or.inl rfl
      | _ => cases h
  | asking since =>
      cases signal with
      | answered outcome => exact Or.inr ⟨rfl, rfl⟩
      | timedOut => exact Or.inr ⟨rfl, rfl⟩
      | _ => cases h
  | waiting due =>
      cases signal with
      | intervalOver =>
          simp only [step?, Option.ite_none_right_eq_some, Option.some.injEq, Prod.mk.injEq] at h
          obtain ⟨-, -, rfl⟩ := h
          exact Or.inl rfl
      | _ => cases h
  | «over» | crashed => cases signal <;> cases h

end Task

namespace Poller

variable {p p' : Poller} {name other : String}

-- ================================================================ events

/-- What can happen to a poller. -/
inductive Event where
  | enable (name : String)
  | disable (name : String)
  | disableAll
  | activity (a : Activity)

/-- Whether an event disables a stream. -/
def Event.disables (name : String) : Event → Bool
  | .disable n => n == name
  | .disableAll => true
  | _ => false

/-- An event. -/
def after (p : Poller) : Event → Poller
  | .enable name => p.enable name
  | .disable name => p.disable name
  | .disableAll => p.disableAll
  | .activity a => p.act a

/-- Events, one after the other. -/
def run (p : Poller) (events : List Event) : Poller := events.foldl after p

/-- Every event keeps tasks and feeds in step. -/
theorem Sound.after (h : p.Sound) (event : Event) : (p.after event).Sound := by
  cases event with
  | enable name => exact sound_enable h name
  | disable name => exact sound_disable h name
  | disableAll => exact sound_disables p.tasks.names h
  | activity a => exact (h.act a).sound

/-- Every run keeps a poller sound. -/
theorem Sound.run (h : p.Sound) (events : List Event) : (p.run events).Sound := by
  induction events generalizing p with
  | nil => exact h
  | cons event later ih => exact ih (h.after event)

/-- Every event keeps a poller's pace. -/
theorem Paced.after {cfg : Settings} (h : p.Paced cfg) (event : Event) :
    (p.after event).Paced cfg := by
  cases event with
  | enable name => exact h.enable name
  | disable name => exact h.disable name
  | disableAll => exact h.disables p.tasks.names
  | activity a => exact h.act a

/-- No task ever waits longer than the settings allow. -/
theorem Paced.run {cfg : Settings} (h : p.Paced cfg) (events : List Event) :
    (p.run events).Paced cfg := by
  induction events generalizing p with
  | nil => exact h
  | cons event later ih => exact ih (h.after event)

-- ======================================================== who is enabled

/-- What an event says about polling a stream, when it was asked for or not
before. -/
def Event.asks (name : String) (before : Bool) : Event → Bool
  | .enable n => name == n || before
  | .disable n => name != n && before
  | .disableAll => false
  | .activity _ => before

/-- Whether a stream has been enabled, and not been disabled since. -/
def asked (name : String) (events : List Event) : Bool :=
  events.foldl (fun before event => event.asks name before) false

/-- After an event a stream has a task when it was asked for. -/
theorem hasTask_after (h : p.Sound) (event : Event) (name : String) :
    (p.after event).hasTask name = event.asks name (p.hasTask name) := by
  rw [Bool.eq_iff_iff]
  cases event with
  | enable n =>
      show (p.enable n).hasTask name = true ↔ _
      rw [hasTask_enable]
      simp [Event.asks]
  | disable n =>
      show (p.disable n).hasTask name = true ↔ _
      unfold hasTask
      rw [get?_tasks_disable]
      by_cases ho : name = n
      · simp [Event.asks, ho]
      · simp [Event.asks, ho]
  | disableAll =>
      show p.disableAll.hasTask name = true ↔ _
      unfold hasTask
      rw [disableAll_tasks]
      simp [Event.asks]
  | activity a =>
      show (p.act a).hasTask name = true ↔ _
      rw [(h.act a).hasTask name]
      rfl

/-- After a run a stream has a task when it was last asked for. -/
theorem hasTask_run (h : p.Sound) (events : List Event) (name : String) :
    (p.run events).hasTask name
      = events.foldl (fun before event => event.asks name before) (p.hasTask name) := by
  induction events generalizing p with
  | nil => rfl
  | cons event later ih =>
      show ((p.after event).run later).hasTask name = _
      rw [ih (h.after event), hasTask_after h]
      rfl

-- ====================================================== the present enable

/-- The number that the present enable of a stream was given by its feed, if
`number` was it before an event: an enable that starts a task is given the
number of the session that it begins, and a disable ends it. -/
def numberAfter (p : Poller) (name : String) (number : Option Nat) : Event → Option Nat
  | .enable n =>
      if name = n ∧ p.isEnabled n = false then some (p.feed n).begin.session else number
  | .disable n => if name = n then none else number
  | .disableAll => none
  | .activity _ => number

/-- The number of the present enable of a stream after some events. -/
def presentEnable (name : String) : Poller → Option Nat → List Event → Option Nat
  | _, number, [] => number
  | p, number, event :: later =>
      presentEnable name (p.after event) (p.numberAfter name number event) later

/-- By themselves tasks stay in their sessions. -/
theorem session_act (h : p.Sound) (a : Activity) (name : String) :
    ((p.act a).tasks.get? name).map (·.session) = (p.tasks.get? name).map (·.session) := by
  cases a with
  | signal n now signal =>
      unfold act
      dsimp only
      cases hstep : p.step? now n signal with
      | none => rfl
      | some p' =>
          obtain ⟨t, t', f', ht, htask, rfl⟩ := step?_inv hstep
          have hcurrent := ((h n).current t ht).2
          obtain ⟨-, hsession, hfeed⟩ := Task.step?_keeps hcurrent htask
          dsimp only [Option.getD_some]
          rw [ByName.get?_set]
          by_cases ho : name = n
          · rw [if_pos ho, ho, ht, Option.map_some, Option.map_some, hsession, hfeed, hcurrent]
          · rw [if_neg ho]
  | late now i outcome =>
      unfold act
      dsimp only
      cases hlate : p.arriveLate? now i outcome with
      | none => rfl
      | some p' =>
          rw [arriveLate?_inv h hlate]
          rfl

/-- The task of a stream is that of its present enable. -/
theorem session_after (h : p.Sound) (event : Event) (name : String) :
    ((p.after event).tasks.get? name).map (·.session)
      = p.numberAfter name ((p.tasks.get? name).map (·.session)) event := by
  cases event with
  | enable n =>
      show ((p.enable n).tasks.get? name).map _ = if name = n ∧ p.isEnabled n = false then _ else _
      cases hp : p.isEnabled n with
      | true => rw [enable_of_enabled hp, if_neg (by simp)]
      | false =>
          rw [get?_tasks_enable hp]
          by_cases ho : name = n
          · rw [if_pos ho, if_pos ⟨ho, rfl⟩]
            rfl
          · rw [if_neg ho, if_neg fun hboth => ho hboth.1]
  | disable n =>
      show ((p.disable n).tasks.get? name).map _ = if name = n then none else _
      rw [get?_tasks_disable]
      by_cases ho : name = n
      · rw [if_pos ho, if_pos ho]
        rfl
      · rw [if_neg ho, if_neg ho]
  | disableAll =>
      show (p.disableAll.tasks.get? name).map _ = none
      rw [disableAll_tasks]
      rfl
  | activity a => exact session_act h a name

/-- A task keeps its session until its stream is enabled anew. -/
theorem session_run (h : p.Sound) (events : List Event) (name : String) :
    ((p.run events).tasks.get? name).map (·.session)
      = presentEnable name p ((p.tasks.get? name).map (·.session)) events := by
  induction events generalizing p with
  | nil => rfl
  | cons event later ih =>
      show (((p.after event).run later).tasks.get? name).map _
        = presentEnable name (p.after event) (p.numberAfter name _ event) later
      rw [ih (h.after event), session_after h]

-- ========================================================= what feeds hear

/-- The present task of a stream has a fetch in flight, and the event is
the end of it. -/
def EndsFetch (p : Poller) (name : String) (event : Event) : Prop :=
  ∃ t now signal, p.tasks.get? name = some t ∧ t.isFetching = true
    ∧ event = .activity (.signal name now signal) ∧ signal.endsFetch = true

private theorem feed_set_of_ne (ho : other ≠ name) {tasks : ByName Task} {f : Feed}
    {stopped : List (String × Task)} :
    feed ⟨p.settings, tasks, p.feeds.set name f, stopped⟩ other = p.feed other :=
  feed_congr (ByName.get?_set_of_ne ho _ _)

/-- Enabling begins a session of one stream at most. -/
theorem feed_enable (p : Poller) (name other : String) :
    (p.enable name).feed other = p.feed other
      ∨ (other = name ∧ (p.enable name).feed other = (p.feed other).begin) := by
  cases hp : p.isEnabled name with
  | true =>
      rw [enable_of_enabled hp]
      exact Or.inl rfl
  | false =>
      by_cases ho : other = name
      · refine Or.inr ⟨ho, ?_⟩
        rw [feed, get?_feeds_enable hp, if_pos ho, ho]
        rfl
      · exact Or.inl (feed_congr ((get?_feeds_enable hp other).trans (if_neg ho)))

/-- A signal reaches the feed of a stream only as the end of a fetch of the
present task. -/
theorem feed_step? {now : Nat} {signal : Signal} (other : String)
    (hstep : p.step? now name signal = some p') :
    p'.feed other = p.feed other
      ∨ p.EndsFetch other (.activity (.signal name now signal)) := by
  obtain ⟨t, t', f', ht, htask, rfl⟩ := step?_inv hstep
  by_cases ho : other = name
  · subst ho
    rcases Task.step?_feed htask with hsame | ⟨hfetching, hends⟩
    · refine Or.inl ?_
      rw [feed, ByName.get?_set_self, hsame]
      rfl
    · exact Or.inr ⟨t, now, signal, ht, hfetching, rfl, hends⟩
  · exact Or.inl (feed_set_of_ne ho)

/-- A feed changes where its stream is disabled or a fetch of its present
task ends. That a session begins is no change of what it shows. -/
theorem shown_after (h : p.Sound) (event : Event) (name : String) :
    ((p.after event).feed name).shown = (p.feed name).shown
      ∨ event.disables name = true ∨ p.EndsFetch name event := by
  cases event with
  | enable n =>
      refine Or.inl ?_
      show ((p.enable n).feed name).shown = _
      rcases feed_enable p n name with hsame | ⟨-, hbegins⟩
      · rw [hsame]
      · rw [hbegins, Feed.shown_begin]
  | disable n =>
      by_cases ho : name = n
      · exact Or.inr (Or.inl (by simp [Event.disables, ho]))
      · refine Or.inl (congrArg Feed.shown (feed_congr ?_))
        exact (get?_feeds_disable p n name).trans (if_neg ho)
  | disableAll => exact Or.inr (Or.inl rfl)
  | activity a =>
      cases a with
      | signal n now signal =>
          show ((p.act (.signal n now signal)).feed name).shown = _ ∨ _
          unfold act
          dsimp only
          cases hstep : p.step? now n signal with
          | none => exact Or.inl rfl
          | some p' =>
              rcases feed_step? name hstep with hsame | hends
              · exact Or.inl (congrArg Feed.shown hsame)
              · exact Or.inr (Or.inr hends)
      -- what arrives late is for a session that is over, and the feed refuses it
      | late now i outcome =>
          refine Or.inl ?_
          show ((p.act (.late now i outcome)).feed name).shown = _
          unfold act
          dsimp only
          cases hlate : p.arriveLate? now i outcome with
          | none => rfl
          | some p' =>
              rw [arriveLate?_inv h hlate]
              rfl

/-- What arrives late changes neither tasks nor feeds. -/
theorem late_refused (h : p.Sound) (now i : Nat) (outcome : Except String (List Detection)) :
    (p.act (.late now i outcome)).tasks = p.tasks
      ∧ (p.act (.late now i outcome)).feeds = p.feeds := by
  unfold act
  dsimp only
  cases hlate : p.arriveLate? now i outcome with
  | none => exact ⟨rfl, rfl⟩
  | some p' =>
      rw [arriveLate?_inv h hlate]
      exact ⟨rfl, rfl⟩

-- ====================================================== fetches in flight

/-- The tasks of a stream, running or stopped, that were started in a session
and have a fetch in flight. -/
def fetching (p : Poller) (name : String) (session : Nat) : List Task :=
  ((p.tasks.get? name).toList
      ++ p.stopped.filterMap fun (n, t) => if n = name then some t else none)
    |>.filter fun t => t.session = session ∧ t.isFetching

/-- A stopped task is in no session that is still in force, so of a session
in force there is the present task and no other. -/
private theorem length_fetching (h : p.SoundAt name) :
    (p.fetching name (p.feed name).session).length ≤ 1 := by
  have hstopped : (p.stopped.filterMap fun (n, t) => if n = name then some t else none).filter
      (fun t => t.session = (p.feed name).session ∧ t.isFetching) = [] := by
    rw [List.filter_eq_nil_iff]
    intro t hmem
    obtain ⟨⟨n, t'⟩, hstopped, ht⟩ := List.mem_filterMap.1 hmem
    simp only [Option.ite_none_right_eq_some, Option.some.injEq] at ht
    obtain ⟨rfl, rfl⟩ := ht
    have hpast := h.past t' hstopped
    simp only [decide_eq_true_eq, not_and]
    omega
  unfold fetching
  rw [List.filter_append, hstopped, List.append_nil]
  refine Nat.le_trans (List.length_filter_le _ _) ?_
  cases p.tasks.get? name with
  | none => exact Nat.zero_le 1
  | some t => exact Nat.le_refl 1

-- =============================================================== the law

/-- Polling tasks and what the feeds show. -/
structure KeepsApart (p : Poller) : Prop where
  /-- What a feed shows changes at the end of a fetch of the present task,
  and when the stream is disabled. -/
  changes : ∀ event name, ((p.after event).feed name).shown ≠ (p.feed name).shown →
    event.disables name = true ∨ p.EndsFetch name event
  /-- The present task of a stream is in the session of its feed. -/
  present : ∀ name t, p.tasks.get? name = some t → t.session = (p.feed name).session
  /-- A task that was stopped is in a session that is over. -/
  past : ∀ name t, (name, t) ∈ p.stopped → t.session < (p.feed name).session
  /-- What a stopped task brings is lost. -/
  late : ∀ now i outcome, (p.after (.activity (.late now i outcome))).tasks = p.tasks
    ∧ (p.after (.activity (.late now i outcome))).feeds = p.feeds
  /-- A stream that is polled is not polled a second time. -/
  again : ∀ name, p.isEnabled name = true → p.after (.enable name) = p
  oneFetch : ∀ name, (p.fetching name (p.feed name).session).length ≤ 1
  blank : ∀ name, p.hasTask name = false → (p.feed name).Blank

/-- A sound poller keeps its streams apart. -/
private theorem Sound.keepsApart (h : p.Sound) : p.KeepsApart where
  changes event name hchange := (shown_after h event name).resolve_left hchange
  present name t ht := ((h name).current t ht).2
  past name t hmem := (h name).past t hmem
  late now i outcome := late_refused h now i outcome
  again _ henabled := enable_of_enabled henabled
  oneFetch name := length_fetching (h name)
  blank name hidle := (h name).blank hidle

/-- Whatever is enabled, disabled, fetched, failed and timed out, and in
whatever order: sessions of polling stay apart; the streams that have a task
are those that were enabled and not disabled since, each that of its present
enable; it runs unless it has crashed, which takes an interval whose double is
no duration; and a feed tells the outcomes of sessions apart by their
numbers. -/
theorem sessions_stay_apart (settings : Settings) (events : List Event) (deeds : List Feed.Deed) :
    (({ settings } : Poller).run events).KeepsApart
      ∧ (∀ name, (({ settings } : Poller).run events).hasTask name = asked name events
          ∧ ((({ settings } : Poller).run events).isEnabled name = true
            ↔ asked name events = true
              ∧ (({ settings } : Poller).run events).hasCrashed name = false)
          ∧ ((({ settings } : Poller).run events).hasCrashed name = true →
            ¬ Clock.IsDuration (settings.longest * 2))
          ∧ ((({ settings } : Poller).run events).tasks.get? name).map (·.session)
              = presentEnable name { settings } none events)
      ∧ (Feed.Ledger.run deeds).Discerns := by
  have hnew := sound_new settings
  have hsound := hnew.run events
  have hpaced := (paced_new settings).run events
  refine ⟨hsound.keepsApart, fun name => ?_, Feed.Ledger.discerns_run deeds⟩
  have htask : (({ settings } : Poller).run events).hasTask name = asked name events :=
    hasTask_run hnew events name
  refine ⟨htask, ?_, hpaced.late, session_run hnew events name⟩
  rw [← htask]
  exact (hsound name).isEnabled_iff

end Poller

end VideoWall.Polling
