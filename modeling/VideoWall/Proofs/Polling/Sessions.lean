/-
The polling tasks and the sessions of their feeds.

# The invariant

A feed takes outcomes for one session at a time. `Poller.SoundAt` ties
tasks to sessions:

- the task of a stream is in the session that its feed is in, so the feed
  takes what it brings, and it never ends by itself, though it may crash;
- a stopped task is in a session before that, so what it brings late is
  refused;
- the feed of a stream without a task is blank.

Every operation and every activity keeps this (`Poller.Sound.act` and its
neighbours), so that a stream has a task just when it was enabled and not
disabled since, and the task runs unless it has crashed.
-/
import VideoWall.Polling.Poller

namespace VideoWall.Polling

open Recorder

-- =============================================================== feeds

namespace Feed

variable {f : Feed} {session : Nat}

/-- Nothing is shown and nothing has failed. -/
structure Blank (f : Feed) : Prop where
  detections : f.detections = []
  errors : f.errors = 0
  lastError : f.lastError = none

/-- A new feed is blank. -/
theorem blank_new : ({} : Feed).Blank := ⟨rfl, rfl, rfl⟩

/-- The end of a session leaves nothing of it. -/
private theorem blank_finish (f : Feed) : f.finish.Blank := by
  unfold finish
  dsimp only
  split
  case isTrue he => exact ⟨List.isEmpty_iff.1 he, rfl, rfl⟩
  case isFalse => exact ⟨rfl, rfl, rfl⟩

/-- A session that is finished does not come back. -/
@[simp]
theorem session_finish (f : Feed) : f.finish.session = f.session + 1 := by
  unfold finish
  dsimp only
  split
  · rfl
  · rfl

/-- An outcome for another session changes nothing. -/
theorem apply_of_ne (h : f.session ≠ session) (outcome : Except String (List Detection))
    (errors : Nat) : f.apply session outcome errors = (f, false) := by
  unfold apply
  rw [if_neg (by simpa [accepts] using h)]

/-- An outcome for the present session is taken, and the session goes on. -/
theorem apply_of_eq (h : f.session = session) (outcome : Except String (List Detection))
    (errors : Nat) :
    (f.apply session outcome errors).2 = true
      ∧ (f.apply session outcome errors).1.session = session := by
  unfold apply
  rw [if_pos (by simpa [accepts] using h)]
  cases outcome with
  | ok detections => exact ⟨rfl, h⟩
  | error message => exact ⟨rfl, h⟩

end Feed

-- =============================================================== tasks

namespace Task

variable {cfg : Settings} {now : Nat} {signal : Signal} {t t' : Task} {f f' : Feed}
variable {outcome : Except String (List Detection)}

/-- A task that cannot work out its next interval crashes, and its feed hears
nothing. -/
theorem deliver_of_none (h : t.backoff.after? cfg outcome = none) :
    t.deliver cfg now outcome f = ({ t with point := .crashed }, f) := by
  unfold deliver
  rw [h]

/-- A task in another session than its feed brings nothing. -/
private theorem deliver_of_ne (h : f.session ≠ t.session) :
    (t.deliver cfg now outcome f).2 = f := by
  unfold deliver
  split
  · rfl
  · rw [Feed.apply_of_ne h]

/-- A task in the session of its feed delivers an outcome and waits, if it can
work out its next interval. -/
theorem deliver_of_some {backoff : Backoff} (cfg : Settings) (now : Nat)
    (outcome : Except String (List Detection)) (h : t.session = f.session)
    (hbackoff : t.backoff.after? cfg outcome = some backoff) :
    t.deliver cfg now outcome f
      = ({ t with backoff, point := .waiting (now + backoff.interval) },
          (f.apply t.session outcome backoff.errors).1) := by
  have htaken := (Feed.apply_of_eq h.symm outcome backoff.errors).1
  unfold deliver
  rw [hbackoff]
  dsimp only
  cases happly : f.apply t.session outcome backoff.errors with
  | mk g taken =>
      rw [happly] at htaken
      dsimp only at htaken
      rw [htaken]

/-- A task in the session of its feed stays there, and does not end. -/
private theorem deliver_of_eq (cfg : Settings) (now : Nat)
    (outcome : Except String (List Detection)) (h : t.session = f.session) :
    (t.deliver cfg now outcome f).1.point ≠ .over
      ∧ (t.deliver cfg now outcome f).1.session = t.session
      ∧ (t.deliver cfg now outcome f).2.session = f.session := by
  cases hbackoff : t.backoff.after? cfg outcome with
  | none =>
      rw [deliver_of_none hbackoff]
      exact ⟨by simp, rfl, rfl⟩
  | some backoff =>
      rw [deliver_of_some cfg now outcome h hbackoff]
      exact ⟨by simp, rfl, (Feed.apply_of_eq h.symm outcome _).2.trans h⟩

/-- Whatever a task does in the session of its feed, it stays there and does
not end. -/
theorem step?_keeps (h : t.session = f.session) (hstep : t.step? cfg now signal f = some (t', f')) :
    t'.point ≠ .over ∧ t'.session = f'.session ∧ f'.session = f.session := by
  obtain ⟨session, backoff, point⟩ := t
  cases point with
  | fresh =>
      cases signal with
      | begins =>
          cases hstep
          exact ⟨by simp, h, rfl⟩
      | _ => cases hstep
  | asking since =>
      cases signal with
      | answered outcome =>
          injection hstep with hpair
          obtain ⟨hpoint, htask, hfeed⟩ :=
            deliver_of_eq (t := ⟨session, backoff, .asking since⟩) cfg now outcome h
          rw [hpair] at hpoint htask hfeed
          exact ⟨hpoint, (htask.trans h).trans hfeed.symm, hfeed⟩
      | timedOut =>
          simp only [step?, Option.ite_none_right_eq_some, Option.some.injEq] at hstep
          obtain ⟨-, hpair⟩ := hstep
          obtain ⟨hpoint, htask, hfeed⟩ :=
            deliver_of_eq (t := ⟨session, backoff, .asking since⟩) cfg now
              (.error (timeoutMessage cfg)) h
          rw [hpair] at hpoint htask hfeed
          exact ⟨hpoint, (htask.trans h).trans hfeed.symm, hfeed⟩
      | _ => cases hstep
  | waiting due =>
      cases signal with
      | intervalOver =>
          simp only [step?, Option.ite_none_right_eq_some, Option.some.injEq, Prod.mk.injEq]
            at hstep
          obtain ⟨-, rfl, rfl⟩ := hstep
          exact ⟨by simp, h, rfl⟩
      | _ => cases hstep
  | «over» | crashed => cases signal <;> cases hstep

end Task

-- ============================================================== poller

/-- What tasks do by themselves. -/
inductive Activity where
  | signal (name : String) (now : Nat) (signal : Signal)
  | late (now : Nat) (i : Nat) (outcome : Except String (List Detection))

namespace Poller

variable {p : Poller} {name other : String}

/-- An activity; one that cannot happen leaves everything as it is. -/
def act (p : Poller) : Activity → Poller
  | .signal name now signal => (p.step? now name signal).getD p
  | .late now i outcome => (p.arriveLate? now i outcome).getD p

/-- Tasks and feed of a stream are in step. -/
structure SoundAt (p : Poller) (name : String) : Prop where
  housed : (p.tasks.get? name).isSome = true → (p.feeds.get? name).isSome = true
  current : ∀ t, p.tasks.get? name = some t →
    t.point ≠ .over ∧ t.session = (p.feed name).session
  past : ∀ t, (name, t) ∈ p.stopped → t.session < (p.feed name).session
  idle : p.tasks.get? name = none → (p.feed name).Blank

/-- Tasks and feeds are in step. -/
def Sound (p : Poller) : Prop := ∀ name, p.SoundAt name

/-- A new poller is sound. -/
theorem sound_new (settings : Settings) : ({ settings } : Poller).Sound := by
  intro name
  refine ⟨?_, ?_, ?_, fun _ => Feed.blank_new⟩
  · intro hs
    cases hs
  · intro t ht
    cases ht
  · intro t hmem
    cases hmem

/-- A feed depends on its own stream alone. -/
theorem feed_congr {p' : Poller} (h : p'.feeds.get? name = p.feeds.get? name) :
    p'.feed name = p.feed name := by
  unfold feed
  rw [h]

/-- What is in step stays so while its own entries stay. -/
theorem SoundAt.congr {p' : Poller} (h : p.SoundAt name)
    (htask : p'.tasks.get? name = p.tasks.get? name)
    (hfeed : p'.feeds.get? name = p.feeds.get? name)
    (hstopped : ∀ t, (name, t) ∈ p'.stopped → (name, t) ∈ p.stopped) : p'.SoundAt name := by
  have hf := feed_congr hfeed
  refine ⟨?_, ?_, ?_, ?_⟩
  · rw [htask, hfeed]
    exact h.housed
  · rw [htask, hf]
    exact h.current
  · intro t hmem
    rw [hf]
    exact h.past t (hstopped t hmem)
  · rw [htask, hf]
    exact h.idle

/-- Whether a stream has a task, be it that it has crashed. -/
def hasTask (p : Poller) (name : String) : Bool := (p.tasks.get? name).isSome

/-- Whether the task of a stream has crashed. -/
def hasCrashed (p : Poller) (name : String) : Bool :=
  (p.tasks.get? name).any fun t => t.point = .crashed

/-- Among tasks in step none has ended, so they run unless they have crashed. -/
theorem SoundAt.isEnabled_iff (h : p.SoundAt name) :
    p.isEnabled name = true ↔ p.hasTask name = true ∧ p.hasCrashed name = false := by
  unfold isEnabled hasTask hasCrashed
  cases ht : p.tasks.get? name with
  | none => simp
  | some t => simp [Task.isRunning, (h.current t ht).1]

/-- An enabled stream has a task. -/
theorem hasTask_of_isEnabled (h : p.isEnabled name = true) : p.hasTask name = true := by
  unfold isEnabled at h
  unfold hasTask
  cases ht : p.tasks.get? name with
  | none =>
      rw [ht] at h
      cases h
  | some t => rfl

/-- A crashed stream has a task. -/
theorem hasTask_of_hasCrashed (h : p.hasCrashed name = true) : p.hasTask name = true := by
  unfold hasCrashed at h
  unfold hasTask
  cases ht : p.tasks.get? name with
  | none =>
      rw [ht] at h
      cases h
  | some t => rfl

/-- A stream without a task shows nothing. -/
theorem SoundAt.blank (h : p.SoundAt name) (hidle : p.hasTask name = false) :
    (p.feed name).Blank := h.idle (by simpa [hasTask] using hidle)

-- ========================================================== operations

/-- What is enabled is not enabled again. -/
theorem enable_of_enabled (h : p.isEnabled name = true) : p.enable name = p := by
  unfold enable
  rw [if_pos h]

theorem enable_of_idle (h : p.isEnabled name = false) :
    p.enable name
      = { p with
          feeds := p.feeds.set name (p.feed name).begin
          tasks := p.tasks.set name ⟨(p.feed name).begin.session, .fresh p.settings, .fresh⟩ } := by
  unfold enable
  rw [if_neg (by rw [h]; decide)]

/-- Enabling starts one task. -/
theorem get?_tasks_enable {name : String} (h : p.isEnabled name = false) (other : String) :
    (p.enable name).tasks.get? other
      = if other = name then some ⟨(p.feed name).begin.session, .fresh p.settings, .fresh⟩
        else p.tasks.get? other := by
  rw [enable_of_idle h]
  exact ByName.get?_set _ _ _ _

/-- Enabling begins one session. -/
theorem get?_feeds_enable {name : String} (h : p.isEnabled name = false) (other : String) :
    (p.enable name).feeds.get? other
      = if other = name then some (p.feed name).begin else p.feeds.get? other := by
  rw [enable_of_idle h]
  exact ByName.get?_set _ _ _ _

/-- Enabling a stream makes it one that is polled, and no other. -/
theorem isEnabled_enable (p : Poller) (name other : String) :
    (p.enable name).isEnabled other = true ↔ other = name ∨ p.isEnabled other = true := by
  cases hp : p.isEnabled name with
  | true =>
      rw [enable_of_enabled hp]
      refine ⟨Or.inr, ?_⟩
      rintro (rfl | h)
      · exact hp
      · exact h
  | false =>
      unfold isEnabled
      rw [get?_tasks_enable hp]
      by_cases ho : other = name
      · simp [ho, Task.isRunning]
      · simp [ho]

/-- A stream that is enabled has a task from then on. -/
theorem hasTask_enable (p : Poller) (name other : String) :
    (p.enable name).hasTask other = true ↔ other = name ∨ p.hasTask other = true := by
  cases hp : p.isEnabled name with
  | true =>
      rw [enable_of_enabled hp]
      refine ⟨Or.inr, ?_⟩
      rintro (rfl | h)
      · exact hasTask_of_isEnabled hp
      · exact h
  | false =>
      unfold hasTask
      rw [get?_tasks_enable hp]
      by_cases ho : other = name
      · simp [ho]
      · simp [ho]

/-- It takes the place of one that has crashed. -/
theorem hasCrashed_enable (p : Poller) (name other : String) :
    (p.enable name).hasCrashed other = true ↔ other ≠ name ∧ p.hasCrashed other = true := by
  cases hp : p.isEnabled name with
  | true =>
      rw [enable_of_enabled hp]
      refine ⟨fun h => ⟨?_, h⟩, And.right⟩
      rintro rfl
      unfold isEnabled at hp
      unfold hasCrashed at h
      cases ht : p.tasks.get? other with
      | none => simp [ht] at h
      | some t => simp_all [Task.isRunning]
  | false =>
      unfold hasCrashed
      rw [get?_tasks_enable hp]
      by_cases ho : other = name
      · simp [ho]
      · simp [ho]

/-- Enabling keeps a poller sound. -/
theorem sound_enable (h : p.Sound) (name : String) : (p.enable name).Sound := by
  cases hp : p.isEnabled name with
  | true =>
      rw [enable_of_enabled hp]
      exact h
  | false =>
      have hstopped : (p.enable name).stopped = p.stopped := by
        rw [enable_of_idle hp]
      intro other
      by_cases ho : other = name
      · rw [ho]
        have hfeed : (p.enable name).feed name = (p.feed name).begin := by
          rw [feed, get?_feeds_enable hp, if_pos rfl]
          rfl
        refine ⟨fun _ => ?_, ?_, ?_, ?_⟩
        · rw [get?_feeds_enable hp, if_pos rfl]
          rfl
        · rw [get?_tasks_enable hp, if_pos rfl, hfeed]
          intro t ht
          cases ht
          exact ⟨by simp, rfl⟩
        · rw [hstopped, hfeed]
          intro t hmem
          exact Nat.lt_succ_of_lt ((h name).past t hmem)
        · rw [get?_tasks_enable hp, if_pos rfl]
          intro hnone
          cases hnone
      · refine (h other).congr ?_ ?_ ?_
        · rw [get?_tasks_enable hp, if_neg ho]
        · rw [get?_feeds_enable hp, if_neg ho]
        · rw [hstopped]
          exact fun _ hmem => hmem

theorem sound_enables (names : List String) (h : p.Sound) : (names.foldl enable p).Sound := by
  induction names generalizing p with
  | nil => exact h
  | cons name rest ih => exact ih (sound_enable h name)

/-- The streams named are enabled and no others. -/
theorem isEnabled_enables (names : List String) (p : Poller) (other : String) :
    (names.foldl enable p).isEnabled other = true
      ↔ other ∈ names ∨ p.isEnabled other = true := by
  induction names generalizing p with
  | nil => simp
  | cons name rest ih =>
      rw [List.foldl_cons, ih, isEnabled_enable, List.mem_cons, or_assoc, or_left_comm]

/-- Enabling a stream leaves no crash of it. -/
theorem hasCrashed_enables (names : List String) (p : Poller) (other : String) :
    (names.foldl enable p).hasCrashed other = true
      ↔ other ∉ names ∧ p.hasCrashed other = true := by
  induction names generalizing p with
  | nil => simp
  | cons name rest ih =>
      rw [List.foldl_cons, ih, hasCrashed_enable, List.mem_cons, not_or, and_assoc, and_left_comm]

/-- Disabling finishes one session. -/
theorem get?_feeds_disable (p : Poller) (name other : String) :
    (p.disable name).feeds.get? other
      = if other = name then (p.feeds.get? name).map Feed.finish else p.feeds.get? other :=
  ByName.get?_modify p.feeds name other Feed.finish

/-- Disabling removes one task. -/
theorem get?_tasks_disable (p : Poller) (name other : String) :
    (p.disable name).tasks.get? other = if other = name then none else p.tasks.get? other :=
  ByName.get?_erase p.tasks name other

/-- What a disable stops is the task of the stream, if there is one. -/
theorem mem_stopped_disable {name other : String} {t : Task}
    (h : (other, t) ∈ (p.disable name).stopped) :
    (other, t) ∈ p.stopped ∨ (other = name ∧ p.tasks.get? name = some t) := by
  rcases List.mem_append.1 h with hold | hnew
  · exact Or.inl hold
  · rw [Option.mem_toList, Option.map_eq_some_iff] at hnew
    obtain ⟨t', ht', heq⟩ := hnew
    cases heq
    exact Or.inr ⟨rfl, ht'⟩

/-- Disabling a stream makes it one that is not polled. -/
theorem isEnabled_disable (p : Poller) (name other : String) :
    (p.disable name).isEnabled other = true ↔ other ≠ name ∧ p.isEnabled other = true := by
  unfold isEnabled
  rw [get?_tasks_disable]
  by_cases ho : other = name
  · simp [ho]
  · simp [ho]

/-- A task that a disable stops, or that was stopped before, is of a session
that the feed has seen: a task has a feed. -/
private theorem past_disable (h : p.Sound) {name : String} {t : Task}
    (hmem : (name, t) ∈ (p.disable name).stopped) :
    t.session < ((p.disable name).feed name).session := by
  have hfeeds := (get?_feeds_disable p name name).trans (if_pos rfl)
  have hle : t.session ≤ (p.feed name).session := by
    rcases mem_stopped_disable hmem with hold | ⟨-, ht⟩
    · exact Nat.le_of_lt ((h name).past t hold)
    · exact Nat.le_of_eq ((h name).current t ht).2
  cases hf : p.feeds.get? name with
  | some f =>
      rw [feed, hf] at hle
      rw [feed, hfeeds, hf]
      show t.session < f.finish.session
      rw [Feed.session_finish]
      exact Nat.lt_succ_of_le hle
  | none =>
      rcases mem_stopped_disable hmem with hold | ⟨-, ht⟩
      · have hpast := (h name).past t hold
        rw [feed, hf] at hpast
        exact absurd hpast (Nat.not_lt_zero _)
      · have hhoused := (h name).housed (by rw [ht]; rfl)
        rw [hf] at hhoused
        cases hhoused

/-- Disabling keeps a poller sound. -/
theorem sound_disable (h : p.Sound) (name : String) : (p.disable name).Sound := by
  intro other
  by_cases ho : other = name
  · rw [ho]
    have htask := (get?_tasks_disable p name name).trans (if_pos rfl)
    refine ⟨?_, ?_, fun t hmem => past_disable h hmem, fun _ => ?_⟩
    · rw [htask]
      intro hs
      cases hs
    · rw [htask]
      intro t ht
      cases ht
    · rw [feed, (get?_feeds_disable p name name).trans (if_pos rfl)]
      cases p.feeds.get? name with
      | none => exact Feed.blank_new
      | some f => exact Feed.blank_finish f
  · refine (h other).congr ?_ ?_ ?_
    · rw [get?_tasks_disable, if_neg ho]
    · rw [get?_feeds_disable, if_neg ho]
    · intro t hmem
      rcases mem_stopped_disable hmem with hold | ⟨heq, -⟩
      · exact hold
      · exact absurd heq ho

theorem sound_disables (names : List String) (h : p.Sound) : (names.foldl disable p).Sound := by
  induction names generalizing p with
  | nil => exact h
  | cons name rest ih => exact ih (sound_disable h name)

/-- The streams named are disabled and no others. -/
theorem isEnabled_disables (names : List String) (p : Poller) (other : String) :
    (names.foldl disable p).isEnabled other = true
      ↔ other ∉ names ∧ p.isEnabled other = true := by
  induction names generalizing p with
  | nil => simp
  | cons name rest ih =>
      rw [List.foldl_cons, ih, isEnabled_disable, List.mem_cons, not_or, and_assoc, and_left_comm]

/-- Streams that are disabled have no task any more. -/
theorem get?_tasks_disables (names : List String) (p : Poller) (other : String) :
    (names.foldl disable p).tasks.get? other
      = if other ∈ names then none else p.tasks.get? other := by
  induction names generalizing p with
  | nil => simp
  | cons name rest ih =>
      rw [List.foldl_cons, ih, get?_tasks_disable]
      by_cases ho : other = name
      · simp [ho]
      · simp [ho]

/-- Disabling a stream leaves no crash of it. -/
theorem hasCrashed_disables (names : List String) (p : Poller) (other : String) :
    (names.foldl disable p).hasCrashed other = true
      ↔ other ∉ names ∧ p.hasCrashed other = true := by
  unfold hasCrashed
  rw [get?_tasks_disables]
  by_cases ho : other ∈ names
  · simp [ho]
  · simp [ho]

/-- The streams listed are those with a task. -/
theorem mem_enabledStreams : name ∈ p.enabledStreams ↔ p.hasTask name = true := by
  unfold enabledStreams hasTask
  rw [List.mem_mergeSort, ByName.mem_names]

/-- When everything is disabled no task is left. -/
theorem disableAll_tasks (p : Poller) (name : String) : p.disableAll.tasks.get? name = none := by
  unfold disableAll
  rw [get?_tasks_disables]
  split
  case isTrue => rfl
  case isFalse hnot => simpa [ByName.mem_names] using hnot

-- =========================================================== agreement

/-- Two pollers hold the same for a stream. -/
structure Agrees (p p' : Poller) (name : String) : Prop where
  task : p'.tasks.get? name = p.tasks.get? name
  feed : p'.feeds.get? name = p.feeds.get? name

theorem Agrees.refl (p : Poller) (name : String) : Agrees p p name := ⟨rfl, rfl⟩

theorem Agrees.trans {p₁ p₂ p₃ : Poller} (h : Agrees p₁ p₂ name) (h' : Agrees p₂ p₃ name) :
    Agrees p₁ p₃ name :=
  ⟨h'.task.trans h.task, h'.feed.trans h.feed⟩

/-- Pollers that agree on a stream have it enabled alike. -/
theorem Agrees.isEnabled {p' : Poller} (h : Agrees p p' name) :
    p'.isEnabled name = p.isEnabled name := by
  unfold Poller.isEnabled
  rw [h.task]

/-- Disabling leaves other streams alone. -/
theorem agrees_disable (ho : other ≠ name) : Agrees p (p.disable name) other := by
  refine ⟨?_, ?_⟩
  · rw [get?_tasks_disable, if_neg ho]
  · rw [get?_feeds_disable, if_neg ho]

/-- Enabling leaves other streams and an enabled one alone. -/
theorem agrees_enable (h : other ≠ name ∨ p.isEnabled other = true) :
    Agrees p (p.enable name) other := by
  cases hp : p.isEnabled name with
  | true =>
      rw [enable_of_enabled hp]
      exact .refl p other
  | false =>
      have ho : other ≠ name := by
        rintro rfl
        rcases h with hne | henabled
        · exact hne rfl
        · rw [hp] at henabled
          cases henabled
      refine ⟨?_, ?_⟩
      · rw [get?_tasks_enable hp, if_neg ho]
      · rw [get?_feeds_enable hp, if_neg ho]

theorem agrees_disables {names : List String} (hname : name ∉ names) (p : Poller) :
    Agrees p (names.foldl disable p) name := by
  induction names generalizing p with
  | nil => exact .refl p name
  | cons first rest ih =>
      rw [List.mem_cons, not_or] at hname
      exact (agrees_disable hname.1).trans (ih hname.2 (p.disable first))

/-- Enabling does nothing to the streams that are polled already. -/
theorem agrees_enables {names : List String} (h : name ∉ names ∨ p.isEnabled name = true) :
    Agrees p (names.foldl enable p) name := by
  induction names generalizing p with
  | nil => exact .refl p name
  | cons first rest ih =>
      have hfirst : Agrees p (p.enable first) name := by
        refine agrees_enable (h.imp_left fun hnot heq => hnot ?_)
        rw [heq]
        exact List.mem_cons_self
      refine hfirst.trans (ih ?_)
      rw [hfirst.isEnabled]
      exact h.imp_left fun hnot hmem => hnot (List.mem_cons_of_mem first hmem)

/-- Enabling what is enabled changes nothing. -/
theorem enables_eq_self {names : List String} (h : ∀ name ∈ names, p.isEnabled name = true) :
    names.foldl enable p = p := by
  induction names with
  | nil => rfl
  | cons name rest ih =>
      rw [List.foldl_cons, enable_of_enabled (h name List.mem_cons_self)]
      exact ih fun other hother => h other (List.mem_cons_of_mem name hother)

-- ========================================================== activities

variable {now i : Nat} {signal : Signal} {p' : Poller}

/-- A signal to a stream is a step of its task on its feed. -/
theorem step?_inv {now : Nat} {signal : Signal} (hstep : p.step? now name signal = some p') :
    ∃ t t' f', p.tasks.get? name = some t
      ∧ t.step? p.settings now signal (p.feed name) = some (t', f')
      ∧ p' = { p with tasks := p.tasks.set name t', feeds := p.feeds.set name f' } := by
  simp only [step?, Option.bind_eq_bind, Option.bind_eq_some_iff, Option.pure_def,
    Option.some.injEq] at hstep
  obtain ⟨t, ht, ⟨t', f'⟩, htask, rfl⟩ := hstep
  exact ⟨t, t', f', ht, htask, rfl⟩

/-- What tasks do by themselves: they stay in step with their feeds, none comes
or goes, and one that has crashed does nothing more. -/
structure Keeps (p p' : Poller) : Prop where
  sound : p'.Sound
  hasTask : ∀ name, p'.hasTask name = p.hasTask name
  crashed : ∀ name, p.hasCrashed name = true → p'.hasCrashed name = true

theorem Sound.keeps_refl (h : p.Sound) : p.Keeps p := ⟨h, fun _ => rfl, fun _ hcrashed => hcrashed⟩

/-- A signal to a task is a step in the session of its feed. -/
theorem keeps_step? (h : p.Sound) (hstep : p.step? now name signal = some p') : p.Keeps p' := by
  obtain ⟨t, t', f', ht, htask, rfl⟩ := step?_inv hstep
  obtain ⟨hover, hsession, hfeed⟩ := Task.step?_keeps ((h name).current t ht).2 htask
  have htasks : (p.tasks.set name t').get? name = some t' := ByName.get?_set_self _ _ _
  have hfeeds : (p.feeds.set name f').get? name = some f' := ByName.get?_set_self _ _ _
  have hsound : Sound { p with tasks := p.tasks.set name t', feeds := p.feeds.set name f' } := by
    intro other
    -- the step writes one task and one feed, those of its stream
    by_cases ho : other = name
    · rw [ho]
      refine ⟨fun _ => ?_, ?_, ?_, ?_⟩
      · rw [hfeeds]
        rfl
      · intro s hs
        rw [htasks] at hs
        cases hs
        rw [feed, hfeeds]
        exact ⟨hover, hsession⟩
      · intro s hmem
        rw [feed, hfeeds]
        show s.session < f'.session
        rw [hfeed]
        exact (h name).past s hmem
      · intro hnone
        rw [htasks] at hnone
        cases hnone
    · exact (h other).congr (ByName.get?_set_of_ne ho _ _) (ByName.get?_set_of_ne ho _ _)
        fun _ hmem => hmem
  refine ⟨hsound, fun other => ?_, fun other hcrashed => ?_⟩
  · unfold hasTask
    by_cases ho : other = name
    · rw [ho, htasks, ht]
      rfl
    · dsimp only
      rw [ByName.get?_set_of_ne ho]
  · unfold hasCrashed at hcrashed ⊢
    by_cases ho : other = name
    · -- a task that has crashed takes no step
      rw [ho, ht, Option.any_some, decide_eq_true_iff] at hcrashed
      unfold Task.step? at htask
      rw [hcrashed] at htask
      cases signal <;> cases htask
    · dsimp only
      rwa [ByName.get?_set_of_ne ho]

/-- What a stopped task brings is refused. -/
theorem arriveLate?_inv (h : p.Sound) {outcome : Except String (List Detection)}
    (hlate : p.arriveLate? now i outcome = some p') :
    p' = { p with stopped := p.stopped.eraseIdx i } := by
  unfold arriveLate? at hlate
  cases hi : p.stopped[i]? with
  | none =>
      rw [hi] at hlate
      cases hlate
  | some stopped =>
      obtain ⟨stream, t⟩ := stopped
      rw [hi] at hlate
      have hpast := (h stream).past t (List.mem_of_getElem? hi)
      have hrefused : t.deliver p.settings now outcome (p.feed stream)
          = ((t.deliver p.settings now outcome (p.feed stream)).1, p.feed stream) :=
        Prod.ext rfl (Task.deliver_of_ne (Nat.ne_of_gt hpast))
      have hfeeds : p.feeds.modify stream (fun _ => p.feed stream) = p.feeds := by
        refine ByName.modify_self fun f hf => ?_
        unfold feed
        rw [hf]
        rfl
      dsimp only at hlate
      rw [hrefused] at hlate
      injection hlate with heq
      rw [← heq, hfeeds]

/-- Whatever tasks do by themselves, they stay in step with their feeds, and
the same streams have one. -/
theorem Sound.act (h : p.Sound) (a : Activity) : p.Keeps (p.act a) := by
  cases a with
  | signal name now signal =>
      unfold Poller.act
      dsimp only
      cases hstep : p.step? now name signal with
      | none => exact h.keeps_refl
      | some p' => exact keeps_step? h hstep
  | late now i outcome =>
      unfold Poller.act
      dsimp only
      cases hlate : p.arriveLate? now i outcome with
      | none => exact h.keeps_refl
      | some p' =>
          rw [arriveLate?_inv h hlate]
          refine ⟨fun other => (h other).congr rfl rfl fun t hmem => ?_, fun _ => rfl,
            fun _ hcrashed => hcrashed⟩
          exact List.mem_of_mem_eraseIdx hmem

end Poller

end VideoWall.Polling
