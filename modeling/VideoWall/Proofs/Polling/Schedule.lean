/-
When a stream is asked for its detections, and what its feed shows then.

# The intervals

The interval is doubled step by step, with a counter that stops, and is set
back by a success. What that comes to is said at once: it depends only on
how many fetches have failed since the last success (`Backoff.run?_eq`). It
goes well as long as every interval that is doubled has a double that is a
duration (`Bearable`). Over any other the task crashes, and its feed does not
hear of that failure.

# The clock

Time does not pass what a task waits for: it runs at once when it is
started, and timers go off when they are due (`Point.InTime`). Nothing else
is assumed about the outside: which fetches are answered, with what, and
how long they take is open, as is what happens to other streams in the
meantime. That timers do not go off early is the task's own doing, so that
what it takes is due (`Due.of_step?`).

# The schedule

A fetch is recorded as it ends, and `nextStart` says when the next one is
to start. Whatever is due is taken, and after it the task waits for what
comes next and the feed shows the last outcome (`OnTime.step?`); what
happens elsewhere changes nothing (`Poller.OnSchedule.after`). So it is for
as long as the stream stays enabled and its failures can be borne
(`Poller.OnSchedule.run`).
-/
import Mathlib.Data.List.Induction
import VideoWall.Proofs.Polling.History

namespace VideoWall.Polling

open Recorder

-- ============================================================ intervals

/-- The failures in a row that outcomes end with. -/
def failuresIn {ε α : Type} (outcomes : List (Except ε α)) : Nat :=
  outcomes.foldl (fun failures outcome =>
    match outcome with
    | .ok _ => 0
    | .error _ => failures + 1) 0

/-- How long to wait after so many failures in a row. -/
def pauseAfter (cfg : Settings) (failures : Nat) : Nat :=
  if failures < cfg.errorThreshold then cfg.baseInterval
  else min (cfg.baseInterval * Nat.pow 2 (failures - cfg.errorThreshold + 1)) cfg.maxInterval

/-- A pause lies between the least and the most. -/
theorem pauseAfter_bounds {cfg : Settings} (h : cfg.baseInterval ≤ cfg.maxInterval)
    (failures : Nat) :
    cfg.baseInterval ≤ pauseAfter cfg failures ∧ pauseAfter cfg failures ≤ cfg.maxInterval := by
  unfold pauseAfter
  split
  · exact ⟨Nat.le_refl _, h⟩
  · have hgrown : cfg.baseInterval
        ≤ cfg.baseInterval * Nat.pow 2 (failures - cfg.errorThreshold + 1) :=
      Nat.le_mul_of_pos_right _ (Nat.two_pow_pos _)
    omega

/-- An error counts one more. -/
private theorem failuresIn_error {ε α : Type} (before : List (Except ε α)) (e : ε) :
    failuresIn (before ++ [.error e]) = failuresIn before + 1 := by
  simp [failuresIn]

/-- A success counts from the beginning. -/
private theorem failuresIn_ok {ε α : Type} (before : List (Except ε α)) (a : α) :
    failuresIn (before ++ [.ok a]) = 0 := by
  simp [failuresIn]

/-- Whether the pause after so many failures, with which another failure is
about to be followed, can be worked out. -/
def Doubles (cfg : Settings) (failures : Nat) : Prop :=
  cfg.errorThreshold ≤ failures + 1 → Clock.IsDuration (pauseAfter cfg failures * 2)

instance (cfg : Settings) (failures : Nat) : Decidable (Doubles cfg failures) :=
  inferInstanceAs (Decidable (_ → _))

/-- Outcomes that polling bears: wherever a failure doubles the interval, the
double is a duration. -/
def Bearable (cfg : Settings) {ε α : Type} (outcomes : List (Except ε α)) : Prop :=
  ∀ before e later, outcomes = before ++ .error e :: later → Doubles cfg (failuresIn before)

theorem bearable_nil (cfg : Settings) {ε α : Type} : Bearable cfg ([] : List (Except ε α)) := by
  intro before e later h
  simp at h

/-- What is borne to the end was borne before. -/
theorem Bearable.of_append {cfg : Settings} {ε α : Type} {outcomes more : List (Except ε α)}
    (h : Bearable cfg (outcomes ++ more)) : Bearable cfg outcomes := by
  rintro before e later rfl
  exact h before e (later ++ more) (by simp)

/-- One more error is borne when the interval can be doubled. -/
private theorem bearable_error {cfg : Settings} {ε α : Type} {outcomes : List (Except ε α)} {e : ε}
    : Bearable cfg (outcomes ++ [.error e])
      ↔ Bearable cfg outcomes ∧ Doubles cfg (failuresIn outcomes) := by
  refine ⟨fun h => ⟨h.of_append, h outcomes e [] rfl⟩, ?_⟩
  rintro ⟨hbefore, hlast⟩ before e' later heq
  rcases List.eq_nil_or_concat later with rfl | ⟨rest, last, rfl⟩
  · obtain ⟨rfl, -⟩ := List.append_inj' heq rfl
    exact hlast
  · rw [List.concat_eq_append, ← List.cons_append, ← List.append_assoc] at heq
    obtain ⟨rfl, -⟩ := List.append_inj' heq rfl
    exact hbefore before e' rest rfl

/-- A success is always borne. -/
private theorem bearable_ok {cfg : Settings} {ε α : Type} {outcomes : List (Except ε α)} {a : α} :
    Bearable cfg (outcomes ++ [.ok a]) ↔ Bearable cfg outcomes := by
  refine ⟨Bearable.of_append, ?_⟩
  intro hbefore before e later heq
  rcases List.eq_nil_or_concat later with rfl | ⟨rest, last, rfl⟩
  · obtain ⟨-, hlast⟩ := List.append_inj' heq rfl
    cases hlast
  · rw [List.concat_eq_append, ← List.cons_append, ← List.append_assoc] at heq
    obtain ⟨rfl, -⟩ := List.append_inj' heq rfl
    exact hbefore before e rest rfl

/-- Everything can be borne where the largest interval can be doubled. -/
private theorem bearable_of_isDuration {cfg : Settings} (h : cfg.baseInterval ≤ cfg.maxInterval)
    (hdouble : Clock.IsDuration (cfg.maxInterval * 2)) {ε α : Type}
    (outcomes : List (Except ε α)) : Bearable cfg outcomes :=
  fun before _ _ _ _ =>
    hdouble.of_le (Nat.mul_le_mul_right 2 (pauseAfter_bounds h (failuresIn before)).2)

namespace Backoff

variable {cfg : Settings}

/-- After some outcomes. -/
def run? (cfg : Settings) {ε α : Type} (outcomes : List (Except ε α)) : Option Backoff :=
  outcomes.foldlM (fun b outcome => b.after? cfg outcome) (fresh cfg)

/-- After so many failures in a row. -/
def afterFailures (cfg : Settings) (failures : Nat) : Backoff :=
  ⟨pauseAfter cfg failures, min failures maxErrors⟩

theorem afterFailures_zero (h : 1 ≤ cfg.errorThreshold) : afterFailures cfg 0 = fresh cfg := by
  have hpause : pauseAfter cfg 0 = cfg.baseInterval := if_pos h
  unfold afterFailures fresh
  rw [hpause]
  rfl

/-- The pause after one more failure, from the threshold on: it is doubled and
cut. -/
private theorem pauseAfter_succ {failures : Nat} (h : cfg.errorThreshold ≤ failures + 1) :
    pauseAfter cfg (failures + 1) = min (pauseAfter cfg failures * 2) cfg.maxInterval := by
  unfold pauseAfter
  rw [if_neg (by omega : ¬ failures + 1 < cfg.errorThreshold)]
  by_cases hreached : failures < cfg.errorThreshold
  · -- this failure is the one that reaches the threshold
    have hfirst : failures + 1 - cfg.errorThreshold + 1 = 1 := by omega
    rw [if_pos hreached, hfirst]
  · have hnext : failures + 1 - cfg.errorThreshold + 1
        = (failures - cfg.errorThreshold + 1) + 1 := by omega
    have hdouble : cfg.baseInterval * Nat.pow 2 (failures - cfg.errorThreshold + 1) * 2
        = cfg.baseInterval * Nat.pow 2 (failures - cfg.errorThreshold + 1 + 1) :=
      Nat.mul_assoc _ _ _
    rw [if_neg hreached, hnext, ← hdouble]
    omega

/-- One more failure. The counter stops after the threshold, so the interval
is doubled all the same. -/
private theorem failed?_afterFailures (h : cfg.errorThreshold ≤ maxErrors) (failures : Nat) :
    (afterFailures cfg failures).failed? cfg
      = if Doubles cfg failures then some (afterFailures cfg (failures + 1)) else none := by
  have herrors : min (min failures maxErrors + 1) maxErrors = min (failures + 1) maxErrors := by
    omega
  unfold failed? afterFailures
  dsimp only
  rw [herrors]
  by_cases hbelow : failures + 1 < cfg.errorThreshold
  · have hpause : pauseAfter cfg (failures + 1) = pauseAfter cfg failures := by
      unfold pauseAfter
      rw [if_pos hbelow, if_pos (by omega)]
    have hdoubles : Doubles cfg failures := fun hreached => absurd hbelow (Nat.not_lt.2 hreached)
    rw [if_pos (by omega), if_pos hdoubles, hpause]
  · have hreached : cfg.errorThreshold ≤ failures + 1 := by omega
    rw [if_neg (by omega), pauseAfter_succ hreached]
    have hdoubles : Doubles cfg failures ↔ Clock.IsDuration (pauseAfter cfg failures * 2) :=
      ⟨fun h => h hreached, fun h _ => h⟩
    by_cases hdouble : Clock.IsDuration (pauseAfter cfg failures * 2)
    · rw [if_pos hdouble, if_pos (hdoubles.2 hdouble)]
    · rw [if_neg hdouble, if_neg (hdoubles.not.2 hdouble)]

/-- A run goes on from where it stopped. -/
theorem run?_snoc {ε α : Type} (outcomes : List (Except ε α)) (outcome : Except ε α) :
    run? cfg (outcomes ++ [outcome]) = (run? cfg outcomes).bind fun b => b.after? cfg outcome := by
  unfold run?
  rw [List.foldlM_append]
  exact Option.bind_congr fun b _ => bind_pure _

/-- The interval and the counter depend only on the failures since the last
success. -/
theorem run?_eq (h : 1 ≤ cfg.errorThreshold) (h' : cfg.errorThreshold ≤ maxErrors) {ε α : Type}
    (outcomes : List (Except ε α)) :
    (Bearable cfg outcomes → run? cfg outcomes = some (afterFailures cfg (failuresIn outcomes)))
      ∧ (¬ Bearable cfg outcomes → run? cfg outcomes = none) := by
  induction outcomes using List.reverseRecOn with
  | nil => exact ⟨fun _ => congrArg some (afterFailures_zero h).symm,
      fun hnot => absurd (bearable_nil cfg) hnot⟩
  | append_singleton before outcome ih =>
      rw [run?_snoc]
      cases outcome with
      | ok a =>
          rw [bearable_ok, failuresIn_ok, afterFailures_zero h]
          refine ⟨fun hborne => ?_, fun hnot => ?_⟩
          · rw [ih.1 hborne]
            rfl
          · rw [ih.2 hnot]
            rfl
      | error e =>
          rw [bearable_error, failuresIn_error]
          refine ⟨fun ⟨hborne, hdoubles⟩ => ?_, fun hnot => ?_⟩
          · rw [ih.1 hborne, Option.bind_some, after?, failed?_afterFailures h', if_pos hdoubles]
          · by_cases hborne : Bearable cfg before
            · rw [ih.1 hborne, Option.bind_some, after?, failed?_afterFailures h',
                if_neg fun hdoubles => hnot ⟨hborne, hdoubles⟩]
            · rw [ih.2 hborne]
              rfl

/-- The failure that is reported is the one that reaches the threshold, and no
later one. -/
private theorem isAtThreshold_afterFailures (h' : cfg.errorThreshold < maxErrors) (failures : Nat) :
    (afterFailures cfg failures).isAtThreshold cfg = true ↔ failures = cfg.errorThreshold := by
  unfold isAtThreshold afterFailures
  dsimp only
  rw [decide_eq_true_iff]
  omega

end Backoff

-- ============================================================== fetches

/-- A fetch, from its start to its end, with the answer that came in time. -/
structure Fetch where
  since : Nat
  ended : Nat
  answer : Option (Except String (List Detection))

/-- What comes of a fetch; one without an answer has failed. -/
def Fetch.result (cfg : Settings) (fetch : Fetch) : Except String (List Detection) :=
  fetch.answer.getD (.error (Task.timeoutMessage cfg))

/-- A fetch starts when it is to start, and ends with its answer or after the
timeout, whichever is first. -/
structure Fetch.Timed (cfg : Settings) (start : Nat) (fetch : Fetch) : Prop where
  since : fetch.since = start
  notBefore : fetch.since ≤ fetch.ended
  inTime : fetch.ended ≤ fetch.since + cfg.requestTimeout
  unanswered : fetch.answer = none → fetch.ended = fetch.since + cfg.requestTimeout

/-- The failures in a row that fetches end with. -/
def failures (cfg : Settings) (done : List Fetch) : Nat :=
  failuresIn (done.map (Fetch.result cfg))

/-- When the next fetch is to start: the first one at once, and another one a
pause after the last has ended. -/
def nextStart (cfg : Settings) (start : Nat) (done : List Fetch) : Nat :=
  match done.getLast? with
  | none => start
  | some fetch => fetch.ended + pauseAfter cfg (failures cfg done)

/-- Fetches one after the other, each of them when it was to start. -/
inductive Scheduled (cfg : Settings) (start : Nat) : List Fetch → Prop where
  | nil : Scheduled cfg start []
  | snoc {done : List Fetch} {fetch : Fetch} (h : Scheduled cfg start done)
      (hfetch : fetch.Timed cfg (nextStart cfg start done)) :
      Scheduled cfg start (done ++ [fetch])

/-- What a feed shows when some fetches are over. -/
def shownAfter (cfg : Settings) (initial : Feed.Shown) (errors : Nat) (done : List Fetch) :
    Feed.Shown :=
  match done.getLast?.map (Fetch.result cfg) with
  | none => initial
  | some (.ok detections) => ⟨detections, initial.generation + done.length, 0, none⟩
  | some (.error message) => ⟨[], initial.generation + done.length, errors, some message⟩

/-- Every fetch that is shown is one generation. -/
private theorem generation_shownAfter (cfg : Settings) (initial : Feed.Shown) (errors : Nat)
    (done : List Fetch) :
    (shownAfter cfg initial errors done).generation = initial.generation + done.length := by
  unfold shownAfter
  split
  case h_1 hnone =>
    have hdone : done = [] := by simpa using hnone
    rw [hdone]
    rfl
  case h_2 => rfl
  case h_3 => rfl

/-- What a task waits for when some fetches are over. -/
inductive Awaits (cfg : Settings) (start : Nat) (done : List Fetch) : Point → Prop where
  | first (h : done = []) : Awaits cfg start done .fresh
  | answer : Awaits cfg start done (.asking (nextStart cfg start done))
  | interval (h : done ≠ []) : Awaits cfg start done (.waiting (nextStart cfg start done))

/-- What a task that waits may be told, and when: it runs at once when it is
started, an answer comes before the timeout is over, and timers go off when
they are due. -/
inductive Due (cfg : Settings) (start : Nat) : Point → Nat → Signal → Prop where
  | begins : Due cfg start .fresh start .begins
  | answered {since now : Nat} (outcome : Except String (List Detection)) (hafter : since ≤ now)
      (hintime : now ≤ since + cfg.requestTimeout) :
      Due cfg start (.asking since) now (.answered outcome)
  | timedOut {since : Nat} :
      Due cfg start (.asking since) (since + cfg.requestTimeout) .timedOut
  | intervalOver {due : Nat} : Due cfg start (.waiting due) due .intervalOver

/-- A task that waits has something to wait for. -/
private theorem Awaits.due {cfg : Settings} {start : Nat} {done : List Fetch} {point : Point}
    (h : Awaits cfg start done point) : ∃ now signal, Due cfg start point now signal := by
  cases h with
  | first => exact ⟨_, _, .begins⟩
  | answer => exact ⟨_, _, .timedOut⟩
  | interval => exact ⟨_, _, .intervalOver⟩

/-- The clock while a task waits: it is not set back, and does not pass what
the task waits for. -/
def Point.InTime (cfg : Settings) (start : Nat) : Point → (now : Nat) → Prop
  | .fresh, now => now = start
  | .asking since, now => since ≤ now ∧ now ≤ since + cfg.requestTimeout
  | .waiting due, now => now ≤ due
  | .over, _ | .crashed, _ => True

instance (cfg : Settings) (start now : Nat) :
    (point : Point) → Decidable (point.InTime cfg start now)
  | .fresh => inferInstanceAs (Decidable (now = start))
  | .asking since => inferInstanceAs (Decidable (since ≤ now ∧ now ≤ since + cfg.requestTimeout))
  | .waiting due => inferInstanceAs (Decidable (now ≤ due))
  | .over | .crashed => inferInstanceAs (Decidable True)

/-- The fetch that a signal ends. -/
def fetch? : Point → (now : Nat) → Signal → Option Fetch
  | .asking since, now, .answered outcome => some ⟨since, now, some outcome⟩
  | .asking since, now, .timedOut => some ⟨since, now, none⟩
  | _, _, _ => none

-- ================================================================ steps

/-- An outcome in the session of a feed is shown, in the next generation. -/
private theorem Feed.shown_apply {f : Feed} {session : Nat} (h : session = f.session)
    (outcome : Except String (List Detection)) (errors : Nat) :
    (f.apply session outcome errors).1.shown
      = match outcome with
        | .ok detections => ⟨detections, f.generation + 1, errors, none⟩
        | .error message => ⟨[], f.generation + 1, errors, some message⟩ := by
  unfold apply
  rw [if_pos (by simpa [accepts] using h.symm)]
  cases outcome with
  | ok detections => rfl
  | error message => rfl

/-- While the clock does not pass what a task waits for, the task takes only
what is due: it is the task that refuses timers before their time. -/
theorem Due.of_step? {cfg : Settings} {start now : Nat} {signal : Signal} {t t' : Task}
    {f f' : Feed} (hintime : t.point.InTime cfg start now)
    (hstep : t.step? cfg now signal f = some (t', f')) : Due cfg start t.point now signal := by
  obtain ⟨session, backoff, point⟩ := t
  cases point with
  | fresh =>
      cases signal with
      | begins =>
          obtain rfl : now = start := hintime
          exact .begins
      | _ => cases hstep
  | asking since =>
      obtain ⟨hafter, hbefore⟩ := hintime
      cases signal with
      | answered outcome => exact .answered outcome hafter hbefore
      | timedOut =>
          simp only [Task.step?, Option.ite_none_right_eq_some] at hstep
          obtain rfl : now = since + cfg.requestTimeout := Nat.le_antisymm hbefore hstep.1
          exact .timedOut
      | _ => cases hstep
  | waiting due =>
      cases signal with
      | intervalOver =>
          simp only [Task.step?, Option.ite_none_right_eq_some] at hstep
          obtain rfl : now = due := Nat.le_antisymm hintime hstep.1
          exact .intervalOver
      | _ => cases hstep
  | «over» | crashed => cases signal <;> cases hstep

/-- Fetches that polling bears. -/
def Borne (cfg : Settings) (done : List Fetch) : Prop := Bearable cfg (done.map (Fetch.result cfg))

/-- A task and its feed when some fetches are over. -/
structure OnTime (cfg : Settings) (start : Nat) (initial : Feed.Shown) (done : List Fetch)
    (t : Task) (f : Feed) : Prop where
  session : t.session = f.session
  borne : Borne cfg done
  backoff : t.backoff = Backoff.afterFailures cfg (failures cfg done)
  awaits : Awaits cfg start done t.point
  scheduled : Scheduled cfg start done
  shown : f.shown = shownAfter cfg initial (min (failures cfg done) Backoff.maxErrors) done

namespace OnTime

variable {cfg : Settings} {start now : Nat} {initial : Feed.Shown} {done : List Fetch} {t : Task}
variable {f : Feed} {signal : Signal}

/-- When a fetch ends that can be borne, the backoff is that of the failures
since then. -/
theorem after? (h : OnTime cfg start initial done t f) (hlow : 1 ≤ cfg.errorThreshold)
    (hhigh : cfg.errorThreshold ≤ Backoff.maxErrors) (fetch : Fetch) :
    (Borne cfg (done ++ [fetch]) → t.backoff.after? cfg (fetch.result cfg)
        = some (Backoff.afterFailures cfg (failures cfg (done ++ [fetch]))))
      ∧ (¬ Borne cfg (done ++ [fetch]) → t.backoff.after? cfg (fetch.result cfg) = none) := by
  have hbefore := (Backoff.run?_eq hlow hhigh (done.map (Fetch.result cfg))).1 h.borne
  have hrun := Backoff.run?_eq hlow hhigh ((done ++ [fetch]).map (Fetch.result cfg))
  have hlast : Backoff.run? cfg ((done ++ [fetch]).map (Fetch.result cfg))
      = t.backoff.after? cfg (fetch.result cfg) := by
    rw [List.map_append, List.map_singleton, Backoff.run?_snoc, hbefore, h.backoff]
    rfl
  rw [hlast] at hrun
  exact hrun

/-- When a fetch ends, the next one is a pause away, and the feed shows what
came of it. -/
private theorem deliver (h : OnTime cfg start initial done t f) (hlow : 1 ≤ cfg.errorThreshold)
    (hhigh : cfg.errorThreshold ≤ Backoff.maxErrors) (fetch : Fetch)
    (hfetch : fetch.Timed cfg (nextStart cfg start done)) (hborne : Borne cfg (done ++ [fetch])) :
    OnTime cfg start initial (done ++ [fetch])
      (t.deliver cfg fetch.ended (fetch.result cfg) f).1
      (t.deliver cfg fetch.ended (fetch.result cfg) f).2 := by
  have hnext : nextStart cfg start (done ++ [fetch])
      = fetch.ended + (Backoff.afterFailures cfg (failures cfg (done ++ [fetch]))).interval := by
    simp [nextStart, Backoff.afterFailures]
  rw [Task.deliver_of_some cfg fetch.ended (fetch.result cfg) h.session
    ((h.after? hlow hhigh fetch).1 hborne)]
  refine ⟨?_, hborne, rfl, ?_, h.scheduled.snoc hfetch, ?_⟩
  · exact (Feed.apply_of_eq h.session.symm _ _).2.symm
  · dsimp only
    rw [← hnext]
    exact .interval (by simp)
  · have hgeneration : f.generation = initial.generation + done.length :=
      (congrArg (·.generation) h.shown).trans (generation_shownAfter cfg initial _ done)
    have hlast : (done ++ [fetch]).getLast?.map (Fetch.result cfg) = some (fetch.result cfg) := by
      simp
    have hlength : initial.generation + (done ++ [fetch]).length = f.generation + 1 := by
      rw [hgeneration, List.length_append, List.length_singleton, Nat.add_assoc]
    rw [Feed.shown_apply h.session]
    unfold shownAfter
    rw [hlast, hlength]
    cases hresult : fetch.result cfg with
    | error message => rfl
    | ok detections =>
        -- a success is followed by no failure
        have hnone : failures cfg (done ++ [fetch]) = 0 := by
          simp [failures, failuresIn, hresult]
        dsimp only
        rw [Backoff.afterFailures, hnone]
        rfl

/-- Whatever is due is taken, and everything goes on as it should; only a fetch
that cannot be borne is the end of the task, and its feed does not hear of
it. -/
theorem step? (h : OnTime cfg start initial done t f) (hlow : 1 ≤ cfg.errorThreshold)
    (hhigh : cfg.errorThreshold ≤ Backoff.maxErrors) (hdue : Due cfg start t.point now signal) :
    ∃ t' f', t.step? cfg now signal f = some (t', f')
      ∧ (Borne cfg (done ++ (fetch? t.point now signal).toList) →
          OnTime cfg start initial (done ++ (fetch? t.point now signal).toList) t' f')
      ∧ (¬ Borne cfg (done ++ (fetch? t.point now signal).toList) →
          t'.point = .crashed ∧ f' = f) := by
  obtain ⟨session, backoff, point⟩ := t
  have hawaits := h.awaits
  -- the two ways in which a fetch ends differ in its result alone
  have hends : ∀ fetch : Fetch, fetch.Timed cfg (nextStart cfg start done) →
      (Borne cfg (done ++ [fetch]) → OnTime cfg start initial (done ++ [fetch])
          (Task.deliver cfg fetch.ended (fetch.result cfg) ⟨session, backoff, point⟩ f).1
          (Task.deliver cfg fetch.ended (fetch.result cfg) ⟨session, backoff, point⟩ f).2)
        ∧ (¬ Borne cfg (done ++ [fetch]) →
          (Task.deliver cfg fetch.ended (fetch.result cfg) ⟨session, backoff, point⟩ f).1.point
              = .crashed
            ∧ (Task.deliver cfg fetch.ended (fetch.result cfg) ⟨session, backoff, point⟩ f).2
              = f) := by
    refine fun fetch hfetch => ⟨h.deliver hlow hhigh fetch hfetch, fun hnot => ?_⟩
    rw [Task.deliver_of_none ((h.after? hlow hhigh fetch).2 hnot)]
    exact ⟨rfl, rfl⟩
  dsimp only at hdue hawaits ⊢
  cases hdue with
  -- no fetch ends with the beginning, so nothing is added to what is done
  | begins =>
      cases hawaits with
      | first hdone =>
          have hstart : nextStart cfg start done = start := by
            rw [hdone]
            rfl
          have hasks : Awaits cfg start done (.asking start) := by
            have hanswer : Awaits cfg start done (.asking (nextStart cfg start done)) := .answer
            rwa [hstart] at hanswer
          refine ⟨_, _, rfl, ?_⟩
          show (Borne cfg (done ++ []) → OnTime cfg start initial (done ++ []) _ _)
            ∧ (¬ Borne cfg (done ++ []) → _)
          rw [List.append_nil]
          exact ⟨fun _ => ⟨h.session, h.borne, h.backoff, hasks, h.scheduled, h.shown⟩,
            fun hnot => absurd h.borne hnot⟩
  | @answered since now outcome hafter hintime =>
      cases hawaits
      exact ⟨_, _, rfl, hends ⟨_, now, some outcome⟩
        ⟨rfl, hafter, hintime, fun hnone => by cases hnone⟩⟩
  | @timedOut since =>
      cases hawaits
      exact ⟨_, _, if_pos (Nat.le_refl _), hends ⟨_, _, none⟩
        ⟨rfl, Nat.le_add_right _ _, Nat.le_refl _, fun _ => rfl⟩⟩
  | intervalOver =>
      cases hawaits
      refine ⟨_, _, if_pos (Nat.le_refl _), ?_⟩
      show (Borne cfg (done ++ []) → OnTime cfg start initial (done ++ []) _ _)
        ∧ (¬ Borne cfg (done ++ []) → _)
      rw [List.append_nil]
      exact ⟨fun _ => ⟨h.session, h.borne, h.backoff, .answer, h.scheduled, h.shown⟩,
        fun hnot => absurd h.borne hnot⟩

end OnTime

-- ============================================================== pollers

namespace Poller

variable {p : Poller} {name : String} {start : Nat} {initial : Feed.Shown} {done : List Fetch}

/-- Nothing that happens changes how streams are polled. -/
@[simp]
theorem settings_enable (p : Poller) (name : String) : (p.enable name).settings = p.settings := by
  unfold enable
  split
  · rfl
  · rfl

theorem settings_disables (names : List String) (p : Poller) :
    (names.foldl disable p).settings = p.settings := by
  induction names generalizing p with
  | nil => rfl
  | cons name rest ih => exact ih (p.disable name)

@[simp]
theorem settings_act (h : p.Sound) (a : Activity) : (p.act a).settings = p.settings := by
  cases a with
  | signal n now signal =>
      unfold act
      dsimp only
      cases hstep : p.step? now n signal with
      | none => rfl
      | some p' =>
          obtain ⟨t, t', f', -, -, rfl⟩ := step?_inv hstep
          rfl
  | late now i outcome =>
      unfold act
      dsimp only
      cases hlate : p.arriveLate? now i outcome with
      | none => rfl
      | some p' =>
          rw [arriveLate?_inv h hlate]
          rfl

theorem settings_after (h : p.Sound) (event : Event) : (p.after event).settings = p.settings := by
  cases event with
  | enable n => exact settings_enable p n
  | disable n => rfl
  | disableAll => exact settings_disables p.tasks.names p
  | activity a => exact settings_act h a

/-- The settings never change. -/
theorem settings_run (h : p.Sound) (events : List Event) :
    (p.run events).settings = p.settings := by
  induction events generalizing p with
  | nil => rfl
  | cons event later ih => exact (ih (h.after event)).trans (settings_after h event)

/-- Whether an event is a signal to a stream. -/
def Event.reaches (name : String) : Event → Bool
  | .activity (.signal n _ _) => n == name
  | _ => false

/-- What happens elsewhere changes nothing for a stream that is polled. -/
theorem agrees_after (h : p.Sound) (hp : p.isEnabled name = true) {event : Event}
    (hon : event.disables name = false) (haway : event.reaches name = false) :
    Agrees p (p.after event) name := by
  cases event with
  | enable n => exact agrees_enable (Or.inr hp)
  | disable n =>
      refine agrees_disable fun heq => ?_
      simp [Event.disables, heq] at hon
  | disableAll => cases hon
  | activity a =>
      cases a with
      | signal n now signal =>
          have hn : name ≠ n := by
            rintro rfl
            simp [Event.reaches] at haway
          show Agrees p (p.act (.signal n now signal)) name
          unfold act
          dsimp only
          cases hstep : p.step? now n signal with
          | none => exact .refl p name
          | some p' =>
              obtain ⟨t, t', f', -, -, rfl⟩ := step?_inv hstep
              exact ⟨ByName.get?_set_of_ne hn _ _, ByName.get?_set_of_ne hn _ _⟩
      | late now i outcome =>
          obtain ⟨htasks, hfeeds⟩ := late_refused h now i outcome
          exact ⟨congrArg (·.get? name) htasks, congrArg (·.get? name) hfeeds⟩

/-- A stream whose polling is on schedule: its task and its feed when some
fetches are over. -/
def OnSchedule (p : Poller) (name : String) (start : Nat) (initial : Feed.Shown)
    (done : List Fetch) : Prop :=
  ∃ t, p.tasks.get? name = some t ∧ OnTime p.settings start initial done t (p.feed name)

/-- The clock at an event: it does not pass what the stream waits for. -/
def Timely (p : Poller) (name : String) (start : Nat) : Event → Prop
  | .activity (.signal n now _) =>
      n = name → ∀ t ∈ p.tasks.get? name, t.point.InTime p.settings start now
  | _ => True

instance (p : Poller) (name : String) (start : Nat) :
    (event : Event) → Decidable (p.Timely name start event)
  | .activity (.signal n now _) =>
      inferInstanceAs
        (Decidable (n = name → ∀ t ∈ p.tasks.get? name, t.point.InTime p.settings start now))
  | .activity (.late _ _ _) => inferInstanceAs (Decidable True)
  | .enable _ => inferInstanceAs (Decidable True)
  | .disable _ => inferInstanceAs (Decidable True)
  | .disableAll => inferInstanceAs (Decidable True)

/-- The fetch of a stream that an event ends, if the event can happen. -/
def ends? (p : Poller) (name : String) : Event → Option Fetch
  | .activity (.signal n now signal) =>
      if n = name ∧ (p.step? now name signal).isSome = true then
        (p.tasks.get? name).bind fun t => fetch? t.point now signal
      else none
  | _ => none

/-- What does not reach a stream ends no fetch of it. -/
private theorem ends?_of_away {event : Event} (haway : event.reaches name = false) :
    p.ends? name event = none := by
  cases event with
  | activity a =>
      cases a with
      | signal n now signal =>
          have hn : n ≠ name := by simpa [Event.reaches] using haway
          exact if_neg fun hboth => hn hboth.1
      | late now i outcome => rfl
  | _ => rfl

/-- Polling begins without a fetch, with the feed as it is. -/
private theorem OnSchedule.of_enable (hlow : 1 ≤ p.settings.errorThreshold)
    (hidle : p.isEnabled name = false) (start : Nat) :
    (p.enable name).OnSchedule name start (p.feed name).shown [] := by
  have hfeed : (p.enable name).feed name = (p.feed name).begin := by
    rw [feed, get?_feeds_enable hidle, if_pos rfl]
    rfl
  refine ⟨_, (get?_tasks_enable hidle name).trans (if_pos rfl), ?_⟩
  rw [settings_enable, hfeed]
  exact ⟨rfl, bearable_nil _, (Backoff.afterFailures_zero hlow).symm, .first rfl, .nil, rfl⟩

namespace OnSchedule

/-- A stream on schedule is polled. -/
private theorem isEnabled (h : p.OnSchedule name start initial done) : p.isEnabled name = true := by
  obtain ⟨t, ht, hontime⟩ := h
  have hawaits := hontime.awaits
  unfold Poller.isEnabled
  rw [ht, Option.any_some]
  unfold Task.isRunning
  generalize t.point = point at hawaits
  cases hawaits with
  | first | answer | interval => rfl

/-- Whatever happens in time, the stream stays on schedule, unless it is the end
of a fetch that cannot be borne: over that its task crashes. -/
theorem after (h : p.OnSchedule name start initial done) (hp : p.Sound)
    (hlow : 1 ≤ p.settings.errorThreshold) (hhigh : p.settings.errorThreshold ≤ Backoff.maxErrors)
    {event : Event} (hon : event.disables name = false) (htimely : p.Timely name start event) :
    (Borne p.settings (done ++ (p.ends? name event).toList) →
        (p.after event).OnSchedule name start initial (done ++ (p.ends? name event).toList))
      ∧ (¬ Borne p.settings (done ++ (p.ends? name event).toList) →
        (p.after event).hasCrashed name = true ∧ (p.after event).feed name = p.feed name) := by
  have henabled := h.isEnabled
  obtain ⟨t, ht, hontime⟩ := h
  cases hreaches : event.reaches name with
  | false =>
      -- the event is about other streams, so the task waits on
      have hagrees := agrees_after hp henabled hon hreaches
      rw [ends?_of_away hreaches, Option.toList_none, List.append_nil]
      refine ⟨fun _ => ⟨t, hagrees.task.trans ht, ?_⟩, fun hnot => absurd hontime.borne hnot⟩
      rw [settings_after hp, feed_congr hagrees.feed]
      exact hontime
  | true =>
      match event, hreaches, htimely with
      | .activity (.signal n now signal), hreaches, htimely =>
          have hn : n = name := by simpa [Event.reaches] using hreaches
          subst hn
          -- the signal is one of this task, and it comes when it is due
          have hintime := htimely rfl t ht
          have hends : p.ends? n (.activity (.signal n now signal))
              = if (p.step? now n signal).isSome = true then fetch? t.point now signal
                else none := by
            simp [ends?, ht]
          rw [hends]
          show (_ → (p.act (.signal n now signal)).OnSchedule n start initial _)
            ∧ (_ → (p.act (.signal n now signal)).hasCrashed n = true
              ∧ (p.act (.signal n now signal)).feed n = p.feed n)
          unfold act
          dsimp only
          cases hstep : p.step? now n signal with
          | none =>
              rw [if_neg (by simp), Option.toList_none, List.append_nil]
              exact ⟨fun _ => ⟨t, ht, hontime⟩, fun hnot => absurd hontime.borne hnot⟩
          | some p' =>
              obtain ⟨t₀, t', f', ht₀, htask, rfl⟩ := step?_inv hstep
              rw [ht] at ht₀
              cases ht₀
              -- what `OnTime` says of the step is what the poller stores
              obtain ⟨t'', f'', htask', hnext, hcrash⟩ :=
                hontime.step? hlow hhigh (Due.of_step? hintime htask)
              rw [htask] at htask'
              cases htask'
              simp only [Option.isSome_some, if_true, Option.getD_some]
              have hfeed : feed { p with tasks := p.tasks.set n t', feeds := p.feeds.set n f' } n
                  = f' := by
                rw [feed]
                dsimp only
                rw [ByName.get?_set_self]
                rfl
              refine ⟨fun hborne => ⟨t', ByName.get?_set_self _ _ _, ?_⟩, fun hnot => ?_⟩
              · rw [hfeed]
                exact hnext hborne
              · obtain ⟨hpoint, hsame⟩ := hcrash hnot
                rw [hfeed]
                refine ⟨?_, hsame⟩
                unfold hasCrashed
                rw [ByName.get?_set_self, Option.any_some, hpoint]
                rfl

end OnSchedule

-- ================================================================== runs

/-- Along some events a stream stays enabled, and the clock does not pass what
it waits for. -/
def Unbroken (name : String) (start : Nat) : Poller → List Event → Prop
  | _, [] => True
  | p, event :: later =>
      event.disables name = false ∧ p.Timely name start event
        ∧ Unbroken name start (p.after event) later

instance decidableUnbroken (name : String) (start : Nat) :
    (p : Poller) → (events : List Event) → Decidable (Unbroken name start p events)
  | _, [] => inferInstanceAs (Decidable True)
  | p, event :: later =>
      have := decidableUnbroken name start (p.after event) later
      inferInstanceAs (Decidable (event.disables name = false ∧ p.Timely name start event
        ∧ Unbroken name start (p.after event) later))

/-- The fetches of a stream that end along some events. -/
def fetches (name : String) : Poller → List Event → List Fetch
  | _, [] => []
  | p, event :: later => (p.ends? name event).toList ++ fetches name (p.after event) later

/-- A task stays on its schedule as long as it is left alone and its pauses can
be formed. -/
theorem OnSchedule.run (h : p.OnSchedule name start initial done) (hp : p.Sound)
    (hlow : 1 ≤ p.settings.errorThreshold) (hhigh : p.settings.errorThreshold ≤ Backoff.maxErrors)
    (events : List Event) (hunbroken : Unbroken name start p events)
    (hborne : Borne p.settings (done ++ fetches name p events)) :
    (p.run events).OnSchedule name start initial (done ++ fetches name p events) := by
  induction events generalizing p done with
  | nil =>
      rw [fetches, List.append_nil]
      exact h
  | cons event later ih =>
      obtain ⟨hon, htimely, hlater⟩ := hunbroken
      have hsettings := settings_after hp event
      rw [fetches, ← List.append_assoc] at hborne ⊢
      have hfirst : Borne p.settings (done ++ (p.ends? name event).toList) := by
        unfold Borne at hborne
        rw [List.map_append] at hborne
        exact hborne.of_append
      refine ih ((h.after hp hlow hhigh hon htimely).1 hfirst) (hp.after event) ?_ ?_ hlater ?_
      · rwa [hsettings]
      · rwa [hsettings]
      · rwa [hsettings]

/-- The fetches of a run go on from where it stopped. -/
theorem fetches_append (name : String) (p : Poller) (events later : List Event) :
    fetches name p (events ++ later)
      = fetches name p events ++ fetches name (p.run events) later := by
  induction events generalizing p with
  | nil => rfl
  | cons event rest ih =>
      rw [List.cons_append, fetches, fetches, ih, List.append_assoc]
      rfl

/-- An unbroken run may go on unbroken. -/
theorem unbroken_append {name : String} {start : Nat} {p : Poller} {events later : List Event} :
    Unbroken name start p (events ++ later)
      ↔ Unbroken name start p events ∧ Unbroken name start (p.run events) later := by
  induction events generalizing p with
  | nil => exact (iff_of_eq (true_and _)).symm
  | cons event rest ih =>
      show _ ∧ _ ∧ Unbroken name start (p.after event) (rest ++ later) ↔ (_ ∧ _ ∧ _) ∧ _
      rw [ih, and_assoc, and_assoc]
      rfl

/-- What polling a stream to schedule comes to, when some fetches are over. -/
structure KeepsTime (cfg : Settings) (p : Poller) (name : String) (start : Nat)
    (initial : Feed.Shown) (done : List Fetch) : Prop where
  /-- Each fetch started when it was to start, and ended with its answer or by
  the timeout. -/
  scheduled : Scheduled cfg start done
  /-- The task waits for what comes next: for the answer to a fetch that started
  when it was to start, or until then. -/
  waits : ∃ t, p.tasks.get? name = some t ∧ Awaits cfg start done t.point
    ∧ t.backoff = Backoff.afterFailures cfg (failures cfg done)
    ∧ (∃ now signal, Due cfg start t.point now signal)
    ∧ ∀ now signal, Due cfg start t.point now signal → (p.step? now name signal).isSome = true
  /-- The feed shows what came of the last fetch. -/
  shown : failures cfg done ≤ Backoff.maxErrors →
    (p.feed name).shown = shownAfter cfg initial (failures cfg done) done

/-- A task on its schedule keeps time. -/
private theorem OnSchedule.keepsTime (h : p.OnSchedule name start initial done)
    (hlow : 1 ≤ p.settings.errorThreshold)
    (hhigh : p.settings.errorThreshold ≤ Backoff.maxErrors) :
    p.KeepsTime p.settings name start initial done := by
  obtain ⟨t, ht, hontime⟩ := h
  refine ⟨hontime.scheduled, ⟨t, ht, hontime.awaits, hontime.backoff, hontime.awaits.due, ?_⟩,
    fun hfew => ?_⟩
  · intro now signal hdue
    obtain ⟨t', f', hstep, -⟩ := hontime.step? hlow hhigh hdue
    rw [step?, ht]
    dsimp only [Option.bind_eq_bind, Option.bind_some]
    rw [hstep]
    rfl
  · have hshown := hontime.shown
    rwa [Nat.min_eq_left hfew] at hshown

/-- The intervals and the schedule of polling. However fetches end, as long as
it can be borne, the interval is that of the failures since the last success,
and the failure that is reported is the one that reaches the threshold. And
from when a stream is enabled, whatever happened before, each fetch starts
when it is to start and ends with its answer or by the timeout; the task goes
on; and the feed shows the last outcome, in a generation of its own. The first
failure that cannot be borne is the end of the task, and the feed does not
hear of it. -/
theorem poll_schedule (cfg : Settings) (hmax : cfg.baseInterval ≤ cfg.maxInterval)
    (hlow : 1 ≤ cfg.errorThreshold) (hhigh : cfg.errorThreshold < Backoff.maxErrors) :
    (∀ outcomes : List (Except String (List Detection)),
        (Bearable cfg outcomes → ∃ b, Backoff.run? cfg outcomes = some b
          ∧ b = Backoff.afterFailures cfg (failuresIn outcomes)
          ∧ cfg.baseInterval ≤ b.interval ∧ b.interval ≤ cfg.maxInterval
          ∧ (b.isAtThreshold cfg = true ↔ failuresIn outcomes = cfg.errorThreshold))
        ∧ (¬ Bearable cfg outcomes → Backoff.run? cfg outcomes = none))
      ∧ ∀ (before : List Event) (name : String) (start : Nat) (events : List Event),
          let p := ({ settings := cfg } : Poller).run before
          p.isEnabled name = false → Unbroken name start (p.enable name) events →
            Borne cfg (fetches name (p.enable name) events) →
              ((p.enable name).run events).KeepsTime cfg name start (p.feed name).shown
                  (fetches name (p.enable name) events)
                ∧ ∀ event, Unbroken name start (p.enable name) (events ++ [event]) →
                  ¬ Borne cfg (fetches name (p.enable name) (events ++ [event])) →
                    ((p.enable name).run (events ++ [event])).hasCrashed name = true
                      ∧ ((p.enable name).run (events ++ [event])).feed name
                        = ((p.enable name).run events).feed name := by
  have hreach := Nat.le_of_lt hhigh
  refine ⟨fun outcomes => ⟨fun hborne => ?_, (Backoff.run?_eq hlow hreach outcomes).2⟩,
    fun before name start events hidle hunbroken hborne => ?_⟩
  · have hbounds := pauseAfter_bounds hmax (failuresIn outcomes)
    exact ⟨_, (Backoff.run?_eq hlow hreach outcomes).1 hborne, rfl, hbounds.1, hbounds.2,
      Backoff.isAtThreshold_afterFailures hhigh _⟩
  · have hsound := (sound_new cfg).run before
    have hon := sound_enable hsound name
    have hbefore : (({ settings := cfg } : Poller).run before).settings = cfg :=
      settings_run (sound_new cfg) before
    have hcfg : ((({ settings := cfg } : Poller).run before).enable name).settings = cfg := by
      rw [settings_enable, hbefore]
    have hstart := OnSchedule.of_enable (by rwa [hbefore]) hidle start
    have hrun := hstart.run hon (by rwa [hcfg]) (by rwa [hcfg]) events hunbroken (by rwa [hcfg])
    have hend := (settings_run hon events).trans hcfg
    refine ⟨?_, fun event hgoesOn hnot => ?_⟩
    · have hkeeps := hrun.keepsTime (by rwa [hend]) (by rwa [hend])
      rwa [hend, List.nil_append] at hkeeps
    · obtain ⟨-, hevent, htimely, -⟩ := unbroken_append.1 hgoesOn
      have hcrash := (hrun.after (hon.run events) (by rwa [hend]) (by rwa [hend]) hevent
        htimely).2
      rw [hend, List.nil_append] at hcrash
      rw [fetches_append] at hnot
      -- the last event adds the fetch that it ends, if it ends one
      have hlast : fetches name (((({ settings := cfg } : Poller).run before).enable name).run
          events) [event] = (((({ settings := cfg } : Poller).run before).enable name).run
            events |>.ends? name event).toList := List.append_nil _
      rw [hlast] at hnot
      unfold Poller.run
      rw [List.foldl_append]
      exact hcrash hnot

/-- A stream that is answered, refused and then not answered at all, while
another one is enabled and disabled: it waits the base interval, then twice
and then four times as long. -/
def threeFetches : List Event :=
  [.activity (.signal "gate" 500 .begins),
   .enable "yard",
   .activity (.signal "yard" 600 .begins),
   .activity (.signal "gate" 700 (.answered (.ok []))),
   .activity (.signal "gate" 1700 .intervalOver),
   .disable "yard",
   .activity (.late 1750 0 (.ok [])),
   .activity (.signal "gate" 1800 (.answered (.error "offline"))),
   .activity (.signal "gate" 3800 .intervalOver),
   .activity (.signal "gate" 8800 .timedOut),
   .activity (.signal "gate" 12800 .intervalOver)]

theorem poll_schedule_of_three_fetches :
    (({ settings := { errorThreshold := 1 } } : Poller).enable "gate" |>.run threeFetches).KeepsTime
        { errorThreshold := 1 } "gate" 500 ⟨[], 0, 0, none⟩
        [⟨500, 700, some (.ok [])⟩, ⟨1700, 1800, some (.error "offline")⟩, ⟨3800, 8800, none⟩] := by
  have hunbroken : Unbroken "gate" 500
      (({ settings := { errorThreshold := 1 } } : Poller).enable "gate") threeFetches := by
    decide
  have hborne : ∀ done, Borne { errorThreshold := 1 } done :=
    fun done => bearable_of_isDuration (by decide) (by decide) _
  exact ((poll_schedule { errorThreshold := 1 } (by decide) (by decide) (by decide)).2 [] "gate" 500
    threeFetches rfl hunbroken (hborne _)).1

/-- Intervals that are durations, and whose doubles are none. -/
def endless : Settings :=
  { baseInterval := 10000000000000000000000, maxInterval := 10000000000000000000000,
    errorThreshold := 1 }

/-- With them a stream is on no schedule after its first failure: the feed does
not show it, and there is no next fetch. -/
theorem crashes_of_endless :
    0 < endless.baseInterval ∧ endless.baseInterval ≤ endless.maxInterval
      ∧ 1 ≤ endless.errorThreshold ∧ endless.errorThreshold < Backoff.maxErrors
      ∧ Unbroken "gate" 0 (({ settings := endless } : Poller).enable "gate")
          [.activity (.signal "gate" 0 .begins),
            .activity (.signal "gate" 100 (.answered (.error "offline")))]
      ∧ ¬ ((({ settings := endless } : Poller).enable "gate").run
          [.activity (.signal "gate" 0 .begins),
            .activity (.signal "gate" 100 (.answered (.error "offline")))]).KeepsTime
          endless "gate" 0 ⟨[], 0, 0, none⟩ [⟨0, 100, some (.error "offline")⟩] := by
  refine ⟨by decide, by decide, by decide, by decide, by decide, fun hkeeps => ?_⟩
  have hgeneration := congrArg Feed.Shown.generation (hkeeps.shown (by decide))
  revert hgeneration
  decide

end Poller

end VideoWall.Polling
