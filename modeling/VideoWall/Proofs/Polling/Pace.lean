/-
How long polling may wait at most, and when it crashes.

The interval of a task is doubled by failures, but not beyond the largest
interval of the settings. That is so for each task on its own
(`Backoff.Within`), so it is for all of them at any time: for those that run,
and for those that were stopped and may still bring an outcome
(`Poller.Paced`). A task crashes only over an interval whose double is no
duration, and so none does where the settings leave room for that
(`Poller.Paced.late`).
-/
import VideoWall.Proofs.Polling.Sessions

namespace VideoWall.Polling

open Recorder

-- ============================================================ intervals

/-- The longest interval there can be. -/
def Settings.longest (cfg : Settings) : Nat := max cfg.baseInterval cfg.maxInterval

namespace Backoff

variable {cfg : Settings} {b b' : Backoff} {ε α : Type} {outcome : Except ε α}

/-- The interval in force is not longer than the settings allow. -/
def Within (cfg : Settings) (b : Backoff) : Prop := b.interval ≤ cfg.longest

/-- A fresh pause is within the settings. -/
theorem within_fresh (cfg : Settings) : (fresh cfg).Within cfg := Nat.le_max_left _ _

/-- Whatever comes of a request keeps the interval within the settings. -/
private theorem Within.after? (h : b.Within cfg) (hafter : b.after? cfg outcome = some b') :
    b'.Within cfg := by
  cases outcome with
  | ok =>
      cases hafter
      exact within_fresh cfg
  | error =>
      simp only [Backoff.after?, failed?] at hafter
      split at hafter
      · cases hafter
        exact h
      · split at hafter
        · cases hafter
          exact Nat.le_trans (Nat.min_le_right _ _) (Nat.le_max_right _ _)
        · cases hafter

/-- There is no next interval only where the double of this one is none. -/
private theorem not_isDuration_of_after? (h : b.after? cfg outcome = none) :
    ¬ Clock.IsDuration (b.interval * 2) := by
  cases outcome with
  | ok => cases h
  | error =>
      simp only [Backoff.after?, failed?] at h
      split at h
      · cases h
      · split at h
        · cases h
        · assumption

end Backoff

-- ================================================================ tasks

namespace Task

variable {cfg : Settings} {now : Nat} {signal : Signal} {t t' : Task} {f f' : Feed}

/-- What a step does to the backoff of a task: it stays as it is, be it that
there is no next one, or it is that of one request more. -/
inductive Paces (cfg : Settings) (t t' : Task) : Prop where
  | same (hbackoff : t'.backoff = t.backoff) (hpoint : t'.point ≠ .crashed)
  | crashes (hbackoff : t'.backoff = t.backoff) {outcome : Except String (List Detection)}
      (hnone : t.backoff.after? cfg outcome = none)
  | ends {outcome : Except String (List Detection)}
      (hbackoff : t.backoff.after? cfg outcome = some t'.backoff) (hpoint : t'.point ≠ .crashed)

/-- A delivery keeps the pace. -/
private theorem paces_deliver (cfg : Settings) (now : Nat)
    (outcome : Except String (List Detection))
    (t : Task) (f : Feed) : t.Paces cfg (t.deliver cfg now outcome f).1 := by
  cases hafter : t.backoff.after? cfg outcome with
  | none =>
      rw [deliver_of_none hafter]
      exact .crashes rfl hafter
  | some backoff =>
      unfold deliver
      rw [hafter]
      dsimp only
      split
      · exact .ends hafter (by simp)
      · exact .ends hafter (by simp)

/-- A step of a task keeps the pace. -/
theorem paces_step? (h : t.step? cfg now signal f = some (t', f')) : t.Paces cfg t' := by
  unfold step? at h
  split at h
  case h_1 =>
    cases h
    exact .same rfl (by simp)
  case h_2 outcome _ =>
    have hpaces := paces_deliver cfg now outcome t f
    rwa [Option.some.inj h] at hpaces
  case h_3 =>
    split at h
    case isTrue =>
      have hpaces := paces_deliver cfg now (.error (timeoutMessage cfg)) t f
      rwa [Option.some.inj h] at hpaces
    case isFalse => cases h
  case h_4 =>
    split at h
    case isTrue =>
      cases h
      exact .same rfl (by simp)
    case isFalse => cases h
  case h_5 => cases h

end Task

namespace Poller

variable {p : Poller} {cfg : Settings}

/-- A task that there is: one that runs, or one that was stopped. -/
def Has (p : Poller) (t : Task) : Prop :=
  ∃ name, p.tasks.get? name = some t ∨ (name, t) ∈ p.stopped

/-- No task waits longer than the settings allow, and one that has crashed
could not have its interval doubled. -/
structure Paced (cfg : Settings) (p : Poller) : Prop where
  settings : p.settings = cfg
  within : ∀ t, p.Has t → t.backoff.Within cfg
  crashed : ∀ name t, p.tasks.get? name = some t → t.point = .crashed →
    ¬ Clock.IsDuration (t.backoff.interval * 2)

/-- A new poller is paced. -/
theorem paced_new (cfg : Settings) : ({ settings := cfg } : Poller).Paced cfg := by
  refine ⟨rfl, ?_, ?_⟩
  · rintro t ⟨name, hrunning | hstopped⟩
    · cases hrunning
    · cases hstopped
  · intro name t ht
    cases ht

/-- No task crashes where the longest interval can be doubled. -/
theorem Paced.late (h : p.Paced cfg) {name : String} (hcrashed : p.hasCrashed name = true) :
    ¬ Clock.IsDuration (cfg.longest * 2) := by
  obtain ⟨t, ht, hpoint⟩ := (Option.any_eq_true _ _).1 hcrashed
  intro hduration
  refine h.crashed name t ht (by simpa using hpoint) (hduration.of_le ?_)
  exact Nat.mul_le_mul_right 2 (h.within t ⟨name, Or.inl ht⟩)

/-- A task that is put in place of another one. -/
theorem Paced.set (h : p.Paced cfg) {t : Task} (ht : t.backoff.Within cfg)
    (hcrashed : t.point = .crashed → ¬ Clock.IsDuration (t.backoff.interval * 2)) (name : String)
    (feeds : ByName Feed) : Paced cfg { p with tasks := p.tasks.set name t, feeds } := by
  refine ⟨h.settings, ?_, ?_⟩
  · rintro t' ⟨other, hrunning | hstopped⟩
    · dsimp only at hrunning
      rw [ByName.get?_set] at hrunning
      split at hrunning
      · cases hrunning
        exact ht
      · exact h.within t' ⟨other, Or.inl hrunning⟩
    · exact h.within t' ⟨other, Or.inr hstopped⟩
  · intro other t' ht'
    dsimp only at ht'
    rw [ByName.get?_set] at ht'
    split at ht'
    · cases ht'
      exact hcrashed
    · exact h.crashed other t' ht'

/-- Enabling a stream keeps the pace. -/
theorem Paced.enable (h : p.Paced cfg) (name : String) : (p.enable name).Paced cfg := by
  unfold Poller.enable
  split
  · exact h
  · have hfresh : (Backoff.fresh p.settings).Within cfg := by
      rw [h.settings]
      exact Backoff.within_fresh cfg
    exact h.set (t := ⟨_, .fresh p.settings, .fresh⟩) hfresh (by simp) name _

theorem Paced.enables (names : List String) (h : p.Paced cfg) :
    (names.foldl Poller.enable p).Paced cfg := by
  induction names generalizing p with
  | nil => exact h
  | cons name rest ih => exact ih (h.enable name)

/-- Disabling a stream keeps the pace. -/
theorem Paced.disable (h : p.Paced cfg) (name : String) : (p.disable name).Paced cfg := by
  refine ⟨h.settings, ?_, ?_⟩
  · rintro t ⟨other, hrunning | hstopped⟩
    · rw [get?_tasks_disable] at hrunning
      split at hrunning
      · cases hrunning
      · exact h.within t ⟨other, Or.inl hrunning⟩
    · rcases mem_stopped_disable hstopped with hold | ⟨rfl, hnew⟩
      · exact h.within t ⟨other, Or.inr hold⟩
      · exact h.within t ⟨_, Or.inl hnew⟩
  · intro other t ht
    rw [get?_tasks_disable] at ht
    split at ht
    · cases ht
    · exact h.crashed other t ht

theorem Paced.disables (names : List String) (h : p.Paced cfg) :
    (names.foldl Poller.disable p).Paced cfg := by
  induction names generalizing p with
  | nil => exact h
  | cons name rest ih => exact ih (h.disable name)

/-- Every activity keeps the pace. -/
theorem Paced.act (h : p.Paced cfg) (a : Activity) : (p.act a).Paced cfg := by
  cases a with
  | signal name now signal =>
      unfold Poller.act
      dsimp only
      cases hstep : p.step? now name signal with
      | none => exact h
      | some p' =>
          obtain ⟨t, t', f', ht, htask, rfl⟩ := step?_inv hstep
          have hbefore := h.within t ⟨name, Or.inl ht⟩
          rw [h.settings] at htask
          cases Task.paces_step? htask with
          | same hbackoff hpoint =>
              rw [← hbackoff] at hbefore
              exact h.set hbefore (fun hp => absurd hp hpoint) name _
          | crashes hbackoff hnone =>
              rw [← hbackoff] at hbefore hnone
              exact h.set hbefore (fun _ => Backoff.not_isDuration_of_after? hnone) name _
          | ends hbackoff hpoint =>
              exact h.set (hbefore.after? hbackoff) (fun hp => absurd hp hpoint) name _
  | late now i outcome =>
      unfold Poller.act arriveLate?
      dsimp only
      cases hi : p.stopped[i]? with
      | none => exact h
      | some stopped =>
          refine ⟨h.settings, ?_, h.crashed⟩
          rintro t ⟨name, hrunning | hstopped⟩
          · exact h.within t ⟨name, Or.inl hrunning⟩
          · exact h.within t ⟨name, Or.inr (List.mem_of_mem_eraseIdx hstopped)⟩

end Poller

end VideoWall.Polling
