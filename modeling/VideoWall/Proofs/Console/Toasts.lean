/-
What a queue of toasts shows.

# Two ways out of a queue

A toast leaves the queue because it is too old when somebody looks, or
because there are newer ones enough to fill the queue without it. A look
changes the queue, then, and what the queue has room for depends on the
looks so far. But nobody can tell: what is shown is always the live part of
the newest toasts, counted from all that were ever pushed
(`shows_newest_live`).

# Why a look leaves no trace

Toasts are pushed in the order of their times, so the old ones stand in
front: a look drops a front part of the queue (`exists_expired`). What is
missing of the newest toasts is therefore a front part of them, and is
expired for good (`Kept`). A push that finds room where another queue would
be full makes up for an expired toast and for nothing else (`Kept.push`).
-/
import Mathlib.Data.List.DropRight
import VideoWall.Toast

namespace VideoWall.Toasts

-- ================================================================= calls

/-- What can be done to a queue. -/
inductive Call where
  | push (severity : Severity) (message : String)
  | look
  deriving DecidableEq, Repr

/-- A call, and when it is made. -/
structure Timed where
  time : Nat
  call : Call
  deriving DecidableEq, Repr

/-- What becomes of the toasts. -/
def after (t : Toasts) (c : Timed) : Toasts :=
  match c.call with
  | .push severity message => t.push ⟨severity, message, c.time⟩
  | .look => t.visibleAt c.time

/-- A queue that was empty, after some calls. -/
def run (lifetime : Nat) (calls : List Timed) : Toasts := calls.foldl after { lifetime }

/-- The toast that a call pushes. -/
def Timed.toast? (c : Timed) : Option Toast :=
  match c.call with
  | .push severity message => some ⟨severity, message, c.time⟩
  | .look => none

/-- Every toast that was ever pushed, oldest first. -/
def pushed (calls : List Timed) : List Toast := calls.filterMap Timed.toast?

/-- No call is made before the ones that precede it. -/
def InOrder (calls : List Timed) : Prop := calls.Pairwise fun a b => a.time ≤ b.time

instance (calls : List Timed) : Decidable (InOrder calls) :=
  inferInstanceAs (Decidable (calls.Pairwise fun a b => a.time ≤ b.time))

/-- Toasts stand in the order of their times. -/
def Aged (toasts : List Toast) : Prop := toasts.Pairwise fun a b => a.created ≤ b.created

variable {t : Toasts} {now later lifetime : Nat} {toast : Toast} {toasts : List Toast}
  {calls : List Timed}

-- ============================================================ last items

/-- The last items of a list are the last ones of its end, and of its
beginning as many as are missing. -/
theorem rtake_append {α : Type} (n : Nat) (a b : List α) :
    (a ++ b).rtake n = a.rtake (n - b.length) ++ b.rtake n := by
  unfold List.rtake
  rw [List.drop_append, List.length_append]
  by_cases hroom : b.length ≤ n
  · have hfront : a.length + b.length - n = a.length - (n - b.length) := by omega
    have hback : a.length + b.length - n - a.length = b.length - n := by omega
    rw [hback, hfront]
  · have hfront : a.length ≤ a.length + b.length - n := by omega
    have hnone : n - b.length = 0 := by omega
    have hback : a.length + b.length - n - a.length = b.length - n := by omega
    rw [hback, hnone, Nat.sub_zero, List.drop_length, List.drop_eq_nil_of_le hfront]

/-- The last items of the last items are the last items. -/
private theorem rtake_rtake {α : Type} {m n : Nat} (l : List α) (h : n ≤ m) :
    (l.rtake m).rtake n = l.rtake n := by
  have hdrop : l.length - m + (l.length - (l.length - m) - n) = l.length - n := by omega
  unfold List.rtake
  rw [List.drop_drop, List.length_drop, hdrop]

-- =================================================================== ages

/-- A toast that is no longer shown is never shown again. -/
private theorem isLive_later (h : t.isLive now toast = false) (hlater : now ≤ later) :
    t.isLive later toast = false := by
  unfold isLive at h ⊢
  rw [decide_eq_false_iff_not] at h ⊢
  omega

/-- A toast is shown as long as an older one is. -/
private theorem isLive_younger {older : Toast} (h : t.isLive now older = true)
    (hage : older.created ≤ toast.created) : t.isLive now toast = true := by
  unfold isLive at h ⊢
  rw [decide_eq_true_iff] at h ⊢
  omega

/-- What is expired stands in front of what is live. -/
theorem exists_expired (t : Toasts) (now : Nat) (haged : Aged toasts) :
    ∃ expired, toasts = expired ++ toasts.filter (t.isLive now)
      ∧ ∀ toast ∈ expired, t.isLive now toast = false := by
  induction toasts with
  | nil => exact ⟨[], rfl, by simp⟩
  | cons oldest younger ih =>
      obtain ⟨holdest, hyounger⟩ := List.pairwise_cons.1 haged
      cases hlive : t.isLive now oldest with
      | true =>
          have hall : ∀ toast ∈ oldest :: younger, t.isLive now toast = true := by
            intro toast htoast
            rcases List.mem_cons.1 htoast with rfl | htoast
            · exact hlive
            · exact isLive_younger hlive (holdest toast htoast)
          exact ⟨[], (List.filter_eq_self.2 hall).symm, by simp⟩
      | false =>
          obtain ⟨expired, hsplit, hexpired⟩ := ih hyounger
          refine ⟨oldest :: expired, ?_, List.forall_mem_cons.2 ⟨hlive, hexpired⟩⟩
          rw [List.filter_cons_of_neg (by simp [hlive]), List.cons_append, ← hsplit]

-- ============================================================ what is kept

/-- A queue holds the newest of the toasts that were pushed, but for some
that stood in front of the others and are expired by now. -/
structure Kept (t : Toasts) (toasts : List Toast) (now : Nat) : Prop where
  missing : ∃ gone, toasts.rtake capacity = gone ++ t.queue
    ∧ ∀ toast ∈ gone, t.isLive now toast = false
  aged : Aged toasts
  past : ∀ toast ∈ toasts, toast.created ≤ now

private theorem kept_empty (lifetime now : Nat) : Kept { lifetime } [] now :=
  ⟨⟨[], rfl, by simp⟩, List.Pairwise.nil, by simp⟩

/-- Time alone expires toasts when they are looked for, not before. -/
theorem Kept.mono (h : Kept t toasts now) (hlater : now ≤ later) : Kept t toasts later := by
  obtain ⟨gone, hsplit, hgone⟩ := h.missing
  exact ⟨⟨gone, hsplit, fun toast htoast => isLive_later (hgone toast htoast) hlater⟩, h.aged,
    fun toast htoast => Nat.le_trans (h.past toast htoast) hlater⟩

/-- To push a toast onto a queue is to push it onto everything: what makes
room for it is the oldest, or is missing already. -/
theorem Kept.push (h : Kept t toasts now) (hnow : toast.created = now) :
    Kept (t.push toast) (toasts ++ [toast]) now := by
  obtain ⟨gone, hsplit, hgone⟩ := h.missing
  refine ⟨⟨gone.rtake (4 - t.queue.length), ?_, ?_⟩, ?_, ?_⟩
  · calc (toasts ++ [toast]).rtake capacity
        = toasts.rtake 4 ++ [toast] := List.rtake_concat_succ toasts 4 toast
      _ = (toasts.rtake capacity).rtake 4 ++ [toast] := by rw [rtake_rtake toasts (by decide)]
      _ = (gone ++ t.queue).rtake 4 ++ [toast] := by rw [hsplit]
      _ = gone.rtake (4 - t.queue.length) ++ (t.queue.rtake 4 ++ [toast]) := by
          rw [rtake_append, List.append_assoc]
      _ = gone.rtake (4 - t.queue.length) ++ (t.queue ++ [toast]).rtake capacity := by
          rw [← List.rtake_concat_succ]
          rfl
  · exact fun toast htoast => hgone toast (List.mem_of_mem_drop htoast)
  · refine List.pairwise_append.2 ⟨h.aged, List.pairwise_singleton _ _, ?_⟩
    intro older holder newer hnewer
    rw [List.mem_singleton.1 hnewer, hnow]
    exact h.past older holder
  · intro older holder
    rcases List.mem_append.1 holder with holder | holder
    · exact h.past older holder
    · rw [List.mem_singleton.1 holder, hnow]

/-- What a look drops is a front part of the queue. -/
theorem Kept.look (h : Kept t toasts now) : Kept (t.visibleAt now) toasts now := by
  obtain ⟨gone, hsplit, hgone⟩ := h.missing
  have hqueue : Aged t.queue := by
    have hnewest : Aged (toasts.rtake capacity) := h.aged.sublist (List.drop_sublist _ _)
    rw [hsplit] at hnewest
    exact (List.pairwise_append.1 hnewest).2.1
  obtain ⟨expired, hlive, hexpired⟩ := exists_expired t now hqueue
  refine ⟨⟨gone ++ expired, ?_, ?_⟩, h.aged, h.past⟩
  · calc toasts.rtake capacity
        = gone ++ t.queue := hsplit
      _ = gone ++ (expired ++ t.queue.filter (t.isLive now)) := by rw [← hlive]
      _ = (gone ++ expired) ++ (t.visibleAt now).queue := (List.append_assoc _ _ _).symm
  · intro toast htoast
    rcases List.mem_append.1 htoast with htoast | htoast
    · exact hgone toast htoast
    · exact hexpired toast htoast

/-- What is missing would not be shown. -/
private theorem Kept.shows (h : Kept t toasts now) :
    (t.visibleAt now).queue = (toasts.rtake capacity).filter (t.isLive now) := by
  obtain ⟨gone, hsplit, hgone⟩ := h.missing
  have hnone : gone.filter (t.isLive now) = [] :=
    List.filter_eq_nil_iff.2 fun toast htoast => by simp [hgone toast htoast]
  rw [hsplit, List.filter_append, hnone]
  rfl

-- =================================================================== runs

theorem run_concat (lifetime : Nat) (calls : List Timed) (c : Timed) :
    run lifetime (calls ++ [c]) = (run lifetime calls).after c := List.foldl_concat ..

/-- Every call keeps the last toasts that are alive. -/
theorem Kept.after (h : Kept t toasts now) (call : Call) :
    Kept (t.after ⟨now, call⟩) (toasts ++ (Timed.toast? ⟨now, call⟩).toList) now := by
  cases call with
  | push severity message => exact h.push rfl
  | look =>
      show Kept (t.visibleAt now) (toasts ++ []) now
      rw [List.append_nil]
      exact h.look

theorem lifetime_run (lifetime : Nat) (calls : List Timed) :
    (run lifetime calls).lifetime = lifetime := by
  induction calls using List.reverseRecOn with
  | nil => rfl
  | append_singleton calls c ih =>
      obtain ⟨time, call⟩ := c
      rw [run_concat]
      cases call with
      | push severity message => exact ih
      | look => exact ih

/-- So does a history in order. -/
theorem kept_run (lifetime : Nat) (horder : InOrder calls) (hnow : ∀ c ∈ calls, c.time ≤ now) :
    Kept (run lifetime calls) (pushed calls) now := by
  induction calls using List.reverseRecOn generalizing now with
  | nil => exact kept_empty lifetime now
  | append_singleton calls c ih =>
      obtain ⟨horder, -, hlast⟩ := List.pairwise_append.1 horder
      have hbefore := ih horder fun b hb => hlast b hb c (List.mem_singleton_self c)
      have hpushed : pushed (calls ++ [c]) = pushed calls ++ (Timed.toast? c).toList := by
        unfold pushed
        rw [List.filterMap_append]
        cases h : Timed.toast? c <;> simp [h]
      rw [run_concat, hpushed]
      exact (hbefore.after c.call).mono (hnow c (by simp))

/-- Whatever was pushed and whoever has looked before, a look shows the live
ones of the five newest toasts, oldest first. So two queues that were given
the same toasts show the same, however often each was looked at. -/
theorem shows_newest_live (lifetime now : Nat) (calls : List Timed)
    (h : InOrder (calls ++ [⟨now, .look⟩])) :
    ((run lifetime calls).visibleAt now).queue
        = ((pushed calls).rtake 5).filter (fun toast => now - toast.created < lifetime)
      ∧ ∀ others, InOrder (others ++ [⟨now, .look⟩]) → pushed others = pushed calls →
          ((run lifetime others).visibleAt now).queue
            = ((run lifetime calls).visibleAt now).queue := by
  have hshows : ∀ calls, InOrder (calls ++ [⟨now, .look⟩]) →
      ((run lifetime calls).visibleAt now).queue
        = ((pushed calls).rtake 5).filter (fun toast => now - toast.created < lifetime) := by
    intro calls h
    obtain ⟨horder, -, hlast⟩ := List.pairwise_append.1 h
    have hnow : ∀ c ∈ calls, c.time ≤ now := fun c hc => hlast c hc _ (List.mem_singleton_self _)
    have hlive := lifetime_run lifetime calls
    rw [(kept_run lifetime horder hnow).shows]
    unfold isLive
    rw [hlive]
    rfl
  refine ⟨hshows calls h, fun others hothers hsame => ?_⟩
  rw [hshows others hothers, hshows calls h, hsame]

/-- Six toasts, and a look for which the first of them is too old. -/
def sixToasts : List Timed :=
  [⟨0, .push .info "connected"⟩, ⟨900, .push .warning "slow"⟩, ⟨2000, .look⟩,
   ⟨2000, .push .error "lost"⟩, ⟨2100, .push .info "retry"⟩, ⟨2200, .push .info "again"⟩,
   ⟨2300, .push .success "back"⟩]

/-- The last toast finds room where without the look it would push out the
first one; both queues show the same. -/
theorem shows_newest_live_of_six :
    InOrder (sixToasts ++ [⟨2500, .look⟩])
      ∧ ((run 2000 sixToasts).visibleAt 2500).queue
        = [⟨.warning, "slow", 900⟩, ⟨.error, "lost", 2000⟩, ⟨.info, "retry", 2100⟩,
           ⟨.info, "again", 2200⟩, ⟨.success, "back", 2300⟩]
      ∧ ((run 2000 (sixToasts.eraseIdx 2)).visibleAt 2500).queue
        = ((run 2000 sixToasts).visibleAt 2500).queue := by
  have horder : InOrder (sixToasts ++ [⟨2500, .look⟩]) := by decide
  obtain ⟨hshown, hothers⟩ := shows_newest_live 2000 2500 sixToasts horder
  exact ⟨horder, hshown.trans (by decide), hothers (sixToasts.eraseIdx 2) (by decide) (by decide)⟩

end VideoWall.Toasts
