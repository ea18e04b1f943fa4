/-
What the generation of a feed tells its readers.

# The generation as a version

A reader who has seen a feed under some generation would like to know what
it shows without looking, as long as the generation is the same. For the
detections he may: they change with the generation only. The count of
failures and the last error do as well while a session goes on. But the end
of a session sets them back, and it is counted as a change only when there
are detections to drop (`Feed.finish`).

# What stands still

A deed moves the generation on, or it leaves everything that is shown
alone, apart from the failures that an end forgets (`Ledger.rises_or_shown`).
So what is shown under one generation is known from what was shown and
whether a session ended (`Shown.spent`); by induction on the deeds in
between this holds of any two moments (`generations_tell`).
-/
import VideoWall.Proofs.Polling.Feeds

namespace VideoWall.Polling.Feed

open Recorder

-- ============================================================= one deed

/-- What is shown, with the failures forgotten. -/
def Shown.pardoned (s : Shown) : Shown := { s with errors := 0, lastError := none }

/-- Whether a deed ends a session. -/
def Deed.ends : Deed → Bool
  | .finish => true
  | _ => false

/-- What is left of what was shown after some deeds that are not counted as
changes. -/
def Shown.spent (s : Shown) (deeds : List Deed) : Shown :=
  if deeds.any Deed.ends then s.pardoned else s

/-- Without detections the end of a session is not counted, and forgets the
failures. -/
theorem shown_finish_of_nil {f : Feed} (h : f.detections = []) :
    f.finish.shown = f.shown.pardoned := by
  unfold finish
  dsimp only
  rw [if_pos (List.isEmpty_iff.2 h)]
  rfl

/-- Detections that are cleared are a change. -/
private theorem generation_finish_of_ne {f : Feed} (h : f.detections ≠ []) :
    f.finish.generation = f.generation + 1 := by
  unfold finish
  dsimp only
  rw [if_neg (by simpa using h)]

namespace Ledger

variable {l : Ledger} {d : Deed} {deeds later : List Deed}

/-- A deed is counted as a change, or changes nothing but that an end
forgets the failures. -/
theorem rises_or_shown (l : Ledger) (d : Deed) :
    (l.after d).feed.generation = l.feed.generation + 1
      ∨ (l.after d).feed.shown = l.feed.shown.spent [d] := by
  cases d with
  | begin => exact Or.inr rfl
  | finish =>
      by_cases h : l.feed.detections = []
      · exact Or.inr (shown_finish_of_nil h)
      · exact Or.inl (generation_finish_of_ne h)
  | apply session outcome errors =>
      cases htaken : (l.feed.apply session outcome errors).2 with
      | true => exact Or.inl (generation_apply htaken)
      | false => exact Or.inr (congrArg shown (apply_refused htaken))

-- ============================================================ many deeds

/-- Time that is spent changes nothing shown. -/
theorem generation_spent (s : Shown) (deeds : List Deed) :
    (s.spent deeds).generation = s.generation := by
  unfold Shown.spent
  split
  · rfl
  · rfl

/-- What is left after some deeds is what is left of it after the others. -/
theorem spent_cons (s : Shown) (d : Deed) (later : List Deed) :
    s.spent (d :: later) = (s.spent [d]).spent later := by
  cases h : d.ends with
  | true => simp [Shown.spent, h, Shown.pardoned]
  | false => simp [Shown.spent, h]

/-- Generations never go down. -/
theorem le_generation (l : Ledger) (later : List Deed) :
    l.feed.generation ≤ (later.foldl after l).feed.generation := by
  induction later generalizing l with
  | nil => exact Nat.le_refl _
  | cons d later ih =>
      refine Nat.le_trans ?_ (ih (l.after d))
      rcases l.rises_or_shown d with hrises | hshown
      · omega
      · apply Nat.le_of_eq
        exact (generation_spent l.feed.shown [d]).symm.trans
          (congrArg Shown.generation hshown).symm

/-- Under one generation a feed shows what it showed, less the failures if
a session has ended. -/
private theorem shown_of_generation (l : Ledger) (later : List Deed)
    (h : (later.foldl after l).feed.generation = l.feed.generation) :
    (later.foldl after l).feed.shown = l.feed.shown.spent later := by
  induction later generalizing l with
  | nil => rfl
  | cons d later ih =>
      have hlater := le_generation (l.after d) later
      have hsame : (later.foldl after (l.after d)).feed.generation = l.feed.generation := h
      rcases l.rises_or_shown d with hrises | hshown
      · -- a change that was counted is not taken back
        omega
      · have hstill : (l.after d).feed.generation = l.feed.generation :=
          (congrArg Shown.generation hshown).trans (generation_spent l.feed.shown [d])
        calc ((d :: later).foldl after l).feed.shown
            = (l.after d).feed.shown.spent later := ih (l.after d) (hsame.trans hstill.symm)
          _ = (l.feed.shown.spent [d]).spent later := by rw [hshown]
          _ = l.feed.shown.spent (d :: later) := (spent_cons _ d later).symm

/-- How two moments of a feed with some deeds in between compare. The
generation never falls. If it is the same, the detections are, and all that
is shown is except where a session that ended in between had failures. -/
structure Compares (earlier later : Feed) (between : List Deed) : Prop where
  rises : earlier.generation ≤ later.generation
  detections : later.generation = earlier.generation → later.detections = earlier.detections
  forgotten : later.generation = earlier.generation → between.any Deed.ends = true →
    later.errors = 0 ∧ later.lastError = none
  same_iff : later.generation = earlier.generation →
    (later.shown = earlier.shown
      ↔ (between.any Deed.ends = true → earlier.errors = 0 ∧ earlier.lastError = none))

/-- Whatever is done to a feed, any two moments of it compare in this way. -/
theorem generations_tell (deeds later : List Deed) :
    Compares (run deeds).feed (run (deeds ++ later)).feed later := by
  have hrun : run (deeds ++ later) = later.foldl after (run deeds) := List.foldl_append ..
  rw [hrun]
  refine ⟨le_generation (run deeds) later, fun h => ?_, fun h hends => ?_, fun h => ?_⟩
  · have hshown := congrArg Shown.detections (shown_of_generation (run deeds) later h)
    unfold Shown.spent at hshown
    split at hshown
    · exact hshown
    · exact hshown
  · have hshown := shown_of_generation (run deeds) later h
    unfold Shown.spent at hshown
    rw [if_pos hends] at hshown
    exact ⟨congrArg Shown.errors hshown, congrArg Shown.lastError hshown⟩
  · rw [shown_of_generation (run deeds) later h]
    unfold Shown.spent
    split
    case isTrue hends =>
      constructor
      · intro hsame _
        exact ⟨(congrArg Shown.errors hsame).symm, (congrArg Shown.lastError hsame).symm⟩
      · intro hclear
        obtain ⟨herrors, hlast⟩ := hclear hends
        show (⟨_, _, 0, none⟩ : Shown) = ⟨_, _, (run deeds).feed.errors, (run deeds).feed.lastError⟩
        rw [herrors, hlast]
        rfl
    case isFalse hends => exact ⟨fun _ hends' => absurd hends' hends, fun _ => rfl⟩

/-- The generation is no version of the failures: a session that has only
failed ends without being counted as a change. -/
theorem failures_uncounted :
    ¬ ∀ deeds later : List Deed,
        (run (deeds ++ later)).feed.generation = (run deeds).feed.generation →
        (run (deeds ++ later)).feed.shown = (run deeds).feed.shown := by
  intro hall
  have hsame := hall [.begin, .apply 1 (.error "unreachable") 1] [.finish] rfl
  have herrors : (0 : Nat) = 1 := congrArg Shown.errors hsame
  cases herrors

end Ledger

end VideoWall.Polling.Feed
