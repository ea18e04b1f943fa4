/-
A feed and the numbers of its sessions.

# What is told of a feed

A beginning gives out a number, and whoever polls brings outcomes under
it. `Ledger` keeps, beside a feed, what its users know of those numbers:
the ones that were given out, and the one whose session has begun and not
ended since.

# The law

A feed compares numbers and does nothing else: it takes an outcome just
when the number is the count of beginnings and ends so far. Among the
numbers that were given out that is the one in force, if there is one
(`Ledger.Discerns`). A number that nobody was given may be that count as
well, as nought is before anything has begun.
-/
import VideoWall.Proofs.Polling.Sessions

namespace VideoWall.Polling.Feed

open Recorder

variable {f : Feed} {n errors : Nat} {outcome : Except String (List Detection)}

-- ============================================================ one outcome

/-- What a reader gets to see of a feed. -/
structure Shown where
  detections : List Detection
  generation : Nat
  errors : Nat
  lastError : Option String

/-- What is shown of a feed. -/
def shown (f : Feed) : Shown := ⟨f.detections, f.generation, f.errors, f.lastError⟩

/-- A reader does not see that a session begins. -/
theorem shown_begin (f : Feed) : f.begin.shown = f.shown := rfl

/-- An outcome is taken just when it comes under the feed's own number. -/
theorem apply_taken_iff : (f.apply n outcome errors).2 = true ↔ n = f.session := by
  by_cases h : f.session = n
  · exact ⟨fun _ => h.symm, fun _ => (apply_of_eq h outcome errors).1⟩
  · rw [apply_of_ne h]
    exact ⟨fun htaken => absurd htaken Bool.false_ne_true, fun heq => absurd heq.symm h⟩

/-- An outcome that is refused leaves the feed as it is. -/
theorem apply_refused (h : (f.apply n outcome errors).2 = false) :
    (f.apply n outcome errors).1 = f := by
  rw [apply_of_ne]
  rintro rfl
  rw [(apply_of_eq rfl outcome errors).1] at h
  cases h

/-- An outcome that is taken is one more change of what is shown. -/
theorem generation_apply (h : (f.apply n outcome errors).2 = true) :
    (f.apply n outcome errors).1.generation = f.generation + 1 := by
  have hsession : f.session = n := (apply_taken_iff.1 h).symm
  unfold apply
  rw [if_pos (by simpa [accepts] using hsession)]
  cases outcome with
  | ok detections => rfl
  | error message => rfl

-- =============================================================== ledgers

/-- What is done to a feed. -/
inductive Deed where
  | begin
  | finish
  | apply (session : Nat) (outcome : Except String (List Detection)) (errors : Nat)

/-- A feed, with the numbers that its beginnings have given out, the number
of the session that has begun and not ended, and how many beginnings and
ends there were. -/
structure Ledger where
  feed : Feed := {}
  issued : List Nat := []
  inForce : Option Nat := none
  turns : Nat := 0

namespace Ledger

variable {l : Ledger}

/-- What becomes of the ledger. -/
def after (l : Ledger) : Deed → Ledger
  | .begin =>
      ⟨l.feed.begin, l.feed.begin.session :: l.issued, some l.feed.begin.session, l.turns + 1⟩
  | .finish => ⟨l.feed.finish, l.issued, none, l.turns + 1⟩
  | .apply session outcome errors => { l with feed := (l.feed.apply session outcome errors).1 }

/-- Deeds, one after the other, on a new feed. -/
def run (deeds : List Deed) : Ledger := deeds.foldl after {}

/-- The feed counts the turns, and the number in force, if there is one, is
the last that was given out. -/
structure Sound (l : Ledger) : Prop where
  session : l.feed.session = l.turns
  inForce : ∀ n, l.inForce = some n → n = l.turns
  issued : ∀ n ∈ l.issued, n = l.turns → l.inForce = some n
  past : ∀ n ∈ l.issued, n ≤ l.turns

/-- A new ledger is sound. -/
theorem sound_new : ({} : Ledger).Sound := by
  refine ⟨rfl, ?_, ?_, ?_⟩
  · intro n hn
    cases hn
  · intro n hn
    cases hn
  · intro n hn
    cases hn

/-- Every deed keeps the ledger sound. -/
theorem Sound.after (h : l.Sound) (d : Deed) : (l.after d).Sound := by
  cases d with
  -- the number grows with each beginning and each end, so no number comes twice
  | begin =>
      have hnumber : l.feed.begin.session = l.turns + 1 := congrArg (· + 1) h.session
      refine ⟨hnumber, ?_, ?_, ?_⟩
      · intro n hn
        cases hn
        exact hnumber
      · intro n _ hn
        exact congrArg some (hnumber.trans hn.symm)
      · intro n hn
        rcases List.mem_cons.1 hn with rfl | hold
        · exact Nat.le_of_eq hnumber
        · exact Nat.le_succ_of_le (h.past n hold)
  | finish =>
      refine ⟨?_, ?_, ?_, fun n hn => Nat.le_succ_of_le (h.past n hn)⟩
      · show l.feed.finish.session = l.turns + 1
        rw [session_finish, h.session]
      · intro n hn
        cases hn
      · intro n hn heq
        have hpast := h.past n hn
        have hturns : n = l.turns + 1 := heq
        omega
  | apply session outcome errors =>
      refine ⟨?_, h.inForce, h.issued, h.past⟩
      show (l.feed.apply session outcome errors).1.session = l.turns
      rw [← h.session]
      by_cases hs : l.feed.session = session
      · rw [(apply_of_eq hs outcome errors).2, hs]
      · rw [apply_of_ne hs]

/-- The ledger of a run is sound. -/
theorem sound_run (deeds : List Deed) : (run deeds).Sound := by
  suffices hall : ∀ l : Ledger, l.Sound → (deeds.foldl after l).Sound from hall {} sound_new
  induction deeds with
  | nil => exact fun l hl => hl
  | cons d later ih => exact fun l hl => ih (l.after d) (hl.after d)

/-- How a feed tells outcomes apart: by the count of its turns, which among
the numbers that it gave out is the one in force. What it takes it shows,
and what it refuses leaves no trace. -/
structure Discerns (l : Ledger) : Prop where
  counted : ∀ n outcome errors, (l.feed.apply n outcome errors).2 = true ↔ n = l.turns
  issued : ∀ n ∈ l.issued, ∀ outcome errors,
    (l.feed.apply n outcome errors).2 = true ↔ l.inForce = some n
  taken : ∀ n outcome errors, (l.feed.apply n outcome errors).2 = true →
    (l.feed.apply n outcome errors).1.shown ≠ l.feed.shown
  refused : ∀ n outcome errors, (l.feed.apply n outcome errors).2 = false →
    (l.feed.apply n outcome errors).1 = l.feed

/-- The ledger of a run tells its sessions apart. -/
theorem discerns_run (deeds : List Deed) : (run deeds).Discerns := by
  have h := sound_run deeds
  have hcounted : ∀ n outcome errors,
      ((run deeds).feed.apply n outcome errors).2 = true ↔ n = (run deeds).turns := by
    intro n outcome errors
    rw [apply_taken_iff, h.session]
  refine ⟨hcounted, ?_, ?_, fun n outcome errors => apply_refused⟩
  · intro n hn outcome errors
    rw [hcounted]
    exact ⟨h.issued n hn, h.inForce n⟩
  · intro n outcome errors htaken heq
    have hgeneration := congrArg Shown.generation heq
    have hnext := generation_apply htaken
    have hsame : ((run deeds).feed.apply n outcome errors).1.generation
        = (run deeds).feed.generation := hgeneration
    omega

/-- A number that nobody was given may be taken: nought, by a feed on which
no session has begun. -/
theorem unissued_taken :
    ¬ ∀ (deeds : List Deed) (n : Nat) (outcome : Except String (List Detection)) (errors : Nat),
        ((run deeds).feed.apply n outcome errors).2 = true ↔ (run deeds).inForce = some n := by
  intro hall
  have htaken : ((run []).feed.apply 0 (.ok []) 0).2 = true := rfl
  have hforce := (hall [] 0 (.ok []) 0).1 htaken
  cases hforce

end Ledger

end VideoWall.Polling.Feed
