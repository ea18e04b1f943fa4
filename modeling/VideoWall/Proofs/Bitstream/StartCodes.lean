/-
Parameter sets seen in a stream of units.

# What a stream may be

Units stand one after the other, each behind a start code of three bytes
or of four (`StartCode`, `delimited`). A unit is not empty and holds no
start code of its own (`IsUnit`). It may end in zeros, which then run into
the zeros of the next code.

# What the search finds

The bytes of a start code are found only where one was written. None is
inside a unit, and one that began in a unit and ended behind it would end
in a one where the next code still has its zeros
(`carriesParameterSets_append`). So the search goes through units and
looks at the one byte behind each code (`carriesParameterSets_code`).
-/
import Mathlib.Data.List.Infix
import VideoWall.Bitstream.Annexb

namespace VideoWall.Bitstream.Annexb

-- =============================================================== streams

/-- How the beginning of a unit is marked. -/
inductive StartCode where
  | short
  | long
  deriving DecidableEq

/-- The bytes of a start code. -/
def StartCode.bytes : StartCode → List UInt8
  | .short => [0, 0, 1]
  | .long => startCode

/-- Units, each behind a start code. -/
def delimited (pieces : List (StartCode × List UInt8)) : List UInt8 :=
  pieces.flatMap fun piece => piece.1.bytes ++ piece.2

/-- Bytes that can stand behind a start code. -/
structure IsUnit (unit : List UInt8) : Prop where
  nonempty : unit ≠ []
  unmarked : ¬ StartCode.short.bytes <:+: unit

/-- Whether the first byte of a unit has the type of sequence parameters in
its five lower bits. -/
def HoldsParameters (unit : List UInt8) : Prop := ∃ b ∈ unit.head?, b.toNat % 32 = 7

variable {unit rest : List UInt8} {pieces : List (StartCode × List UInt8)}

/-- The type of sequence parameters is told by five bits. -/
theorem unitType_eq_iff (b : UInt8) : unitType b = parameterType ↔ b.toNat % 32 = 7 := by
  have hmasked : (unitType b).toNat = b.toNat % 32 := by
    unfold unitType
    rw [UInt8.toNat_and]
    exact Nat.and_two_pow_sub_one_eq_mod b.toNat 5
  rw [← UInt8.toNat_inj, hmasked]
  rfl

-- ============================================================ the search

/-- What follows a unit: nothing, or a start code, which begins with two
zeros. -/
def Follows (rest : List UInt8) : Prop := rest = [] ∨ ∃ tail, rest = 0 :: 0 :: tail

/-- Units with their start codes may follow any unit. -/
theorem follows_delimited (pieces : List (StartCode × List UInt8)) :
    Follows (delimited pieces) := by
  cases pieces with
  | nil => exact Or.inl rfl
  | cons piece later =>
      obtain ⟨code, unit⟩ := piece
      cases code with
      | short => exact Or.inr ⟨_, rfl⟩
      | long => exact Or.inr ⟨_, rfl⟩

/-- Where no start code begins, the search goes on with the next byte. -/
theorem carriesParameterSets_cons {a : UInt8}
    (h : ∀ tail, ¬ (a = 0 ∧ rest = 0 :: 1 :: tail)) :
    carriesParameterSets (a :: rest) = carriesParameterSets rest := by
  rw [carriesParameterSets, Bool.false_or]
  intro b tail ha hrest
  exact h (b :: tail) ⟨ha, hrest⟩

/-- Behind a start code the search looks at one byte, and goes on there. -/
private theorem carriesParameterSets_code (code : StartCode) (b : UInt8) (tail : List UInt8) :
    carriesParameterSets (code.bytes ++ b :: tail)
      = (unitType b == parameterType || carriesParameterSets (b :: tail)) := by
  have hshort : carriesParameterSets (0 :: 0 :: 1 :: b :: tail)
      = (unitType b == parameterType || carriesParameterSets (b :: tail)) := by
    rw [carriesParameterSets, carriesParameterSets_cons (by simp),
      carriesParameterSets_cons (by simp)]
  cases code with
  | short => exact hshort
  | long =>
      show carriesParameterSets (0 :: 0 :: 0 :: 1 :: b :: tail) = _
      rw [carriesParameterSets_cons (by simp), hshort]

/-- The search finds nothing in a unit, nor across its end. -/
theorem carriesParameterSets_append (hunit : ¬ StartCode.short.bytes <:+: unit)
    (hrest : Follows rest) :
    carriesParameterSets (unit ++ rest) = carriesParameterSets rest := by
  induction unit with
  | nil => rfl
  | cons a unit ih =>
      have hlater : ¬ StartCode.short.bytes <:+: unit := fun hin =>
        hunit (hin.trans (List.suffix_cons a unit).isInfix)
      show carriesParameterSets (a :: (unit ++ rest)) = _
      rw [carriesParameterSets_cons ?_, ih hlater]
      intro tail hcode
      obtain ⟨rfl, htail⟩ := hcode
      -- the one of the code is in the unit, or among the zeros behind it
      match unit, htail with
      | [], htail => rcases hrest with rfl | ⟨_, rfl⟩ <;> simp at htail
      | [_], htail => rcases hrest with rfl | ⟨_, rfl⟩ <;> simp at htail
      | b :: c :: later, htail =>
          obtain ⟨rfl, rfl, -⟩ : b = 0 ∧ c = 1 ∧ later ++ rest = tail := by simpa using htail
          exact hunit (List.prefix_append [0, 0, 1] later).isInfix

-- ============================================================= the stream

/-- A stream of units is found to carry parameter sets just when one of its
units has them. -/
theorem carriesParameterSets_delimited (h : ∀ piece ∈ pieces, IsUnit piece.2) :
    carriesParameterSets (delimited pieces) = true ↔ ∃ piece ∈ pieces, HoldsParameters piece.2 := by
  induction pieces with
  | nil => simp [delimited, carriesParameterSets]
  | cons piece later ih =>
      obtain ⟨hunit, hlater⟩ := List.forall_mem_cons.1 h
      obtain ⟨code, unit⟩ := piece
      obtain ⟨b, tail, rfl⟩ := List.exists_cons_of_ne_nil hunit.nonempty
      have hfirst : HoldsParameters (b :: tail) ↔ unitType b = parameterType := by
        rw [unitType_eq_iff]
        simp [HoldsParameters]
      have hstream : delimited ((code, b :: tail) :: later)
          = code.bytes ++ b :: (tail ++ delimited later) := by
        simp [delimited]
      have hpassed : carriesParameterSets (b :: (tail ++ delimited later))
          = carriesParameterSets (delimited later) :=
        carriesParameterSets_append hunit.unmarked (follows_delimited later)
      rw [hstream, carriesParameterSets_code, hpassed, Bool.or_eq_true, beq_iff_eq, ih hlater,
        ← hfirst, List.exists_mem_cons_iff]

/-- The parameters stand behind a short code that a unit ending in zeros
precedes. -/
theorem carriesParameterSets_delimited_of_zeros :
    (∀ piece ∈ [(StartCode.long, [0x09, 0, 0]), (.short, [0x67, 0x42, 0])], IsUnit piece.2)
      ∧ carriesParameterSets (delimited [(.long, [0x09, 0, 0]), (.short, [0x67, 0x42, 0])])
        = true := by
  have hunits : ∀ piece ∈ [(StartCode.long, [0x09, 0, 0]), (.short, [0x67, 0x42, 0])],
      IsUnit piece.2 := by
    simp only [List.forall_mem_cons]
    exact ⟨⟨by decide, by decide⟩, ⟨by decide, by decide⟩, by simp⟩
  exact ⟨hunits, (carriesParameterSets_delimited hunits).2
    ⟨(.short, [0x67, 0x42, 0]), by decide, 0x67, rfl, by decide⟩⟩

end VideoWall.Bitstream.Annexb
