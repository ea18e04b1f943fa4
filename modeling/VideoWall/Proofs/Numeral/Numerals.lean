/-
What numerals are made of.

- `plain_of_readFloat`: what is read as a double holds neither white space
  nor a comma, wherever it comes from, so a numeral can be cut out of a
  line and trimmed without harm.
- `readNat_digits`: decimal digits are read as the number that they write,
  with any number of noughts in front, up to the bound.
-/
import VideoWall.Proofs.Playlist.Clock
import VideoWall.Text.Blank

namespace VideoWall.Numeral

open Playlist Text

variable {c : Char} {s rest numeral : List Char} {bound acc n count : Nat}

-- ============================================================ characters

/-- Neither white space nor a comma. -/
def IsPlain (c : Char) : Prop := isBlank c = false ∧ c ≠ ','

instance : DecidablePred IsPlain := fun c =>
  inferInstanceAs (Decidable (isBlank c = false ∧ c ≠ ','))

/-- Blanks have no other case. -/
private theorem toLower_of_isBlank (h : isBlank c = true) : c.toLower = c := by
  unfold Char.toLower
  rw [dif_neg]
  rintro ⟨hlow, hhigh⟩
  have hlow' : 65 ≤ c.toNat := hlow
  have hhigh' : c.toNat ≤ 90 := hhigh
  simp only [isBlank, Bool.or_eq_true, Bool.and_eq_true, decide_eq_true_eq, beq_iff_eq] at h
  omega

/-- A word is plain, in whatever case it is written, if its small letters
are. -/
private theorem plain_of_toLower {word : List Char} (hword : word.all (IsPlain ·) = true)
    (h : s.map Char.toLower = word) : ∀ c ∈ s, IsPlain c := by
  intro c hc
  have hmem : c.toLower ∈ word := h ▸ List.mem_map_of_mem hc
  have hlower : IsPlain c.toLower := of_decide_eq_true (List.all_eq_true.1 hword _ hmem)
  refine ⟨?_, ?_⟩
  · rw [Bool.eq_false_iff]
    intro hblank
    rw [toLower_of_isBlank hblank] at hlower
    exact absurd hblank (by simp [hlower.1])
  · rintro rfl
    exact hlower.2 rfl

theorem plain_of_digit {d : Nat} (h : digit? c = some d) : IsPlain c := by
  unfold digit? at h
  split at h
  case isTrue hdigit =>
    rw [Bool.and_eq_true, decide_eq_true_iff, decide_eq_true_iff] at hdigit
    have hlow : 48 ≤ c.toNat := hdigit.1
    have hhigh : c.toNat ≤ 57 := hdigit.2
    refine ⟨?_, ?_⟩
    · simp only [isBlank, Bool.or_eq_false_iff, Bool.and_eq_false_iff, decide_eq_false_iff_not,
        beq_eq_false_iff_ne]
      omega
    · rintro rfl
      exact absurd hlow (by decide)
  case isFalse => cases h

-- ============================================================== doubles

/-- What digits are taken from is plain if what is left is. -/
theorem plain_of_takeDigits (h : takeDigits acc count s = (n, bound, rest))
    (hrest : ∀ c ∈ rest, IsPlain c) : ∀ c ∈ s, IsPlain c := by
  induction s generalizing acc count with
  | nil => simp
  | cons a s ih =>
      unfold takeDigits at h
      cases hdigit : digit? a with
      | none =>
          rw [hdigit] at h
          cases h
          exact hrest
      | some d =>
          rw [hdigit] at h
          exact List.forall_mem_cons.2 ⟨plain_of_digit hdigit, ih h⟩

/-- An exponent is a letter, maybe a sign, and digits. -/
private theorem plain_of_exponent {e : Int} (h : exponent? s = some e) : ∀ c ∈ s, IsPlain c := by
  cases s with
  | nil => simp
  | cons a s =>
      unfold exponent? at h
      dsimp only at h
      split at h
      case isFalse => cases h
      case isTrue hletter =>
        have ha : IsPlain a := by
          rcases hletter with rfl | rfl
          · decide
          · decide
        refine List.forall_mem_cons.2 ⟨ha, ?_⟩
        split at h
        case h_1 => cases h
        case h_2 hdigits =>
          have hbody := plain_of_takeDigits hdigits (by simp)
          split at hbody
          case h_1 => exact List.forall_mem_cons.2 ⟨by decide, hbody⟩
          case h_2 => exact List.forall_mem_cons.2 ⟨by decide, hbody⟩
          case h_3 => exact hbody
        case h_3 => cases h

/-- A text that is a number has plain characters only. -/
private theorem plain_of_literal {l : Literal} (h : literal? s = some l) : ∀ c ∈ s, IsPlain c := by
  unfold literal? at h
  dsimp only at h
  split at h
  case isTrue hword => exact plain_of_toLower (by decide) hword
  case isFalse =>
    split at h
    case isTrue hword =>
      rcases hword with hword | hword
      · exact plain_of_toLower (by decide) hword
      · exact plain_of_toLower (by decide) hword
    case isFalse =>
      rw [Option.ite_none_left_eq_some, Option.map_eq_some_iff] at h
      obtain ⟨-, e, hexponent, -⟩ := h
      have hrest := plain_of_exponent hexponent
      obtain ⟨⟨whole, wholeCount, behind⟩, hwhole⟩ : ∃ t, takeDigits 0 0 s = t := ⟨_, rfl⟩
      rw [hwhole] at hrest
      refine plain_of_takeDigits hwhole ?_
      dsimp only at hrest
      split at hrest
      case h_1 fraction =>
        exact List.forall_mem_cons.2 ⟨by decide, plain_of_takeDigits rfl hrest⟩
      case h_2 => exact hrest

/-- A numeral that is read as a double is plain. -/
theorem plain_of_readFloat {x : Float} (h : readFloat numeral = .ok x) :
    numeral ≠ [] ∧ ∀ c ∈ numeral, IsPlain c := by
  obtain ⟨negative, l, hl, -⟩ := readFloat_eq h
  have hbody := plain_of_literal hl
  refine ⟨?_, ?_⟩
  · rintro rfl
    cases h
  · unfold unsigned at hbody
    split at hbody
    case h_1 => exact List.forall_mem_cons.2 ⟨by decide, hbody⟩
    case h_2 => exact List.forall_mem_cons.2 ⟨by decide, hbody⟩
    case h_3 => exact hbody

-- ======================================================= natural numbers

theorem digit?_of_isDigit (h : c.isDigit = true) : digit? c = some (c.toNat - '0'.toNat) := by
  have hdigit : ('0' ≤ c && c ≤ '9') = true := h
  unfold digit?
  rw [if_pos hdigit]

/-- Each digit more makes a number no smaller. -/
theorem le_ofDigitChars (digits : List Char) (acc : Nat) :
    acc ≤ Nat.ofDigitChars 10 digits acc := by
  induction digits generalizing acc with
  | nil => exact Nat.le_refl acc
  | cons c rest ih =>
      have hstep := ih (10 * acc + (c.toNat - '0'.toNat))
      unfold Nat.ofDigitChars at hstep ⊢
      rw [List.foldl_cons]
      omega

/-- Digits of a number within the bound are read as that number. -/
private theorem digitsWithin_eq {beyond : IntegerError} {digits : List Char}
    (hdigits : ∀ c ∈ digits, c.isDigit = true)
    (hbound : Nat.ofDigitChars 10 digits acc ≤ bound) :
    digitsWithin bound beyond acc digits = .ok (Nat.ofDigitChars 10 digits acc) := by
  induction digits generalizing acc with
  | nil => rfl
  | cons c rest ih =>
      have hfold : Nat.ofDigitChars 10 (c :: rest) acc
          = Nat.ofDigitChars 10 rest (acc * 10 + (c.toNat - '0'.toNat)) := by
        unfold Nat.ofDigitChars
        rw [List.foldl_cons, Nat.mul_comm]
      rw [hfold] at hbound ⊢
      have hstep := (le_ofDigitChars rest _).trans hbound
      unfold digitsWithin
      rw [digit?_of_isDigit (hdigits c List.mem_cons_self)]
      dsimp only
      rw [if_pos hstep]
      exact ih (fun d hd => hdigits d (List.mem_cons_of_mem c hd)) hbound

/-- Decimal digits are read as the number that they write. -/
theorem readNat_digits {digits : List Char} (hne : digits ≠ [])
    (hdigits : ∀ c ∈ digits, c.isDigit = true) (hbound : Nat.ofDigitChars 10 digits 0 ≤ bound) :
    readNat bound digits = .ok (Nat.ofDigitChars 10 digits 0) := by
  have hread : digitsWithin bound .tooLarge 0 digits = .ok (Nat.ofDigitChars 10 digits 0) :=
    digitsWithin_eq hdigits hbound
  unfold readNat
  split
  case h_1 => exact absurd rfl hne
  case h_2 => exact absurd (hdigits '+' List.mem_cons_self) (by decide)
  case h_3 => exact absurd (hdigits '-' List.mem_cons_self) (by decide)
  case h_4 => exact absurd (hdigits '+' List.mem_cons_self) (by decide)
  case h_5 => exact hread

end VideoWall.Numeral
