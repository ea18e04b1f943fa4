/-
The waits that a playlist asks for. They come out of text that somebody
else has written, by way of doubles: the target duration is halved and
clamped, the duration of a segment is divided among its units, and the
result has to be a number of nanoseconds.

# What is shown

- `Media.reloadInterval?_eq`: the clamp keeps a NaN and nothing else that
  has no nanoseconds, so half of every other target duration is a wait
  from a quarter of a second to ten.
- `Segment.spacing?_isSome_iff`: the spacing drops a NaN but keeps what is
  too large, so it exists for every number of units just below the longest
  duration that there is.
- `targetDuration_isNaN_iff`: a text has a NaN for its target duration
  only by spelling it out in its last tag; the default never is one.
- `waits_of_text` puts these together, for every text that is a media
  playlist.
-/
import VideoWall.Playlist.Parser
import VideoWall.Proofs.Numeral.Quotients

namespace VideoWall.Playlist

open Numeral

variable {p : Media} {s : Segment} {x y : Float} {v w : ℚ} {m n : Nat} {e : Int}

-- ========================================================== nanoseconds

/-- The fraction that a scaled number is. -/
private theorem scale_eq (m : Nat) (e : Int) :
    0 < (Format.scale m 1 e).2
      ∧ ((Format.scale m 1 e).1 : ℚ) = value m e * (Format.scale m 1 e).2 := by
  unfold Format.scale
  split
  case isTrue h =>
    refine ⟨Nat.one_pos, ?_⟩
    obtain ⟨j, rfl⟩ := Int.eq_ofNat_of_zero_le h
    show ((m * 2 ^ j : Nat) : ℚ) = m * 2 ^ (j : Int) * (1 : Nat)
    rw [zpow_natCast]
    push_cast
    ring
  case isFalse h =>
    obtain ⟨j, rfl⟩ : ∃ j : Nat, e = -j := ⟨(-e).toNat, by omega⟩
    have hj : (- -(j : Int)).toNat = j := by omega
    show 0 < 1 * 2 ^ (- -(j : Int)).toNat
      ∧ (m : ℚ) = m * 2 ^ (-(j : Int)) * ((1 * 2 ^ (- -(j : Int)).toNat : Nat) : ℚ)
    rw [hj, zpow_neg, zpow_natCast]
    refine ⟨by positivity, ?_⟩
    push_cast
    rw [one_mul, mul_assoc, inv_mul_cancel₀ (by positivity), mul_one]

/-- The fraction that counts the nanoseconds of a number. -/
theorem scale_seconds (m : Nat) (e : Int) :
    0 < (Format.scale (m * 1000000000) 1 e).2
      ∧ ((Format.scale (m * 1000000000) 1 e).1 : ℚ)
        = value m e * 1000000000 * (Format.scale (m * 1000000000) 1 e).2 := by
  have hvalue : value (m * 1000000000) e = value m e * 1000000000 := by
    unfold value
    push_cast
    ring
  rw [← hvalue]
  exact scale_eq (m * 1000000000) e

/-- Rounding keeps between natural numbers what is between them. -/
theorem le_roundDiv {num den low : Nat} (hden : 0 < den) (h : low * den ≤ num) :
    low ≤ Format.roundDiv num den :=
  ((Nat.le_div_iff_mul_le hden).2 h).trans (div_le_roundDiv num den)

/-- Rounding stays within a bound that is kept before it. -/
private theorem roundDiv_le {num den high : Nat} (hden : 0 < den) (h : num ≤ high * den) :
    Format.roundDiv num den ≤ high := by
  have hsplit := Nat.div_add_mod num den
  unfold Format.roundDiv
  dsimp only
  rcases Nat.lt_or_ge (num / den) high with hlt | hge
  · split
    · omega
    · split
      · have hbit := Nat.mod_lt (num / den) (by decide : 0 < 2)
        omega
      · omega
  · have hmul : high * den ≤ den * (num / den) := by
      rw [Nat.mul_comm]
      exact Nat.mul_le_mul_left den hge
    have hmod : num % den = 0 := by omega
    rw [hmod, if_pos (by omega)]
    have heq : den * (num / den) = den * high := by
      rw [Nat.mul_comm den high]
      omega
    exact (Nat.eq_of_mul_eq_mul_left hden heq).le

/-- The nanoseconds of a number that is not too large. -/
theorem nanoseconds?_of_le {negative : Bool} (low high : Nat)
    (hread : readDouble x = .finite negative m e) (hsign : negative = true → m = 0)
    (hlow : (low : ℚ) ≤ value m e * 1000000000) (hhigh : value m e * 1000000000 ≤ high)
    (hmost : high < maxSeconds * 1000000000) :
    ∃ d, nanoseconds? x = some d ∧ low ≤ d ∧ d ≤ high := by
  obtain ⟨hden, hnum⟩ := scale_seconds m e
  unfold nanoseconds?
  rw [hread]
  dsimp only
  rw [if_neg (fun h => h.2 (hsign h.1))]
  generalize Format.scale (m * 1000000000) 1 e = fraction at hden hnum
  have hden' : (0 : ℚ) < fraction.2 := by exact_mod_cast hden
  have hle : low ≤ Format.roundDiv fraction.1 fraction.2 := by
    apply le_roundDiv hden
    have hq : (low : ℚ) * fraction.2 ≤ fraction.1 := by
      rw [hnum]
      exact mul_le_mul_of_nonneg_right hlow hden'.le
    exact_mod_cast hq
  have hge : Format.roundDiv fraction.1 fraction.2 ≤ high := by
    apply roundDiv_le hden
    have hq : (fraction.1 : ℚ) ≤ high * fraction.2 := by
      rw [hnum]
      exact mul_le_mul_of_nonneg_right hhigh hden'.le
    exact_mod_cast hq
  rw [if_pos (hge.trans_lt hmost)]
  exact ⟨_, rfl, hle, hge⟩

/-- A number that is too large has none. -/
private theorem nanoseconds?_of_large {negative : Bool}
    (hread : readDouble x = .finite negative m e)
    (hlarge : (maxSeconds : ℚ) ≤ value m e) : nanoseconds? x = none := by
  obtain ⟨hden, hnum⟩ := scale_seconds m e
  unfold nanoseconds?
  rw [hread]
  dsimp only
  split
  · rfl
  · generalize Format.scale (m * 1000000000) 1 e = fraction at hden hnum
    have hden' : (0 : ℚ) < fraction.2 := by exact_mod_cast hden
    have hge : maxSeconds * 1000000000 ≤ Format.roundDiv fraction.1 fraction.2 := by
      apply le_roundDiv hden
      have hq : ((maxSeconds * 1000000000 : Nat) : ℚ) * fraction.2 ≤ fraction.1 := by
        rw [hnum]
        push_cast
        exact mul_le_mul_of_nonneg_right (by linarith) hden'.le
      exact_mod_cast hq
    rw [if_neg (Nat.not_lt.2 hge)]

/-- A number below the longest duration is at least one below it: where its
places are finer than one it is far below. -/
private theorem value_le_of_lt (h : Canonical m e) (hlt : value m e < 2 ^ 64) :
    value m e ≤ 2 ^ 64 - 1 := by
  rcases Int.lt_or_le e 0 with hneg | hnonneg
  · have hshort : (m : ℚ) ≤ 2 ^ 53 := by exact_mod_cast h.short.le
    have hfine : (2 : ℚ) ^ e ≤ 1 := zpow_le_one_of_nonpos₀ (by norm_num) hneg.le
    calc value m e ≤ 2 ^ 53 * 1 := mul_le_mul hshort hfine (by positivity) (by norm_num)
      _ ≤ 2 ^ 64 - 1 := by norm_num
  · obtain ⟨j, rfl⟩ := Int.eq_ofNat_of_zero_le hnonneg
    have hnat : value m (j : Int) = ((m * 2 ^ j : Nat) : ℚ) := by
      unfold value
      rw [zpow_natCast]
      push_cast
      rfl
    rw [hnat] at hlt ⊢
    have hlt' : m * 2 ^ j < 2 ^ 64 := by exact_mod_cast hlt
    have hle : ((m * 2 ^ j : Nat) : ℚ) ≤ ((2 ^ 64 - 1 : Nat) : ℚ) := by
      exact_mod_cast Nat.le_sub_one_of_lt hlt'
    exact hle.trans (by norm_num)

/-- The doubles that are durations: nothing, and what is positive and not
too large. -/
theorem nanoseconds?_isSome_iff (x : Float) :
    (nanoseconds? x).isSome ↔ Within (2 ^ 64) (parts x) := by
  have hread := readDouble_eq x
  -- by the parts of the number, as the conversion reads them
  cases hx : parts x with
  | notANumber =>
      rw [hx] at hread
      change readDouble x = .nan at hread
      unfold nanoseconds?
      rw [hread]
      exact iff_of_false nofun (fun h => h)
  | infinity s =>
      rw [hx] at hread
      change readDouble x = .infinite (isNegative s) at hread
      unfold nanoseconds?
      rw [hread]
      exact iff_of_false nofun (fun h => h)
  | zero s =>
      rw [hx] at hread
      refine iff_of_true ?_ trivial
      have hnothing : value 0 (-1074) * 1000000000 = 0 := by
        unfold value
        simp
      obtain ⟨d, hd, -, -⟩ := nanoseconds?_of_le 0 0 hread (fun _ => rfl)
        (by rw [hnothing]; simp) (by rw [hnothing]; simp) (by decide)
      rw [hd]
      rfl
  | finite s m e hm =>
      rw [hx] at hread
      cases s with
      | negative =>
          unfold nanoseconds?
          rw [hread]
          refine iff_of_false ?_ (fun h => h)
          show ¬ (if _ then _ else _ : Option Nat).isSome = true
          rw [if_pos ⟨rfl, Nat.ne_of_gt hm⟩]
          simp
      | positive =>
          -- only here does the size matter: below the bound the value is canonical and
          -- rounds below it
          by_cases hlt : value m e < 2 ^ 64
          · refine iff_of_true ?_ hlt
            have hle := value_le_of_lt (canonical_parts hx) hlt
            have hnonneg := value_nonneg m e
            obtain ⟨d, hd, -, -⟩ := nanoseconds?_of_le 0
              ((2 ^ 64 - 1) * 1000000000) hread nofun
              (by push_cast; linarith) (by push_cast; linarith) (by decide)
            rw [hd]
            rfl
          · refine iff_of_false ?_ hlt
            have hlarge : (maxSeconds : ℚ) ≤ value m e := by
              have hmax : (maxSeconds : ℚ) = 2 ^ 64 := by
                unfold maxSeconds
                norm_num
              rw [hmax]
              exact not_lt.1 hlt
            rw [nanoseconds?_of_large hread hlarge]
            simp

-- ======================================================== reload interval

theorem height_quarter : height 0.25 = .at (1 / 4) := by
  have hparts : parts 0.25 = .finite .positive (2 ^ 52) (-54) (by decide) := rfl
  rw [height_of_parts hparts]
  unfold value
  norm_num

theorem height_ten : height 10 = .at 10 := by
  have hparts : parts 10 = .finite .positive (10 * 2 ^ 49) (-49) (by decide) := rfl
  rw [height_of_parts hparts]
  unfold value
  norm_num

theorem height_two : height 2 = .at 2 := by
  have hparts : parts 2 = .finite .positive (2 ^ 52) (-51) (by decide) := rfl
  rw [height_of_parts hparts]
  unfold value
  norm_num

/-- Only what is no number has no height. -/
theorem nowhere_iff : height x = .nowhere ↔ x.isNaN = true := by
  rw [isNaN_eq]
  unfold height
  cases parts x with
  | notANumber => exact iff_of_true rfl rfl
  | infinity s =>
      cases s with
      | negative => exact iff_of_false nofun nofun
      | positive => exact iff_of_false nofun nofun
  | zero s => exact iff_of_false nofun nofun
  | finite s m e hm =>
      cases s with
      | negative => exact iff_of_false nofun nofun
      | positive => exact iff_of_false nofun nofun

/-- A number that is clamped is between the ends. -/
theorem height_clamp {low high : Float} (hlow : height low = .at v) (hhigh : height high = .at w)
    (hle : v ≤ w) (hx : x.isNaN = false) :
    ∃ u, height (clampFloat low high x) = .at u ∧ v ≤ u ∧ u ≤ w := by
  unfold clampFloat
  by_cases hbelow : x < low
  · rw [if_pos hbelow]
    exact ⟨v, hlow, le_refl v, hle⟩
  · rw [if_neg hbelow]
    by_cases habove : high < x
    · rw [if_pos habove]
      exact ⟨w, hhigh, hle, le_refl w⟩
    · rw [if_neg habove]
      rw [lt_positive_iff hlow] at hbelow
      rw [positive_lt_iff hhigh] at habove
      cases hheight : height x with
      | nowhere =>
          rw [nowhere_iff, hx] at hheight
          cases hheight
      | low =>
          rw [hheight] at hbelow
          exact absurd trivial hbelow
      | top =>
          rw [hheight] at habove
          exact absurd trivial habove
      | «at» u =>
          rw [hheight] at hbelow habove
          exact ⟨u, rfl, not_lt.1 hbelow, not_lt.1 habove⟩

/-- A NaN is neither below the one end nor above the other. -/
private theorem clamp_nan {low high : Float} (hlow : height low = .at v)
    (hhigh : height high = .at w) (hx : x.isNaN = true) : clampFloat low high x = x := by
  have hheight := nowhere_iff.2 hx
  unfold clampFloat
  rw [if_neg, if_neg]
  · rw [positive_lt_iff hhigh, hheight]
    exact fun h => h
  · rw [lt_positive_iff hlow, hheight]
    exact fun h => h

/-- Half of a target duration, clamped, is a wait unless it is a NaN. -/
theorem Media.reloadInterval?_of_number (h : p.targetDuration.isNaN = false) :
    ∃ d, p.reloadInterval? = some d ∧ 250000000 ≤ d ∧ d ≤ 10000000000 := by
  have hhalf : (p.targetDuration / 2).isNaN = false := by rw [isNaN_div height_two, h]
  obtain ⟨u, hu, hlow, hhigh⟩ := height_clamp height_quarter height_ten (by norm_num) hhalf
  obtain ⟨m, e, hm, hparts, rfl⟩ := parts_of_height hu
  have hread : readDouble (clampFloat 0.25 10 (p.targetDuration / 2)) = .finite false m e := by
    rw [readDouble_eq, hparts]
    rfl
  refine nanoseconds?_of_le 250000000 10000000000 hread nofun ?_ ?_ (by decide)
  · push_cast
    linarith
  · push_cast
    linarith

/-- A target duration that is no number gives no interval. -/
private theorem Media.reloadInterval?_of_nan (h : p.targetDuration.isNaN = true) :
    p.reloadInterval? = none := by
  have hhalf : (p.targetDuration / 2).isNaN = true := by rw [isNaN_div height_two, h]
  unfold Media.reloadInterval?
  rw [clamp_nan height_quarter height_ten hhalf, ← Option.not_isSome_iff_eq_none,
    nanoseconds?_isSome_iff]
  rw [isNaN_eq] at hhalf
  cases hparts : parts (p.targetDuration / 2) with
  | notANumber => exact fun h => h
  | infinity s | zero s | finite s m e hm =>
      rw [hparts] at hhalf
      cases hhalf

-- =============================================================== spacing

/-- The seconds that no duration reaches, as a double. -/
theorem height_maxSeconds : height (doubleOfNat maxSeconds) = .at (2 ^ 64) := by
  have hparts : parts (doubleOfNat maxSeconds) = .finite .positive (2 ^ 52) 12 (by decide) := rfl
  rw [height_of_parts hparts]
  unfold value
  norm_num

/-- The larger of a double and zero drops a NaN and what is negative; what
is left is a duration if it is not too large. -/
private theorem within_largerFloat_zero (x : Float) :
    Within (2 ^ 64) (parts (largerFloat x 0))
      ↔ x.isNaN = true ∨ x < doubleOfNat maxSeconds := by
  have hzero : parts 0 = .zero .positive := rfl
  have hzeroNumber : (0 : Float).isNaN = false := rfl
  -- what is no number or negative gives way to nought, anything else is kept
  have hdrop : x.isNaN = true ∨ x < 0 → Within (2 ^ 64) (parts (largerFloat x 0)) := by
    intro h
    have hlarger : largerFloat x 0 = 0 := by
      unfold largerFloat
      rcases h with h | h
      · rw [if_pos h]
      · rw [if_pos h, hzeroNumber]
        simp
    rw [hlarger, hzero]
    exact trivial
  have hkeep : x.isNaN = false → ¬ x < 0 → largerFloat x 0 = x := by
    intro hx hlt
    unfold largerFloat
    rw [hx, hzeroNumber, if_neg hlt]
    simp
  have hnegative := lt_iff_compare x 0
  have hnan := isNaN_eq x
  rw [hzero] at hnegative
  rw [lt_positive_iff height_maxSeconds]
  unfold height
  cases hparts : parts x with
  | notANumber =>
      rw [hparts] at hnan
      exact iff_of_true (hdrop (Or.inl hnan)) (Or.inl hnan)
  | infinity s =>
      rw [hparts] at hnan hnegative
      cases s with
      | negative => exact iff_of_true (hdrop (Or.inr (hnegative.2 rfl))) (Or.inr trivial)
      | positive =>
          rw [hkeep hnan (mt hnegative.1 nofun), hparts, hnan]
          exact iff_of_false (fun h => h) (by rintro (h | h) <;> cases h)
  | zero s =>
      rw [hparts] at hnan hnegative
      rw [hkeep hnan (mt hnegative.1 nofun), hparts]
      exact iff_of_true trivial (Or.inr trivial)
  | finite s m e hm =>
      rw [hparts] at hnan hnegative
      cases s with
      | negative => exact iff_of_true (hdrop (Or.inr (hnegative.2 rfl))) (Or.inr trivial)
      | positive =>
          rw [hkeep hnan (mt hnegative.1 nofun), hparts, hnan]
          exact ⟨Or.inr, fun h => h.resolve_left nofun⟩

/-- What is within the longest duration stays so when it is shared among
units. -/
private theorem within_shared (hx : Within (2 ^ 64) (parts x)) (hn : 1 ≤ n) :
    Within (2 ^ 64) (parts (x / doubleOfNat n)) := by
  rcases Nat.eq_or_lt_of_le hn with rfl | hmore
  · rw [parts_div_one one_parts]
    exact hx
  · exact within_div (k := 63) (by decide) hx (two_le_doubleOfNat hmore)

/-- There is a spacing for every number of units just when the duration of
the segment is a NaN or not too large. -/
theorem Segment.spacing?_isSome_iff (s : Segment) :
    (∀ n, 1 ≤ n → (s.spacing? n).isSome)
      ↔ s.duration.isNaN = true ∨ s.duration < doubleOfNat maxSeconds := by
  rw [← within_largerFloat_zero]
  constructor
  · intro h
    have hone := h 1 (Nat.le_refl 1)
    unfold Segment.spacing? at hone
    rw [nanoseconds?_isSome_iff, parts_div_one one_parts] at hone
    exact hone
  · intro h n hn
    unfold Segment.spacing?
    rw [nanoseconds?_isSome_iff]
    exact within_shared h hn

-- ============================================= NaN, and how it is spelled

/-- A numeral without its sign. -/
def unsigned : List Char → List Char
  | '-' :: rest => rest
  | '+' :: rest => rest
  | rest => rest

/-- Whether a numeral is the word for a NaN, in any case, under any sign. -/
def spellsNaN (numeral : List Char) : Bool :=
  (unsigned numeral).map Char.toLower = "nan".toList

/-- Bits that are put together from a significand and an exponent are never
those of a NaN. -/
private theorem read_bits_ne_nan (negative : Bool) (m : Nat) (e : Int) :
    double.bits negative m e < 2 ^ 64 ∧ double.read (double.bits negative m e) ≠ .nan := by
  rw [double_bits, double_read]
  generalize (e + 1074).toNat * 2 ^ 52 + m = magnitude
  have hsign : (if negative then 2 ^ 63 else 0) = 0
      ∨ (if negative then 2 ^ 63 else 0) = 2 ^ 63 := by
    cases negative
    · exact Or.inl rfl
    · exact Or.inr rfl
  generalize (if negative then 2 ^ 63 else 0) = sign at hsign
  constructor
  · omega
  · split
    · rw [if_pos (by omega)]
      nofun
    · split
      · nofun
      · nofun

/-- A literal other than the NaN is put together so. -/
private theorem ofLiteral_bits (negative : Bool) {l : Literal} (hl : l ≠ .nan) :
    ∃ m e, double.ofLiteral negative l = double.bits negative m e := by
  have hnearest : ∀ num den, ∃ m e, double.nearest negative num den = double.bits negative m e := by
    intro num den
    unfold Format.nearest
    split
    · exact ⟨_, _, rfl⟩
    · exact ⟨_, _, rfl⟩
  cases l with
  | nan => exact absurd rfl hl
  | infinite => exact ⟨_, _, rfl⟩
  | decimal digits exponent =>
      unfold Format.ofLiteral
      dsimp only
      split
      · exact ⟨_, _, rfl⟩
      · split
        · exact ⟨_, _, rfl⟩
        · split
          · exact hnearest _ _
          · exact hnearest _ _

/-- The bits of a double say whether it is a number. -/
private theorem isNaN_iff_read {bits : Nat} (hbits : bits < 2 ^ 64) :
    (Float.ofBits bits.toUInt64).isNaN = true ↔ double.read bits = .nan := by
  rw [read_ofBits hbits, isNaN_eq]
  cases parts (Float.ofBits bits.toUInt64) with
  | notANumber => exact iff_of_true rfl rfl
  | infinity s | zero s | finite s m e hm => exact iff_of_false nofun nofun

/-- One word alone is read as no number. -/
theorem literal?_eq_nan_iff {body : List Char} :
    literal? body = some .nan ↔ body.map Char.toLower = "nan".toList := by
  unfold literal?
  dsimp only
  constructor
  · intro h
    by_contra hword
    rw [if_neg hword] at h
    split at h
    · cases h
    · rw [Option.ite_none_left_eq_some, Option.map_eq_some_iff] at h
      obtain ⟨-, exponent, -, h⟩ := h
      cases h
  · intro h
    rw [if_pos h]

/-- A numeral is read as the literal behind its sign. -/
theorem readFloat_eq {numeral : List Char} (h : readFloat numeral = .ok x) :
    ∃ negative l, literal? (unsigned numeral) = some l
      ∧ x = Float.ofBits (double.ofLiteral negative l).toUInt64 := by
  cases numeral with
  | nil => cases h
  | cons c rest =>
      unfold readFloat Format.parse at h
      dsimp only at h
      -- the sign is taken off first, and a plus sign is none
      by_cases hminus : c = '-'
      · subst hminus
        rw [if_pos rfl] at h
        refine ⟨true, ?_⟩
        show ∃ l, literal? rest = some l ∧ _
        cases hl : literal? rest with
        | none =>
            rw [hl] at h
            cases h
        | some l =>
            rw [hl] at h
            cases h
            exact ⟨l, rfl, rfl⟩
      · rw [if_neg hminus] at h
        refine ⟨false, ?_⟩
        have hbody : unsigned (c :: rest) = if c = '+' then rest else c :: rest := by
          unfold unsigned
          split
          case h_1 heq => exact absurd (List.cons.inj heq).1 hminus
          case h_2 heq =>
            cases heq
            rfl
          case h_3 hplus =>
            rw [if_neg (fun heq => hplus rest (by rw [heq]))]
        have hpair : (if c = '+' then (false, rest) else (false, c :: rest))
            = (false, unsigned (c :: rest)) := by
          rw [hbody]
          split
          · rfl
          · rfl
        rw [hpair] at h
        cases hl : literal? (unsigned (c :: rest)) with
        | none =>
            rw [hl] at h
            cases h
        | some l =>
            rw [hl] at h
            cases h
            exact ⟨l, rfl, rfl⟩

/-- A numeral gives a NaN only by spelling it out. -/
theorem readFloat_isNaN_iff {numeral : List Char} (h : readFloat numeral = .ok x) :
    x.isNaN = true ↔ spellsNaN numeral = true := by
  obtain ⟨negative, l, hl, rfl⟩ := readFloat_eq h
  unfold spellsNaN
  rw [decide_eq_true_iff, ← literal?_eq_nan_iff, hl, Option.some_inj]
  by_cases hnan : l = .nan
  · subst hnan
    have hword : double.ofLiteral negative .nan = 2047 * 2 ^ 52 + 2 ^ 51 := rfl
    rw [hword]
    exact iff_of_true ((isNaN_iff_read (by decide)).2 (by decide)) rfl
  · obtain ⟨m, e, hbits⟩ := ofLiteral_bits negative hnan
    obtain ⟨hword, hread⟩ := read_bits_ne_nan negative m e
    rw [hbits, isNaN_iff_read hword]
    exact iff_of_false hread hnan

-- ================================================================== text

/-- The lines of a text behind its header. -/
def tags (text : List Char) : List Line := ((contentLines text).drop 1).map Line.ofChars

/-- The target duration, if a line gives one. -/
def Line.target? : Line → Option (List Char)
  | .targetDuration value => some value
  | _ => none

/-- What the last target duration tag says. -/
def lastTarget? : List Line → Option (List Char)
  | [] => none
  | line :: rest => (lastTarget? rest).or line.target?

/-- A media playlist is what the lines behind the header have left. -/
theorem parse_eq_media {text : List Char} (h : parse text = .ok (.media p)) :
    ∃ r, (tags text).foldlM Reading.take {} = .ok r
      ∧ p.targetDuration = r.target ∧ p.segments = r.segments.reverse := by
  unfold parse at h
  unfold tags
  cases hlines : contentLines text with
  | nil =>
      rw [hlines] at h
      cases h
  | cons header rest =>
      rw [hlines] at h
      dsimp only at h
      split at h
      · cases hfold : (rest.map Line.ofChars).foldlM Reading.take {} with
        | error cause =>
            rw [hfold] at h
            cases h
        | ok r =>
            rw [hfold] at h
            refine ⟨r, hfold, ?_⟩
            change Except.ok r.toPlaylist = _ at h
            unfold Reading.toPlaylist at h
            split at h
            · cases h
              exact ⟨rfl, rfl⟩
            · cases h
      · cases h

/-- Of the lines of a text only target duration tags change the target
duration. -/
private theorem take_target {r r' : Reading} {line : Line} (h : r.take line = .ok r') :
    (∃ value, line.target? = some value ∧ readFloat value = .ok r'.targetDuration)
      ∨ (line.target? = none ∧ r'.targetDuration = r.targetDuration) := by
  cases line with
  | targetDuration value =>
      unfold Reading.take at h
      cases hx : readFloat value with
      | error cause =>
          simp only [hx] at h
          cases h
      | ok x =>
          simp only [hx] at h
          cases h
          exact Or.inl ⟨value, rfl, hx⟩
  | variant attributes | endOfList | comment =>
      cases h
      exact Or.inr ⟨rfl, rfl⟩
  | mediaSequence value | duration value =>
      refine Or.inr ⟨rfl, ?_⟩
      unfold Reading.take at h
      dsimp only at h
      split at h
      · cases h
        rfl
      · cases h
  | address uri =>
      refine Or.inr ⟨rfl, ?_⟩
      unfold Reading.take at h
      dsimp only at h
      split at h
      · cases h
        rfl
      · split at h
        · cases h
        · cases h
          rfl
      · cases h
        rfl

/-- A fold that comes through has come through its first step. -/
theorem foldlM_cons_ok {α σ ε : Type} {f : σ → α → Except ε σ} {a : α} {rest : List α} {s s' : σ}
    (h : (a :: rest).foldlM f s = .ok s') :
    ∃ s₁, f s a = .ok s₁ ∧ rest.foldlM f s₁ = .ok s' := by
  rw [List.foldlM_cons] at h
  cases hstep : f s a with
  | error cause =>
      rw [hstep] at h
      cases h
  | ok s₁ =>
      rw [hstep] at h
      exact ⟨s₁, rfl, h⟩

/-- After some lines the target duration is what the last tag among them
says, or what it was. -/
private theorem foldlM_target {lines : List Line} {r r' : Reading}
    (h : lines.foldlM Reading.take r = .ok r') :
    (∃ value, lastTarget? lines = some value ∧ readFloat value = .ok r'.targetDuration)
      ∨ (lastTarget? lines = none ∧ r'.targetDuration = r.targetDuration) := by
  induction lines generalizing r with
  | nil =>
      cases h
      exact Or.inr ⟨rfl, rfl⟩
  | cons line rest ih =>
      rw [List.foldlM_cons] at h
      cases hstep : r.take line with
      | error cause =>
          rw [hstep] at h
          cases h
      | ok r₁ =>
          rw [hstep] at h
          unfold lastTarget?
          rcases ih h with ⟨value, hlast, hread⟩ | ⟨hlast, hsame⟩
          · exact Or.inl ⟨value, by rw [hlast]; rfl, hread⟩
          · rw [hlast, hsame, Option.none_or]
            exact take_target hstep

/-- The durations that are kept, of segments and of the one to come, stand
in duration tags. -/
structure Reading.Written (lines : List Line) (r : Reading) : Prop where
  next : ∀ x, r.duration = some x →
    ∃ value, Line.duration value ∈ lines ∧ readFloat (durationText value) = .ok x
  segments : ∀ s ∈ r.segments,
    ∃ value, Line.duration value ∈ lines ∧ readFloat (durationText value) = .ok s.duration

/-- A line that is read leaves what was written. -/
private theorem Reading.Written.take {lines : List Line} {r r' : Reading} {line : Line}
    (hr : r.Written lines) (hline : line ∈ lines) (h : r.take line = .ok r') :
    r'.Written lines := by
  cases line with
  | variant attributes | endOfList | comment =>
      cases h
      exact ⟨hr.next, hr.segments⟩
  | targetDuration value | mediaSequence value =>
      unfold Reading.take at h
      dsimp only at h
      split at h
      · cases h
        exact ⟨hr.next, hr.segments⟩
      · cases h
  | duration value =>
      unfold Reading.take at h
      dsimp only at h
      split at h
      case h_1 x hx =>
        cases h
        refine ⟨?_, hr.segments⟩
        rintro y ⟨⟩
        exact ⟨value, hline, hx⟩
      case h_2 => cases h
  -- an address is a segment only behind a duration, and then it has that duration
  | address uri =>
      unfold Reading.take at h
      dsimp only at h
      split at h
      · cases h
        exact ⟨hr.next, hr.segments⟩
      case h_2 x hbandwidth hduration =>
        split at h
        · cases h
        · cases h
          refine ⟨nofun, ?_⟩
          intro s hs
          rcases List.mem_cons.1 hs with rfl | hs
          · exact hr.next x hduration
          · exact hr.segments s hs
      · cases h
        exact hr

/-- What has been read of the lines was written in them. -/
private theorem Reading.Written.foldlM {lines rest : List Line} {r r' : Reading}
    (hr : r.Written lines)
    (hrest : ∀ line ∈ rest, line ∈ lines) (h : rest.foldlM Reading.take r = .ok r') :
    r'.Written lines := by
  induction rest generalizing r with
  | nil =>
      cases h
      exact hr
  | cons line rest ih =>
      rw [List.foldlM_cons] at h
      cases hstep : r.take line with
      | error cause =>
          rw [hstep] at h
          cases h
      | ok r₁ =>
          rw [hstep] at h
          have hline : line ∈ lines := hrest line (List.mem_cons_self ..)
          exact ih (hr.take hline hstep) (fun l hl => hrest l (List.mem_cons_of_mem line hl)) h

private theorem not_le_of_isNaN (hx : x.isNaN = true) : ¬ x ≤ y := by
  rw [isNaN_eq] at hx
  show ¬ decide (Float.Model.UnpackedFloat.le (parts x) (parts y) = true) = true
  cases hparts : parts x with
  | notANumber =>
      unfold Float.Model.UnpackedFloat.le Float.Model.UnpackedFloat.compare
      simp
  | infinity s | zero s | finite s m e hm =>
      rw [hparts] at hx
      cases hx

/-- The larger of two is a number when the first is. -/
private theorem isNaN_largerFloat (hx : x.isNaN = false) : (largerFloat x y).isNaN = false := by
  unfold largerFloat
  rw [hx]
  by_cases hy : y.isNaN = true
  · rw [hy]
    exact hx
  · rw [Bool.not_eq_true] at hy
    rw [hy]
    by_cases hlt : x < y
    · simpa [hlt] using hy
    · simpa [hlt] using hx

/-- The default for the target duration is never a NaN. -/
private theorem isNaN_target (r : Reading) : r.target.isNaN = r.targetDuration.isNaN := by
  have hfold : ∀ (durations : List Float) (longest : Float), longest.isNaN = false →
      (durations.foldl largerFloat longest).isNaN = false := by
    intro durations
    induction durations with
    | nil => exact fun longest h => h
    | cons y rest ih => exact fun longest h => ih _ (isNaN_largerFloat h)
  unfold Reading.target
  split
  case isTrue hle =>
    cases hnan : r.targetDuration.isNaN with
    | true => exact absurd hle (not_le_of_isNaN hnan)
    | false => exact hfold _ 2 rfl
  case isFalse => rfl

/-- A text has a NaN for its target duration when the last tag spells it
out, and only then. -/
theorem targetDuration_isNaN_iff {text : List Char} (h : parse text = .ok (.media p)) :
    p.targetDuration.isNaN = (lastTarget? (tags text)).any spellsNaN := by
  obtain ⟨r, hfold, htarget, -⟩ := parse_eq_media h
  rw [htarget, isNaN_target]
  rcases foldlM_target hfold with ⟨value, hlast, hread⟩ | ⟨hlast, hsame⟩
  · rw [hlast, Option.any_some, Bool.eq_iff_iff]
    exact readFloat_isNaN_iff hread
  · rw [hlast, hsame]
    rfl

-- ================================================================== waits

/-- The waits of every text that is a media playlist. There is an interval
to read it again, from a quarter of a second to ten, unless the last target
duration tag spells out a NaN, and then there is none. There is a spacing
for every number of units of a segment just when its duration, which one of
the duration tags says, is a NaN or not too large. -/
theorem waits_of_text {text : List Char} (h : parse text = .ok (.media p)) :
    (if (lastTarget? (tags text)).any spellsNaN then p.reloadInterval? = none
      else ∃ d, p.reloadInterval? = some d ∧ 250000000 ≤ d ∧ d ≤ 10000000000)
    ∧ ∀ s ∈ p.segments,
        (∃ value, Line.duration value ∈ tags text
          ∧ readFloat (durationText value) = .ok s.duration)
        ∧ ((∀ n, 1 ≤ n → (s.spacing? n).isSome)
            ↔ s.duration.isNaN = true ∨ s.duration < doubleOfNat maxSeconds) := by
  constructor
  · rw [← targetDuration_isNaN_iff h]
    split
    case isTrue hnan => exact Media.reloadInterval?_of_nan hnan
    case isFalse hnumber => exact Media.reloadInterval?_of_number (Bool.not_eq_true _ ▸ hnumber)
  · intro s hs
    obtain ⟨r, hfold, -, hsegments⟩ := parse_eq_media h
    rw [hsegments, List.mem_reverse] at hs
    have hstart : ({} : Reading).Written (tags text) := ⟨nofun, nofun⟩
    exact ⟨(hstart.foldlM (fun _ hline => hline) hfold).segments s hs, s.spacing?_isSome_iff⟩

/-- The last of two target durations counts. -/
theorem waits_of_text_two_targets :
    ∃ p, parse ("#EXTM3U\n#EXT-X-TARGETDURATION:nan\n#EXT-X-TARGETDURATION:6\n".toList
        ++ "#EXTINF:1e20,\na.ts\n".toList) = .ok (.media p)
      ∧ (∃ d, p.reloadInterval? = some d ∧ 250000000 ≤ d ∧ d ≤ 10000000000)
      ∧ ∀ s ∈ p.segments, (∀ n, 1 ≤ n → (s.spacing? n).isSome)
          ↔ s.duration.isNaN = true ∨ s.duration < doubleOfNat maxSeconds := by
  obtain ⟨p, hp⟩ : ∃ p, parse
      ("#EXTM3U\n#EXT-X-TARGETDURATION:nan\n#EXT-X-TARGETDURATION:6\n".toList
        ++ "#EXTINF:1e20,\na.ts\n".toList) = .ok (.media p) := ⟨_, rfl⟩
  have h := waits_of_text hp
  rw [if_neg (by decide)] at h
  exact ⟨p, hp, h.1, fun s hs => (h.2 s hs).2⟩

/-- A text that is a media playlist and asks for waits that there are not,
between playlists and between units. -/
theorem waits_missing :
    ∃ p, parse ("#EXTM3U\n#EXT-X-TARGETDURATION:nan\n".toList
        ++ "#EXTINF:inf,\na.ts\n".toList) = .ok (.media p)
      ∧ p.reloadInterval? = none ∧ ∃ s ∈ p.segments, s.spacing? 1 = none :=
  ⟨_, rfl, by decide, _, List.mem_singleton_self _, by decide⟩

end VideoWall.Playlist
