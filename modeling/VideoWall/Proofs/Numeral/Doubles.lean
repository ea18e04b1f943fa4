/-
Doubles as exact numbers. The programs compute with `Float`, whose model
packs and unpacks a sign, a significand and an exponent; the library
itself reads the bits by `Format.read`. Here the two are the same thing,
and comparison of doubles is comparison of rational values.

# What is shown

- `readDouble_eq`: to read a double is to unpack it.
- `canonical_parts`: a number has one form, with a full significand
  unless it is among the smallest.
- `Canonical.unpack_pack`: what has that form is packed without loss.
- `lt_positive_iff`, `positive_lt_iff`: where a double stands to a
  positive one is a question about values, with NaN nowhere and
  infinities at the ends.
-/
import Mathlib.Algebra.Order.Field.Power
import Mathlib.Tactic.Linarith
import Mathlib.Tactic.Positivity
import Mathlib.Tactic.Ring
import VideoWall.Numeral.Binary

namespace VideoWall.Numeral

open Float.Model Float.Model.UnpackedFloat

-- ======================================================= the two readings

/-- A double taken apart. -/
def parts (x : Float) : UnpackedFloat := x.toModel.unpack

/-- Whether a sign is the one of numbers below nought. -/
def isNegative : Sign → Bool
  | .negative => true
  | .positive => false

/-- What the parts of a double stand for. -/
def reading : UnpackedFloat → Reading
  | .notANumber => .nan
  | .infinity s => .infinite (isNegative s)
  | .zero s => .finite (isNegative s) 0 (-1074)
  | .finite s m e _ => .finite (isNegative s) m e

/-- The bits in front count by the power that they stand above. -/
theorem toNat_append_add {v w : Nat} (a : BitVec v) (b : BitVec w) :
    (a ++ b).toNat = a.toNat * 2 ^ w + b.toNat := by
  rw [BitVec.toNat_append, ← Nat.shiftLeft_add_eq_or_of_lt b.isLt, Nat.shiftLeft_eq]

private theorem toNat_unpackMantissa (b : BitVec Format.binary64.numBits) :
    (unpackMantissa b).toNat = b.toNat % 2 ^ 52 := by
  simp [unpackMantissa, BitVec.extractLsb_toNat]

private theorem toNat_unpackExponent (b : BitVec Format.binary64.numBits) :
    (unpackExponent b).toNat = b.toNat / 2 ^ 52 % 2 ^ 11 := by
  simp [unpackExponent, BitVec.extractLsb_toNat, Nat.shiftRight_eq_div_pow]

theorem toNat_unpackSign (b : BitVec Format.binary64.numBits) :
    (unpackSign b).toNat = b.toNat / 2 ^ 63 % 2 := by
  show (b.extractLsb 63 63).toNat = _
  simp [BitVec.extractLsb_toNat, Nat.shiftRight_eq_div_pow]

private theorem isNegative_ofBitVec (v : BitVec 1) :
    isNegative (Sign.ofBitVec v) = decide (v.toNat = 1) := by
  revert v
  decide

/-- What is read from bits, with the widths of a double. -/
theorem double_read (bits : Nat) :
    double.read bits
      = if bits / 2 ^ 52 % 2 ^ 11 = 2047 then
          if bits % 2 ^ 52 = 0 then .infinite (decide (bits / 2 ^ 63 % 2 = 1)) else .nan
        else if bits / 2 ^ 52 % 2 ^ 11 = 0 then
          .finite (decide (bits / 2 ^ 63 % 2 = 1)) (bits % 2 ^ 52) (-1074)
        else
          .finite (decide (bits / 2 ^ 63 % 2 = 1)) (bits % 2 ^ 52 + 2 ^ 52)
            (-1074 + (bits / 2 ^ 52 % 2 ^ 11 : Nat) - 1) := rfl

/-- What bits are written, with the widths of a double. -/
theorem double_bits (negative : Bool) (m : Nat) (e : Int) :
    double.bits negative m e
      = (if negative then 2 ^ 63 else 0)
        + min (2047 * 2 ^ 52) ((e + 1074).toNat * 2 ^ 52 + m) := rfl

/-- Finite doubles with equal parts are equal, whatever the proofs they carry.
-/
theorem finite_eq {s : Sign} {m n : Nat} {e f : Int} {hm : 0 < m} {hn : 0 < n} (hmn : m = n)
    (hef : e = f) : UnpackedFloat.finite s m e hm = .finite s n f hn := by
  subst hmn hef
  rfl

/-- What a sign, an exponent field and a fraction make up: a number has a
hidden bit, unless it is among the smallest. -/
def ofFields (s : Sign) (field : BitVec 11) (fraction : BitVec 52) : UnpackedFloat :=
  if field = -1#11 then
    if fraction = 0#52 then .infinity s else .notANumber
  else if field = 0#11 then
    if h : fraction = 0#52 then .zero s
    else .finite s fraction.toNat (-1074)
      (Nat.pos_of_ne_zero fun h' => h (BitVec.toNat_inj.1 h'))
  else .finite s (2 ^ 52 + fraction.toNat) (field.toNat - 1075) (Nat.add_pos_left (by decide) _)

/-- A double with a full exponent has the bit in front that is not written. -/
theorem ofFields_full {s : Sign} {field : BitVec 11} (htop : field ≠ -1#11) (hzero : field ≠ 0#11)
    (fraction : BitVec 52) :
    ofFields s field fraction
      = .finite s (2 ^ 52 + fraction.toNat) (field.toNat - 1075)
        (Nat.add_pos_left (by decide) _) := by
  unfold ofFields
  rw [if_neg htop, if_neg hzero]

/-- A double with a zero exponent has its fraction alone. -/
theorem ofFields_short (s : Sign) (fraction : BitVec 52) :
    ofFields s 0#11 fraction
      = if h : fraction = 0#52 then .zero s
        else .finite s fraction.toNat (-1074)
          (Nat.pos_of_ne_zero fun h' => h (BitVec.toNat_inj.1 h')) := by
  unfold ofFields
  rw [if_neg (by decide), if_pos rfl]

theorem unpack_of_fields {b : BitVec Format.binary64.numBits} {s : Sign} {field : BitVec 11}
    {fraction : BitVec 52} (hs : Sign.ofBitVec (unpackSign b) = s) (he : unpackExponent b = field)
    (hm : unpackMantissa b = fraction) :
    UnpackedFloat.unpack .binary64 b = ofFields s field fraction := by
  subst hs he hm
  unfold UnpackedFloat.unpack ofFields
  dsimp only
  by_cases htop : unpackExponent b = -1#_
  · rw [if_pos htop, if_pos htop]
  · rw [if_neg htop, if_neg htop]
    by_cases hzero : unpackExponent b = 0#_
    · rw [if_pos hzero, if_pos hzero, hzero]
      rfl
    · rw [if_neg hzero, if_neg hzero]
      exact finite_eq (toNat_append_add _ _) rfl

/-- What fields stand for is read off their values. -/
private theorem reading_ofFields (s : Sign) (field : BitVec 11) (fraction : BitVec 52) :
    reading (ofFields s field fraction)
      = if field.toNat = 2047 then
          if fraction.toNat = 0 then .infinite (isNegative s) else .nan
        else if field.toNat = 0 then .finite (isNegative s) fraction.toNat (-1074)
        else .finite (isNegative s) (fraction.toNat + 2 ^ 52) (-1074 + field.toNat - 1) := by
  have htop : field = -1#11 ↔ field.toNat = 2047 := BitVec.toNat_inj.symm
  have hzero : field = 0#11 ↔ field.toNat = 0 := BitVec.toNat_inj.symm
  have hnone : fraction = 0#52 ↔ fraction.toNat = 0 := BitVec.toNat_inj.symm
  unfold ofFields
  by_cases h : field = -1#11
  · rw [if_pos h, if_pos (htop.1 h)]
    by_cases h' : fraction = 0#52
    · rw [if_pos h', if_pos (hnone.1 h')]
      rfl
    · rw [if_neg h', if_neg (mt hnone.2 h')]
      rfl
  · rw [if_neg h, if_neg (mt htop.2 h)]
    by_cases h' : field = 0#11
    · rw [if_pos h', if_pos (hzero.1 h')]
      by_cases h'' : fraction = 0#52
      · rw [dif_pos h'', hnone.1 h'']
        rfl
      · rw [dif_neg h'']
        rfl
    · rw [if_neg h', if_neg (mt hzero.2 h')]
      show Reading.finite _ _ _ = Reading.finite _ _ _
      rw [Nat.add_comm]
      congr 1
      omega

/-- Reading the bits is unpacking them. -/
theorem read_eq (b : BitVec Format.binary64.numBits) :
    double.read b.toNat = reading (UnpackedFloat.unpack .binary64 b) := by
  have hsign : isNegative (Sign.ofBitVec (unpackSign b)) = decide (b.toNat / 2 ^ 63 % 2 = 1) := by
    rw [isNegative_ofBitVec, toNat_unpackSign]
  rw [unpack_of_fields rfl rfl rfl, reading_ofFields, hsign, double_read, toNat_unpackExponent,
    toNat_unpackMantissa]

/-- Reading a double is reading its parts. -/
theorem readDouble_eq (x : Float) : readDouble x = reading (parts x) := by
  obtain ⟨⟨bits, hvalid⟩⟩ := x
  exact read_eq bits.toBitVec

-- ================================================================ forms

/-- The form of a number: a significand of at most 53 bits, and of fewer
only at the least exponent. -/
structure Canonical (m : Nat) (e : Int) : Prop where
  short : m < 2 ^ 53
  least : -1074 ≤ e
  most : e ≤ 971
  full : 2 ^ 52 ≤ m ∨ e = -1074

variable {s : Sign} {m n : Nat} {e f : Int} {hpos : 0 < m}

/-- Unpacked doubles are canonical. -/
theorem canonical_unpack {b : BitVec Format.binary64.numBits}
    (h : UnpackedFloat.unpack .binary64 b = .finite s m e hpos) : Canonical m e := by
  have hread := read_eq b
  have hfraction : b.toNat % 2 ^ 52 < 2 ^ 52 := Nat.mod_lt _ (by decide)
  have hfield : b.toNat / 2 ^ 52 % 2 ^ 11 < 2 ^ 11 := Nat.mod_lt _ (by decide)
  rw [h, double_read] at hread
  change _ = Reading.finite (isNegative s) m e at hread
  generalize b.toNat / 2 ^ 52 % 2 ^ 11 = field at hread hfield
  generalize b.toNat % 2 ^ 52 = fraction at hread hfraction
  split at hread
  · split at hread
    · cases hread
    · cases hread
  · split at hread
    case isTrue hzero =>
      obtain ⟨-, rfl, rfl⟩ := Reading.finite.inj hread
      exact ⟨by omega, by omega, by omega, Or.inr rfl⟩
    case isFalse htop hzero =>
      obtain ⟨-, rfl, rfl⟩ := Reading.finite.inj hread
      exact ⟨by omega, by omega, by omega, Or.inl (by omega)⟩

theorem canonical_parts {x : Float} (h : parts x = .finite s m e hpos) : Canonical m e :=
  canonical_unpack h

-- ============================================================== packing

private theorem sign_packComponents (s : Sign) (e : BitVec 11) (m : BitVec 52) :
    Sign.ofBitVec (unpackSign (packComponents .binary64 s e m)) = s := by
  have hpacked : (packComponents .binary64 s e m).toNat
      = (s.toBitVec.toNat * 2 ^ 11 + e.toNat) * 2 ^ 52 + m.toNat :=
    (toNat_append_add _ m).trans (by rw [toNat_append_add])
  have hsign : unpackSign (packComponents .binary64 s e m) = s.toBitVec := by
    rw [← BitVec.toNat_inj, toNat_unpackSign, hpacked]
    have hs : s.toBitVec.toNat < 2 := s.toBitVec.isLt
    have he : e.toNat < 2 ^ 11 := e.isLt
    have hm : m.toNat < 2 ^ 52 := m.isLt
    omega
  rw [hsign]
  cases s with
  | negative => rfl
  | positive => rfl

/-- Packed fields are unpacked as they were. -/
theorem unpack_packComponents (s : Sign) (field : BitVec 11) (fraction : BitVec 52) :
    UnpackedFloat.unpack .binary64 (packComponents .binary64 s field fraction)
      = ofFields s field fraction :=
  unpack_of_fields (sign_packComponents s field fraction) unpackExponent_packComponents
    unpackMantissa_packComponents

/-- Where a number goes when it is packed: to infinity if its exponent is
too large, and to the numbers without a hidden bit if it is short. -/
theorem pack_finite (s : Sign) (m : Nat) (e : Int) (hpos : 0 < m) :
    UnpackedFloat.pack .binary64 (.finite s m e hpos)
      = if 2047 ≤ (e + 1075).toNat then packedInfinity .binary64 s
        else if m.log2 = 52 then
          packComponents .binary64 s (BitVec.ofNat 11 (e + 1075).toNat) (BitVec.ofNat 52 m)
        else packComponents .binary64 s 0#11 (BitVec.ofNat 52 m) := by
  have hfield : (e + (1023 : Int) + (52 : Int)).toNat = (e + 1075).toNat := by omega
  have hunfold : UnpackedFloat.pack .binary64 (.finite s m e hpos)
      = if 2 ^ 11 ≤ (e + (1023 : Int) + (52 : Int)).toNat + 1 then packedInfinity .binary64 s
        else if m.log2 + 1 = 53 then
          packComponents .binary64 s (BitVec.ofNat 11 (e + (1023 : Int) + (52 : Int)).toNat)
            (BitVec.ofNat 52 m)
        else packComponents .binary64 s 0#11 (BitVec.ofNat 52 m) := rfl
  rw [hunfold, hfield]
  by_cases htop : 2047 ≤ (e + 1075).toNat
  · rw [if_pos htop, if_pos (by omega)]
  · rw [if_neg htop, if_neg (by omega)]
    by_cases hfull : m.log2 = 52
    · rw [if_pos hfull, if_pos (by omega)]
    · rw [if_neg hfull, if_neg (by omega)]

/-- A full significand survives packing. -/
theorem unpack_pack_full (hfull : m.log2 = 52) (hleast : -1074 ≤ e) (hmost : e ≤ 971) :
    UnpackedFloat.unpack .binary64 (UnpackedFloat.pack .binary64 (.finite s m e hpos))
      = .finite s m e hpos := by
  have hbounds : 2 ^ 52 ≤ m ∧ m < 2 ^ 53 :=
    (Nat.log2_eq_iff (Nat.ne_of_gt hpos)).1 hfull
  have hfield : (BitVec.ofNat 11 (e + 1075).toNat).toNat = (e + 1075).toNat := by
    rw [BitVec.toNat_ofNat]
    omega
  have htop : BitVec.ofNat 11 (e + 1075).toNat ≠ -1#11 := by
    intro h
    have h' := congrArg BitVec.toNat h
    rw [hfield] at h'
    change (e + 1075).toNat = 2047 at h'
    omega
  have hzero : BitVec.ofNat 11 (e + 1075).toNat ≠ 0#11 := by
    intro h
    have h' := congrArg BitVec.toNat h
    rw [hfield] at h'
    change (e + 1075).toNat = 0 at h'
    omega
  rw [pack_finite, if_neg (by omega), if_pos hfull, unpack_packComponents,
    ofFields_full htop hzero]
  refine finite_eq ?_ ?_
  · rw [BitVec.toNat_ofNat]
    omega
  · rw [hfield]
    omega

/-- A short mantissa is packed with the exponent at its least. -/
theorem unpack_pack_short (s : Sign) (hshort : m.log2 ≠ 52) (hmost : e ≤ 971) :
    UnpackedFloat.unpack .binary64 (UnpackedFloat.pack .binary64 (.finite s m e hpos))
      = if h : m % 2 ^ 52 = 0 then .zero s
        else .finite s (m % 2 ^ 52) (-1074) (Nat.pos_of_ne_zero h) := by
  rw [pack_finite, if_neg (by omega), if_neg hshort, unpack_packComponents,
    ofFields_short]
  have hfraction : (BitVec.ofNat 52 m).toNat = m % 2 ^ 52 := BitVec.toNat_ofNat m 52
  by_cases h : m % 2 ^ 52 = 0
  · rw [dif_pos h, dif_pos (BitVec.toNat_inj.1 (hfraction.trans h : _ = (0#52).toNat))]
  · rw [dif_neg h, dif_neg]
    · exact finite_eq hfraction rfl
    · intro h'
      rw [h'] at hfraction
      exact h hfraction.symm

/-- What has the form of a number survives packing. -/
private theorem Canonical.unpack_pack (h : Canonical m e) (hpos : 0 < m) :
    UnpackedFloat.unpack .binary64 (UnpackedFloat.pack .binary64 (.finite s m e hpos))
      = .finite s m e hpos := by
  by_cases hfull : m.log2 = 52
  · exact unpack_pack_full hfull h.least h.most
  · have hlow : m < 2 ^ 52 := by
      rcases Nat.lt_or_ge m (2 ^ 52) with hlow | hhigh
      · exact hlow
      · exact absurd ((Nat.log2_eq_iff (Nat.ne_of_gt hpos)).2 ⟨hhigh, h.short⟩) hfull
    obtain rfl : e = -1074 := h.full.resolve_left (by omega)
    have hmod : m % 2 ^ 52 = m := Nat.mod_eq_of_lt hlow
    rw [unpack_pack_short s hfull (by decide), dif_neg (by omega)]
    exact finite_eq hmod rfl

/-- What has been unpacked is packed and unpacked without a loss. -/
theorem unpack_pack_unpack (b : BitVec Format.binary64.numBits) :
    UnpackedFloat.unpack .binary64
        (UnpackedFloat.pack .binary64 (UnpackedFloat.unpack .binary64 b))
      = UnpackedFloat.unpack .binary64 b := by
  cases hu : UnpackedFloat.unpack .binary64 b with
  | notANumber => rfl
  | infinity s => cases s <;> rfl
  | zero s => cases s <;> rfl
  | finite s m e hpos => exact (canonical_unpack hu).unpack_pack hpos

private theorem parts_ofBits (bits : UInt64) :
    parts (Float.ofBits bits) = UnpackedFloat.unpack .binary64 bits.toBitVec :=
  unpack_pack_unpack bits.toBitVec

/-- What is read from bits is what their double stands for. -/
theorem read_ofBits {bits : Nat} (hbits : bits < 2 ^ 64) :
    double.read bits = reading (parts (Float.ofBits bits.toUInt64)) := by
  have hword : bits.toUInt64.toBitVec.toNat = bits := by
    show bits % 2 ^ 64 = bits
    exact Nat.mod_eq_of_lt hbits
  rw [parts_ofBits, ← read_eq, hword]

/-- A quotient's parts are the quotient of the parts, packed and unpacked. -/
theorem parts_div (x y : Float) :
    parts (x / y)
      = UnpackedFloat.unpack .binary64
          (UnpackedFloat.pack .binary64 (UnpackedFloat.div .binary64 (parts x) (parts y))) := rfl

-- =============================================================== values

/-- The value of a number. -/
def value (m : Nat) (e : Int) : ℚ := m * 2 ^ e

theorem value_nonneg (m : Nat) (e : Int) : 0 ≤ value m e := by
  unfold value
  positivity

theorem two_pow_add (e : Int) (j : Nat) : (2 : ℚ) ^ (e + j) = 2 ^ j * 2 ^ e := by
  rw [zpow_add₀ (by norm_num), zpow_natCast, mul_comm]

/-- Moving binary places from the significand to the exponent loses what
does not fit. -/
theorem value_shift_le (m t : Nat) (e : Int) : value (m / 2 ^ t) (e + t) ≤ value m e := by
  have hfloor : ((m / 2 ^ t : Nat) : ℚ) * 2 ^ t ≤ m := by
    exact_mod_cast Nat.div_mul_le_self m (2 ^ t)
  unfold value
  rw [two_pow_add, ← mul_assoc]
  exact mul_le_mul_of_nonneg_right hfloor (by positivity)

/-- A value is below a power of two when its mantissa is. -/
theorem value_lt_two_pow_iff (j : Nat) : value m e < 2 ^ (e + j) ↔ m < 2 ^ j := by
  unfold value
  rw [two_pow_add, mul_lt_mul_iff_left₀ (by positivity)]
  exact_mod_cast Iff.rfl

theorem value_le_two_pow_iff (j : Nat) : value m e ≤ 2 ^ (e + j) ↔ m ≤ 2 ^ j := by
  unfold value
  rw [two_pow_add, mul_le_mul_iff_left₀ (by positivity)]
  exact_mod_cast Iff.rfl

/-- Canonical numbers are in the order of their exponents, and of their
significands where these are the same. -/
theorem Canonical.lt_iff (h : Canonical m e) (h' : Canonical n f) :
    value m e < value n f ↔ e < f ∨ (e = f ∧ m < n) := by
  have hbelow : ∀ {m n : Nat} {e f : Int}, m < 2 ^ 53 → Canonical n f → -1074 ≤ e → e < f →
      value m e < value n f := by
    intro m n e f hm hn he hef
    have hfull : 2 ^ 52 ≤ n := hn.full.resolve_right (by omega)
    obtain ⟨j, rfl⟩ : ∃ j : Nat, f = e + 1 + j := ⟨(f - e - 1).toNat, by omega⟩
    have hlow : value m e < 2 ^ (e + (53 : Nat)) := (value_lt_two_pow_iff 53).2 hm
    have hhigh : (2 : ℚ) ^ (e + (53 : Nat)) ≤ value n (e + 1 + j) := by
      have hn' : (2 ^ 52 : ℚ) ≤ n := by exact_mod_cast hfull
      have hpow : (2 : ℚ) ^ (e + (53 : Nat)) = 2 ^ 52 * 2 ^ (e + 1) := by
        rw [← two_pow_add]
        congr 1
        omega
      have hexp : (2 : ℚ) ^ (e + 1) ≤ 2 ^ (e + 1 + j) :=
        zpow_le_zpow_right₀ (by norm_num) (by omega)
      unfold value
      rw [hpow]
      exact mul_le_mul hn' hexp (by positivity) (by positivity)
    exact hlow.trans_le hhigh
  have hsame : ∀ {m n : Nat} {e : Int}, value m e < value n e ↔ m < n := by
    intro m n e
    unfold value
    rw [mul_lt_mul_iff_left₀ (by positivity)]
    exact_mod_cast Iff.rfl
  rcases lt_trichotomy e f with hef | rfl | hef
  · exact iff_of_true (hbelow h.short h' h.least hef) (Or.inl hef)
  · rw [hsame]
    simp
  · refine iff_of_false ?_ (by omega)
    exact not_lt.2 (le_of_lt (hbelow h'.short h h'.least hef))

-- ================================================================ order

/-- Doubles are compared by their parts. -/
theorem lt_iff_compare (x y : Float) :
    x < y ↔ UnpackedFloat.compare (parts x) (parts y) = some .lt := by
  show decide (UnpackedFloat.lt (parts x) (parts y) = true) = true ↔ _
  rw [decide_eq_true_iff]
  unfold UnpackedFloat.lt
  exact beq_iff_eq

theorem isNaN_eq (x : Float) : x.isNaN = (parts x).isNaN := rfl

/-- Where a double stands among the positive ones: at its value, at the
end above all of them, or below; a NaN stands nowhere. -/
inductive Height where
  | nowhere
  | low
  | at (v : ℚ)
  | top

/-- Where a double stands among the positive numbers. -/
def height (x : Float) : Height :=
  match parts x with
  | .notANumber => .nowhere
  | .infinity .positive => .top
  | .finite .positive m e _ => .at (value m e)
  | .infinity .negative | .zero _ | .finite .negative _ _ _ => .low

/-- What stands below a positive number. -/
def Height.Below (v : ℚ) : Height → Prop
  | .low => True
  | .at w => w < v
  | .nowhere | .top => False

/-- What stands above a positive number. -/
def Height.Above (v : ℚ) : Height → Prop
  | .top => True
  | .at w => v < w
  | .nowhere | .low => False

/-- A double that stands somewhere among the positive ones is a positive
number of that value. -/
theorem parts_of_height {x : Float} {v : ℚ} (h : height x = .at v) :
    ∃ m e hm, parts x = .finite .positive m e hm ∧ value m e = v := by
  unfold height at h
  generalize parts x = u at h ⊢
  cases u with
  | finite s m e hm =>
      cases s with
      | negative => cases h
      | positive =>
          cases h
          exact ⟨m, e, hm, rfl, rfl⟩
  | infinity s => cases s <;> cases h
  | notANumber | zero s => cases h

/-- A positive finite double is as high as its value. -/
theorem height_of_parts {x : Float} {hm : 0 < m} (h : parts x = .finite .positive m e hm) :
    height x = .at (value m e) := by
  unfold height
  rw [h]

theorem parts_of_height_top {x : Float} (h : height x = .top) :
    parts x = .infinity .positive := by
  unfold height at h
  generalize parts x = u at h ⊢
  cases u with
  | infinity s =>
      cases s with
      | negative => cases h
      | positive => rfl
  | finite s m e hm => cases s <;> cases h
  | notANumber | zero s => cases h

/-- The order of exponents, then of significands. -/
theorem compare_lex (m n : Nat) (e f : Int) :
    (compare e f).then (compare m n) = .lt ↔ e < f ∨ (e = f ∧ m < n) := by
  rw [Ordering.then_eq_lt, Int.compare_eq_lt, Int.compare_eq_eq, Nat.compare_eq_lt]

/-- What is below a positive number. -/
theorem lt_positive_iff {x y : Float} {v : ℚ} (hy : height y = .at v) :
    x < y ↔ (height x).Below v := by
  obtain ⟨n, f, hn, hparts, rfl⟩ := parts_of_height hy
  rw [lt_iff_compare, hparts]
  unfold height
  cases hx : parts x with
  | notANumber => exact iff_of_false (by rintro ⟨⟩) (fun h => h)
  | infinity s =>
      cases s with
      | negative => exact iff_of_true rfl trivial
      | positive => exact iff_of_false (by rintro ⟨⟩) (fun h => h)
  | zero s => cases s <;> exact iff_of_true rfl trivial
  | finite s m e hm =>
      cases s with
      | negative => exact iff_of_true rfl trivial
      | positive =>
          show some _ = some _ ↔ value m e < value n f
          rw [Option.some_inj, compare_lex,
            (canonical_parts hx).lt_iff (canonical_parts hparts)]

/-- What is above a positive number. -/
theorem positive_lt_iff {x y : Float} {v : ℚ} (hx : height x = .at v) :
    x < y ↔ (height y).Above v := by
  obtain ⟨m, e, hm, hparts, rfl⟩ := parts_of_height hx
  rw [lt_iff_compare, hparts]
  unfold height
  cases hy : parts y with
  | notANumber => exact iff_of_false (by rintro ⟨⟩) (fun h => h)
  | infinity s =>
      cases s with
      | negative => exact iff_of_false (by rintro ⟨⟩) (fun h => h)
      | positive => exact iff_of_true rfl trivial
  | zero s => cases s <;> exact iff_of_false (by rintro ⟨⟩) (fun h => h)
  | finite s n f hn =>
      cases s with
      | negative => exact iff_of_false (by rintro ⟨⟩) (fun h => h)
      | positive =>
          show some _ = some _ ↔ value m e < value n f
          rw [Option.some_inj, compare_lex,
            (canonical_parts hparts).lt_iff (canonical_parts hy)]

end VideoWall.Numeral
