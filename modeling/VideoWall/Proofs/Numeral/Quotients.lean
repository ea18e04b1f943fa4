/-
Quotients of doubles. A quotient is cut off at a place that leaves bits
enough, rounded, rounded once more if that has carried, and packed. Each
of these steps keeps what lies below a power of two at that power at
most, so a quotient of exact values bounds the quotient of doubles; no
analysis of the rounding is needed.

# What is shown

- `within_div_of_lt`, `within_div`: how large a quotient is.
- `parts_div_one`: to divide by one changes nothing, not even a NaN or an
  infinity.
- `isNaN_div`: by a positive number only a NaN gives a NaN.
- `one_parts`, `two_le_doubleOfNat`: natural numbers as doubles, which
  are infinite in the end.
-/
import VideoWall.Proofs.Numeral.Doubles

namespace VideoWall.Numeral

open Float.Model Float.Model.UnpackedFloat

variable {s : Sign} {m n : Nat} {e f k : Int} {x y : Float} {v w : ℚ}

-- ============================================================== rounding

/-- A shift divides the mantissa. -/
theorem mantissa_shift (em : ExtendedMantissa) (t : Nat) :
    (em >>> t).mantissa = em.mantissa / 2 ^ t := by
  show (Nat.repeat ExtendedMantissa.shiftRightOne t em).mantissa = _
  induction t with
  | zero => simp [Nat.repeat]
  | succ t ih =>
      show (Nat.repeat ExtendedMantissa.shiftRightOne t em).mantissa / 2 = _
      rw [ih, Nat.div_div_eq_div_mul, Nat.pow_succ]

/-- Rounding adds one at most. -/
private theorem roundedMantissa_le (em : ExtendedMantissa) :
    em.roundedMantissa ≤ em.mantissa + 1 := by
  obtain ⟨m, r, s⟩ := em
  cases r <;> cases s <;>
    simp [ExtendedMantissa.roundedMantissa, ExtendedMantissa.accuracy, Accuracy.roundToNearestEven]
  omega

theorem mantissa_ofAccuracy (m : Nat) (a : Accuracy) :
    (ExtendedMantissa.ofMantissaAndAccuracy m a).mantissa = m := by
  cases a with
  | exact => rfl
  | inexact o => cases o <;> rfl

/-- How many binary places a number has too many. -/
def excess (m : Nat) (e : Int) : Nat := (max (m.log2 + e - 52) (-1074) - e).toNat

/-- The bits that rounding drops are the excess. -/
private theorem excess_eq (m : Nat) (e : Int) :
    (Format.targetExponent .binary64 (totalExponent m e) - e).toNat = excess m e := by
  show (max ((m.log2 : Int) + 1 + e - 53) (-1074) - e).toNat = _
  unfold excess
  omega

/-- A canonical double has no bit too many. -/
private theorem excess_canonical {m : Nat} {e : Int} (hm : m.log2 ≤ 52) (he : -1074 ≤ e) :
    excess m e = 0 := by
  unfold excess
  omega

/-- Rounding shifts, rounds, and shifts once more if that has carried. -/
private theorem round_of_shifts (s : Sign) (m : Nat) (e : Int) (a : Accuracy) {t r u m' : Nat}
    (ht : (Format.targetExponent .binary64 (totalExponent m e) - e).toNat = t)
    (hr : ((ExtendedMantissa.ofMantissaAndAccuracy m a) >>> t).roundedMantissa = r)
    (hu : (Format.targetExponent .binary64 (totalExponent r (e + t)) - (e + t)).toNat = u)
    (hm : ((ExtendedMantissa.ofMantissaAndAccuracy r .exact) >>> u).mantissa = m') :
    roundWithAccuracy .binary64 s m e a
      = if h : m' = 0 then .zero s else .finite s m' (e + t + u) (Nat.pos_of_ne_zero h) := by
  subst ht hr hu hm
  rfl

/-- What is shifted out are the places that are too many. -/
theorem round_eq (s : Sign) (m : Nat) (e : Int) (a : Accuracy) {r : Nat}
    (hr : ((ExtendedMantissa.ofMantissaAndAccuracy m a) >>> excess m e).roundedMantissa = r) :
    roundWithAccuracy .binary64 s m e a
      = if h : r / 2 ^ excess r (e + excess m e) = 0 then .zero s
        else .finite s _ (e + excess m e + excess r (e + excess m e)) (Nat.pos_of_ne_zero h) :=
  round_of_shifts s m e a (excess_eq m e) hr (excess_eq r _)
    (by rw [mantissa_shift, mantissa_ofAccuracy])

/-- What is below a power of two is rounded to that power at most. -/
private theorem round_le {s : Sign} {a : Accuracy} (hk : -1074 ≤ k) (he : e ≤ k)
    (hm : value m e < 2 ^ k) : roundWithAccuracy .binary64 s m e a = .zero s
      ∨ ∃ m' e' h, roundWithAccuracy .binary64 s m e a = .finite s m' e' h
          ∧ -1074 ≤ e' ∧ value m' e' ≤ 2 ^ k := by
  generalize hr :
    ((ExtendedMantissa.ofMantissaAndAccuracy m a) >>> excess m e).roundedMantissa = r
  rw [round_eq s m e a hr]
  have ht : (excess m e : Int) = max (max (m.log2 + e - 52) (-1074) - e) 0 := by
    unfold excess
    omega
  generalize excess m e = t at hr ht ⊢
  generalize excess r (e + t) = u
  -- the first rounding goes up to the power at most
  have hfirst : value r (e + t) ≤ 2 ^ k := by
    have hup : r ≤ m / 2 ^ t + 1 := by
      rw [← hr]
      refine (roundedMantissa_le _).trans ?_
      rw [mantissa_shift, mantissa_ofAccuracy]
    obtain ⟨j, hj⟩ : ∃ j : Nat, k = e + j := ⟨(k - e).toNat, by omega⟩
    rw [hj, value_lt_two_pow_iff] at hm
    have htj : t ≤ j := by
      have hlog : m.log2 ≤ j := by
        rcases Nat.eq_zero_or_pos m with rfl | hpos
        · simp
        · exact Nat.le_of_lt ((Nat.log2_lt (Nat.ne_of_gt hpos)).2 hm)
      omega
    obtain ⟨i, rfl⟩ := Nat.exists_eq_add_of_le htj
    have hdiv : m / 2 ^ t < 2 ^ i := by
      rw [Nat.div_lt_iff_lt_mul (by positivity), ← pow_add, Nat.add_comm]
      exact hm
    have hk' : k = e + t + i := by omega
    rw [hk', value_le_two_pow_iff]
    omega
  by_cases hzero : r / 2 ^ u = 0
  · left
    rw [dif_pos hzero]
  · right
    rw [dif_neg hzero]
    refine ⟨_, _, _, rfl, by omega, ?_⟩
    exact (value_shift_le r u (e + t)).trans hfirst

-- ============================================================== division

/-- The quotient of two numbers, cut off, is not above it. -/
private theorem divCore_le (m n : Nat) (e f : Int) :
    ∃ q g a, divCore .binary64 m e n f = (q, g, a) ∧ g ≤ e - f
      ∧ value q g * value n f ≤ value m e := by
  refine ⟨_, _, _, rfl, min_le_left _ _, ?_⟩
  generalize hg : min (e - f)
    (Format.targetExponent .binary64 (totalExponent m e - totalExponent n f)) = g
  obtain ⟨t, ht⟩ : ∃ t : Nat, e - f - g = t := ⟨(e - f - g).toNat, by omega⟩
  have hshift : (e - f - g).toNat = t := by omega
  rw [hshift, Nat.shiftLeft_eq]
  have hfloor : ((m * 2 ^ t / n : Nat) : ℚ) * n ≤ m * 2 ^ t := by
    exact_mod_cast Nat.div_mul_le_self (m * 2 ^ t) n
  have hpow : (2 : ℚ) ^ e = 2 ^ t * (2 ^ g * 2 ^ f) := by
    rw [← zpow_natCast, ← zpow_add₀ (by norm_num), ← zpow_add₀ (by norm_num)]
    congr 1
    omega
  unfold value
  rw [hpow]
  calc ((m * 2 ^ t / n : Nat) : ℚ) * 2 ^ g * (n * 2 ^ f)
      = ((m * 2 ^ t / n : Nat) : ℚ) * n * (2 ^ g * 2 ^ f) := by ring
    _ ≤ m * 2 ^ t * (2 ^ g * 2 ^ f) := mul_le_mul_of_nonneg_right hfloor (by positivity)
    _ = m * (2 ^ t * (2 ^ g * 2 ^ f)) := by ring

-- ============================================================== packing

/-- Nothing, or a positive number below a bound. -/
def Within (b : ℚ) : UnpackedFloat → Prop
  | .zero _ => True
  | .finite .positive m e _ => value m e < b
  | .notANumber | .infinity _ | .finite .negative _ _ _ => False

/-- Doubles within a bound are zeros or positive with a value below it. -/
theorem Within.cases {b : ℚ} {u : UnpackedFloat} (h : Within b u) :
    (∃ s, u = .zero s) ∨ ∃ m e hm, u = .finite .positive m e hm ∧ value m e < b := by
  cases u with
  | zero s => exact Or.inl ⟨s, rfl⟩
  | finite s m e hm =>
      cases s with
      | negative => exact h.elim
      | positive => exact Or.inr ⟨m, e, hm, rfl, h⟩
  | notANumber | infinity s => exact h.elim

/-- Packing what is not too large makes it no larger. -/
private theorem within_pack {hpos : 0 < m} {k : Nat} {b : ℚ} (hk : k ≤ 971) (hb : 2 ^ k < b)
    (he : -1074 ≤ e) (hm : value m e ≤ 2 ^ k) :
    Within b (UnpackedFloat.unpack .binary64
      (UnpackedFloat.pack .binary64 (.finite .positive m e hpos))) := by
  have hmost : e ≤ 971 := by
    have hone : (2 : ℚ) ^ e ≤ value m e := by
      have hm' : (1 : ℚ) ≤ m := by exact_mod_cast hpos
      exact le_mul_of_one_le_left (by positivity) hm'
    have hpow : (2 : ℚ) ^ e ≤ 2 ^ (k : Int) := by
      rw [zpow_natCast]
      exact hone.trans hm
    have hek : e ≤ k := (zpow_le_zpow_iff_right₀ (by norm_num)).1 hpow
    omega
  by_cases hfull : m.log2 = 52
  · rw [unpack_pack_full hfull he hmost]
    exact hm.trans_lt hb
  · rw [unpack_pack_short .positive hfull hmost]
    by_cases hzero : m % 2 ^ 52 = 0
    · rw [dif_pos hzero]
      exact trivial
    · rw [dif_neg hzero]
      have hlow : value (m % 2 ^ 52) (-1074) ≤ value m e := by
        have hm' : ((m % 2 ^ 52 : Nat) : ℚ) ≤ m := by exact_mod_cast Nat.mod_le m (2 ^ 52)
        have hpow : (2 : ℚ) ^ (-1074 : Int) ≤ 2 ^ e := zpow_le_zpow_right₀ (by norm_num) he
        exact mul_le_mul hm' hpow (by positivity) (by positivity)
      exact (hlow.trans hm).trans_lt hb

/-- The exponents of two numbers are no further apart than their values. -/
private theorem Canonical.exponents_le {k : Nat} (h : Canonical m e) (h' : Canonical n f)
    (hlt : value m e < 2 ^ k * value n f) : e - f ≤ k := by
  rcases h.full with hfull | rfl
  · have hlow : (2 : ℚ) ^ (e + (52 : Nat)) ≤ value m e := by
      rw [← not_lt, value_lt_two_pow_iff]
      omega
    have hhigh : value n f < 2 ^ (f + (53 : Nat)) := (value_lt_two_pow_iff 53).2 h'.short
    have hpow : (2 : ℚ) ^ k * 2 ^ (f + (53 : Nat)) = 2 ^ (k + f + 53) := by
      rw [← zpow_natCast, ← zpow_add₀ (by norm_num)]
      congr 1
      push_cast
      ring
    have hchain : (2 : ℚ) ^ (e + (52 : Nat)) < 2 ^ ((k : Int) + f + 53) := by
      rw [← hpow]
      exact (hlow.trans_lt hlt).trans (mul_lt_mul_of_pos_left hhigh (by positivity))
    have hexp : e + (52 : Nat) < k + f + 53 := (zpow_lt_zpow_iff_right₀ (by norm_num)).1 hchain
    omega
  · have hleast := h'.least
    omega

/-- The quotient of two positive numbers stays within a power of two. -/
private theorem within_div_of_lt {k : Nat} {b : ℚ} (hk : k ≤ 971) (hb : 2 ^ k < b)
    (hx : height x = .at v)
    (hy : height y = .at w) (hlt : v < 2 ^ k * w) : Within b (parts (x / y)) := by
  obtain ⟨m, e, hm, hxparts, rfl⟩ := parts_of_height hx
  obtain ⟨n, f, hn, hyparts, rfl⟩ := parts_of_height hy
  have hexp := (canonical_parts hxparts).exponents_le (canonical_parts hyparts) hlt
  obtain ⟨q, g, a, hcore, hg, hfloor⟩ := divCore_le m n e f
  have hq : value q g < 2 ^ (k : Int) := by
    rw [zpow_natCast]
    exact lt_of_mul_lt_mul_right (hfloor.trans_lt hlt) (value_nonneg n f)
  have hdiv : UnpackedFloat.div .binary64 (parts x) (parts y)
      = roundWithAccuracy .binary64 .positive q g a := by
    rw [hxparts, hyparts]
    show roundWithAccuracy .binary64 .positive (divCore .binary64 m e n f).1
      (divCore .binary64 m e n f).2.1 (divCore .binary64 m e n f).2.2 = _
    rw [hcore]
  rw [parts_div, hdiv]
  rcases round_le (s := .positive) (a := a) (k := k) (by omega) (by omega) hq with
    hzero | ⟨m', e', hpos, hround, hleast, hle⟩
  · rw [hzero]
    exact trivial
  · rw [hround]
    rw [zpow_natCast] at hle
    exact within_pack hk hb hleast hle

/-- What is within twice a power of two stays so when it is divided by two
or more, by infinity even. -/
theorem within_div {k : Nat} (hk : k ≤ 971) (hx : Within (2 ^ (k + 1)) (parts x))
    (hy : height y = .top ∨ ∃ w, height y = .at w ∧ 2 ≤ w) :
    Within (2 ^ (k + 1)) (parts (x / y)) := by
  have hb : (2 : ℚ) ^ k < 2 ^ (k + 1) := pow_lt_pow_right₀ (by norm_num) (by omega)
  have hzero : ∀ s, UnpackedFloat.div .binary64 (parts x) (parts y) = .zero s →
      Within (2 ^ (k + 1)) (parts (x / y)) := by
    intro s h
    rw [parts_div, h]
    cases s with
    | negative => exact trivial
    | positive => exact trivial
  rcases hx.cases with ⟨s, hxparts⟩ | ⟨m, e, hm, hxparts, hlt⟩
  · rcases hy with htop | ⟨w, hw, -⟩
    · exact hzero _ (by rw [hxparts, parts_of_height_top htop]; rfl)
    · obtain ⟨n, f, hn, hyparts, -⟩ := parts_of_height hw
      exact hzero _ (by rw [hxparts, hyparts]; rfl)
  · rcases hy with htop | ⟨w, hw, htwo⟩
    · exact hzero _ (by rw [hxparts, parts_of_height_top htop]; rfl)
    · refine within_div_of_lt hk hb (height_of_parts hxparts) hw ?_
      calc value m e < 2 ^ k * 2 := by rw [← pow_succ]; exact hlt
        _ ≤ 2 ^ k * w := mul_le_mul_of_nonneg_left htwo (by positivity)

-- ======================================================= division by one

/-- Shifting out zeros loses nothing. -/
private theorem shift_exact (m t : Nat) :
    (ExtendedMantissa.ofMantissaAndAccuracy (m * 2 ^ t) .exact) >>> t = ⟨m, false, false⟩ := by
  show Nat.repeat ExtendedMantissa.shiftRightOne t ⟨m * 2 ^ t, false, false⟩ = _
  induction t generalizing m with
  | zero => simp [Nat.repeat]
  | succ t ih =>
      have hdouble : m * 2 ^ (t + 1) = m * 2 * 2 ^ t := by rw [Nat.pow_succ]; ring
      show ExtendedMantissa.shiftRightOne
        (Nat.repeat ExtendedMantissa.shiftRightOne t ⟨m * 2 ^ (t + 1), false, false⟩) = _
      rw [hdouble, ih]
      show (⟨m * 2 / 2, m * 2 % 2 != 0, false || false⟩ : ExtendedMantissa) = _
      simp

private theorem log2_mul_two_pow (hm : 0 < m) (t : Nat) : (m * 2 ^ t).log2 = m.log2 + t := by
  have hm0 := Nat.ne_of_gt hm
  rw [Nat.log2_eq_iff (by positivity)]
  have hlow := Nat.log2_self_le hm0
  have hhigh := Nat.lt_log2_self (n := m)
  constructor
  · rw [Nat.pow_add]
    exact Nat.mul_le_mul_right _ hlow
  · rw [Nat.add_right_comm, Nat.pow_add]
    exact Nat.mul_lt_mul_of_pos_right hhigh (by positivity)

theorem Canonical.log2_le (h : Canonical m e) (hm : 0 < m) : m.log2 ≤ 52 :=
  Nat.le_of_lt_succ ((Nat.log2_lt (Nat.ne_of_gt hm)).2 h.short)

/-- A number written with zeros behind it is rounded to itself. -/
private theorem Canonical.round_exact (h : Canonical m e) (hm : 0 < m) (s : Sign) (t : Nat) :
    roundWithAccuracy .binary64 s (m * 2 ^ t) (e - t) .exact = .finite s m e hm := by
  have hlog := h.log2_le hm
  have hleast := h.least
  have hexcess : excess (m * 2 ^ t) (e - t) = t := by
    unfold excess
    rw [log2_mul_two_pow hm]
    rcases h.full with hfull | rfl
    · have hlow : 52 ≤ m.log2 := (Nat.le_log2 (Nat.ne_of_gt hm)).2 hfull
      omega
    · omega
  have hr : ((ExtendedMantissa.ofMantissaAndAccuracy (m * 2 ^ t) .exact)
      >>> excess (m * 2 ^ t) (e - t)).roundedMantissa = m := by
    rw [hexcess, shift_exact]
    rfl
  have hsame : e - (t : Int) + t = e := by omega
  rw [round_eq s _ _ _ hr, hexcess, hsame, excess_canonical hlog hleast, Nat.pow_zero,
    Nat.div_one, dif_neg (Nat.ne_of_gt hm)]
  exact finite_eq rfl (by omega)

/-- The quotient by one has the number with zeros behind it. -/
private theorem Canonical.divCore_one (h : Canonical m e) (hm : 0 < m) :
    ∃ t : Nat, divCore .binary64 m e (2 ^ 52) (-52) = (m * 2 ^ t, e - t, .exact) := by
  have hlog := h.log2_le hm
  have hleast := h.least
  have htarget : Format.targetExponent .binary64 (totalExponent m e - totalExponent (2 ^ 52) (-52))
      = max (m.log2 + e - 53) (-1074) := by
    show max ((m.log2 : Int) + 1 + e - ((2 ^ 52 : Nat).log2 + 1 + -52) - 53) (-1074) = _
    rw [Nat.log2_two_pow]
    omega
  have hcore : divCore .binary64 m e (2 ^ 52) (-52)
      = let g := min (e - (-52)) (max (m.log2 + e - 53) (-1074))
        ((m <<< (e - (-52) - g).toNat) / 2 ^ 52, g,
          accuracyOfFraction ((m <<< (e - (-52) - g).toNat) % 2 ^ 52) (2 ^ 52)) := by
    rw [← htarget]
    rfl
  rw [hcore]
  dsimp only
  generalize hg : min (e - (-52)) (max (m.log2 + e - 53) (-1074)) = g
  obtain ⟨t, rfl⟩ : ∃ t : Nat, g = e - t := ⟨(e - g).toNat, by omega⟩
  have hshift : m <<< (e - (-52) - (e - (t : Int))).toNat = m * 2 ^ t * 2 ^ 52 := by
    have ht : (e - (-52) - (e - (t : Int))).toNat = t + 52 := by omega
    rw [ht, Nat.shiftLeft_eq, Nat.pow_add, Nat.mul_assoc]
  refine ⟨t, ?_⟩
  rw [hshift, Nat.mul_div_cancel _ (by decide), Nat.mul_mod_left]
  rfl

/-- The parts of a double are packed and unpacked without a loss. -/
private theorem unpack_pack_parts (x : Float) :
    UnpackedFloat.unpack .binary64 (UnpackedFloat.pack .binary64 (parts x)) = parts x :=
  unpack_pack_unpack x.toModel.toBits.toBitVec

/-- To divide by one changes nothing. -/
theorem parts_div_one {hm : 0 < 2 ^ 52} (hy : parts y = .finite .positive (2 ^ 52) (-52) hm) :
    parts (x / y) = parts x := by
  have hsign : ∀ s : Sign, s / .positive = s := by
    rintro ⟨⟩
    · rfl
    · rfl
  have hdiv : UnpackedFloat.div .binary64 (parts x) (parts y) = parts x := by
    rw [hy]
    cases hx : parts x with
    | notANumber => rfl
    | infinity s => exact congrArg UnpackedFloat.infinity (hsign s)
    | zero s => exact congrArg UnpackedFloat.zero (hsign s)
    | finite s m e hm =>
        obtain ⟨t, ht⟩ := (canonical_parts hx).divCore_one hm
        show roundWithAccuracy .binary64 (s / .positive)
          (divCore .binary64 m e (2 ^ 52) (-52)).1 (divCore .binary64 m e (2 ^ 52) (-52)).2.1
          (divCore .binary64 m e (2 ^ 52) (-52)).2.2 = _
        rw [ht, hsign, (canonical_parts hx).round_exact hm]
  rw [parts_div, hdiv, unpack_pack_parts]

-- ================================================================== NaN

/-- Only the topmost exponent says that there is no number. -/
private theorem isNaN_ofFields {field : BitVec 11} (h : field ≠ -1#11) (s : Sign)
    (fraction : BitVec 52) : (ofFields s field fraction).isNaN = false := by
  by_cases hzero : field = 0#11
  · rw [hzero, ofFields_short]
    by_cases hnone : fraction = 0#52
    · rw [dif_pos hnone]
      rfl
    · rw [dif_neg hnone]
      rfl
  · rw [ofFields_full h hzero]
    rfl

/-- Packing makes no number of what is none, and of a number nothing else. -/
private theorem isNaN_unpack_pack (u : UnpackedFloat) :
    (UnpackedFloat.unpack .binary64 (UnpackedFloat.pack .binary64 u)).isNaN = u.isNaN := by
  cases u with
  | notANumber => rfl
  | infinity s => cases s <;> rfl
  | zero s => cases s <;> rfl
  | finite s m e hm =>
      show _ = false
      rw [pack_finite]
      split
      · cases s <;> rfl
      · split
        · rw [unpack_packComponents]
          refine isNaN_ofFields (fun h => ?_) s _
          have h' := congrArg BitVec.toNat h
          rw [BitVec.toNat_ofNat] at h'
          change (e + 1075).toNat % 2 ^ 11 = 2047 at h'
          omega
        · rw [unpack_packComponents]
          exact isNaN_ofFields (by decide) s _

private theorem isNaN_number (s : Sign) (m : Nat) (e : Int) :
    (if h : m = 0 then UnpackedFloat.zero s else .finite s m e (Nat.pos_of_ne_zero h)).isNaN
      = false := by
  by_cases h : m = 0
  · rw [dif_pos h]
    rfl
  · rw [dif_neg h]
    rfl

/-- A quotient by a positive number is a NaN only if what is divided is one. -/
theorem isNaN_div (hy : height y = .at w) : (x / y).isNaN = x.isNaN := by
  obtain ⟨n, f, hn, hparts, rfl⟩ := parts_of_height hy
  rw [isNaN_eq, isNaN_eq, parts_div, hparts, isNaN_unpack_pack]
  cases parts x with
  | notANumber => rfl
  | infinity s => rfl
  | zero s => rfl
  | finite s m e hm =>
      show (roundWithAccuracy _ _ _ _ _).isNaN = false
      rw [round_eq _ _ _ _ rfl]
      exact isNaN_number _ _ _

-- ============================================== natural numbers as doubles

theorem one_parts : parts (doubleOfNat 1) = .finite .positive (2 ^ 52) (-52) (by decide) := rfl

/-- A number of so many binary digits, shifted. -/
theorem le_scale {j : Nat} (hn : n ≠ 0) (hj : (n.log2 : Int) = e + j) :
    2 ^ j ≤ (Format.scale n 1 (-e)).1 / (Format.scale n 1 (-e)).2 := by
  have hlow : 2 ^ n.log2 ≤ n := Nat.log2_self_le hn
  unfold Format.scale
  split
  case isTrue h =>
    have hpow : n.log2 + (-e).toNat = j := by omega
    show 2 ^ j ≤ n * 2 ^ (-e).toNat / 1
    rw [Nat.div_one, ← hpow, Nat.pow_add]
    exact Nat.mul_le_mul_right _ hlow
  case isFalse h =>
    have hpow : j + (- -e).toNat = n.log2 := by omega
    show 2 ^ j ≤ n / (1 * 2 ^ (- -e).toNat)
    rw [Nat.one_mul, Nat.le_div_iff_mul_le (by positivity), ← Nat.pow_add, hpow]
    exact hlow

/-- Rounding to the nearest is not below rounding down. -/
theorem div_le_roundDiv (num den : Nat) : num / den ≤ Format.roundDiv num den := by
  unfold Format.roundDiv
  dsimp only
  split
  · exact Nat.le_refl _
  · split
    · exact Nat.le_add_right _ _
    · exact Nat.le_succ _

/-- A natural number gets the exponent that its binary digits leave it. -/
private theorem nearest_eq (hn : n ≠ 0) :
    double.nearest false n 1
      = double.bits false
          (Format.roundDiv (Format.scale n 1 (-((n.log2 : Int) - 52))).1
            (Format.scale n 1 (-((n.log2 : Int) - 52))).2) (n.log2 - 52) := by
  have hunfold : double.nearest false n 1
      = if n = 0 then double.bits false 0 (-1074)
        else
          let guess : Int := (n.log2 : Int) - (Nat.log2 1 : Nat) - 53
          let first := Format.scale n 1 (-guess)
          let e := max (if first.1 / first.2 < 2 ^ 53 then guess else guess + 1) (-1074)
          let second := Format.scale n 1 (-e)
          double.bits false (Format.roundDiv second.1 second.2) e := rfl
  have hone : (n.log2 : Int) - (Nat.log2 1 : Nat) - 53 = n.log2 - 53 := by
    rw [show Nat.log2 1 = 0 from rfl]
    omega
  have hexp : max ((n.log2 : Int) - 53 + 1) (-1074) = n.log2 - 52 := by omega
  -- the guess is always one too small
  have hdigits := le_scale (e := n.log2 - 53) (j := 53) hn (by omega)
  rw [hunfold, if_neg hn, hone]
  dsimp only
  rw [if_neg (by omega), hexp]

/-- The bits of a natural number from two on are those of two or more. -/
private theorem nearest_bounds (hn : 2 ≤ n) :
    1024 * 2 ^ 52 ≤ double.nearest false n 1 ∧ double.nearest false n 1 ≤ 2047 * 2 ^ 52 := by
  have hn0 : n ≠ 0 := by omega
  have hlog : 1 ≤ n.log2 := (Nat.le_log2 hn0).2 hn
  have hdigits := le_scale (e := n.log2 - 52) (j := 52) hn0 (by omega)
  have hround := div_le_roundDiv (Format.scale n 1 (-((n.log2 : Int) - 52))).1
    (Format.scale n 1 (-((n.log2 : Int) - 52))).2
  rw [nearest_eq hn0, double_bits, if_neg (by decide)]
  omega

/-- Bits from those of two up to those of infinity are a number that is not
below two, or infinity. -/
private theorem two_le_ofBits {bits : Nat} (hlow : 1024 * 2 ^ 52 ≤ bits)
    (hhigh : bits ≤ 2047 * 2 ^ 52) : height (Float.ofBits bits.toUInt64) = .top
      ∨ ∃ w, height (Float.ofBits bits.toUInt64) = .at w ∧ 2 ≤ w := by
  have hsign : decide (bits / 2 ^ 63 % 2 = 1) = false := decide_eq_false (by omega)
  have hread := read_ofBits (by omega : bits < 2 ^ 64)
  rw [double_read, hsign] at hread
  unfold height
  generalize parts (Float.ofBits bits.toUInt64) = u at hread ⊢
  split at hread
  case isTrue htop =>
    rw [if_pos (by omega)] at hread
    cases u with
    | infinity s =>
        cases s with
        | negative => cases hread
        | positive => exact Or.inl rfl
    | notANumber | zero s | finite s m e hm => cases hread
  case isFalse htop =>
    rw [if_neg (by omega)] at hread
    cases u with
    | notANumber | infinity s => cases hread
    | zero s =>
        have hnone := (Reading.finite.inj hread).2.1
        omega
    | finite s m e hm =>
        obtain ⟨hs, hm', he⟩ := Reading.finite.inj hread
        cases s with
        | negative => cases hs
        | positive =>
            refine Or.inr ⟨value m e, rfl, ?_⟩
            -- the bit in front that is not written makes the mantissa full, and the
            -- exponent is -51 at least
            have hfull : (2 : ℚ) ^ 52 ≤ m := by
              rw [← hm']
              push_cast
              linarith [Nat.cast_nonneg (α := ℚ) (bits % 2 ^ 52)]
            have hexp : (2 : ℚ) ^ (-51 : Int) ≤ 2 ^ e :=
              zpow_le_zpow_right₀ (by norm_num) (by omega)
            calc (2 : ℚ) = 2 ^ 52 * 2 ^ (-51 : Int) := by norm_num
              _ ≤ value m e := mul_le_mul hfull hexp (by positivity) (by positivity)

/-- A natural number from two on is not below two as a double. -/
theorem two_le_doubleOfNat (hn : 2 ≤ n) :
    height (doubleOfNat n) = .top ∨ ∃ w, height (doubleOfNat n) = .at w ∧ 2 ≤ w :=
  two_le_ofBits (nearest_bounds hn).1 (nearest_bounds hn).2

end VideoWall.Numeral
