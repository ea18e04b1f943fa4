/-
Decoding undoes encoding, and nothing else is decoded.

The first byte of a character tells how many bytes follow it and in which
range the first of them lies (`lead?`). The bytes that a character is
written with keep to these ranges, so one step of decoding takes exactly
them and gives the character back (`step_encodeChar`). The bytes of a text
are then decoded one character after the other (`decodeWithin_encode`), and
no two texts have the same bytes.

The other way round, the ranges leave a character no bytes but its own
(`step_eq_some`): a text is decoded from its own bytes alone
(`decode?_eq_some_iff`).

A byte below 128 is in none of these ranges. Whatever is begun before it ends
there, well-formed or not, and decoding goes on behind it as if nothing had
been before (`decodeLossy_append`).
-/
import VideoWall.Proofs.Text.Boundaries

namespace VideoWall.Text.Utf8

variable {b lo hi : UInt8} {acc n k : Nat} {rest : List UInt8} {s t : List Char}

-- ============================================================ bytes that follow

theorem toNat_toUInt8 (h : n < 256) : n.toUInt8.toNat = n := UInt8.toNat_ofNat_of_lt' h

/-- A byte after the first one counts by its last six bits. -/
theorem continueChar_trail (hk : k < 64) (hlo : lo.toNat ≤ 0x80 + k) (hhi : 0x80 + k ≤ hi.toNat) :
    continueChar (n + 1) lo hi acc ((0x80 + k).toUInt8 :: rest)
      = continueChar n 0x80 0xBF (acc * 64 + k) rest := by
  have hbyte : (0x80 + k).toUInt8.toNat = 0x80 + k := toNat_toUInt8 (by omega)
  have hrange : (decide (lo ≤ (0x80 + k).toUInt8) && decide ((0x80 + k).toUInt8 ≤ hi)) = true := by
    rw [Bool.and_eq_true, decide_eq_true_iff, decide_eq_true_iff, UInt8.le_iff_toNat_le,
      UInt8.le_iff_toNat_le, hbyte]
    exact ⟨hlo, hhi⟩
  have hbits : (0x80 + k) % 64 = k := by omega
  rw [continueChar, if_pos hrange, hbyte, hbits]

/-- After the second byte the range is the whole one. -/
private theorem continueChar_any (hk : k < 64) :
    continueChar (n + 1) 0x80 0xBF acc ((0x80 + k).toUInt8 :: rest)
      = continueChar n 0x80 0xBF (acc * 64 + k) rest := by
  have hlo : (0x80 : UInt8).toNat = 128 := rfl
  have hhi : (0xBF : UInt8).toNat = 191 := rfl
  exact continueChar_trail hk (by omega) (by omega)

-- ============================================================== first bytes

theorem lead?_two : ∀ k < 32, 2 ≤ k → lead? (0xC0 + k).toUInt8 = some (1, 0x80, 0xBF) := by
  decide

/-- The range of the second of three bytes: overlong forms and surrogates
are kept out. -/
def secondOfThree (k : Nat) : UInt8 × UInt8 :=
  if k = 0 then (0xA0, 0xBF) else if k = 13 then (0x80, 0x9F) else (0x80, 0xBF)

theorem secondOfThree_range (k : Nat) :
    0x80 ≤ (secondOfThree k).1.toNat ∧ (secondOfThree k).2.toNat ≤ 0xBF := by
  unfold secondOfThree
  split_ifs <;> decide

theorem lead?_three :
    ∀ k < 16, lead? (0xE0 + k).toUInt8 = some (2, secondOfThree k) := by
  decide

/-- The range of the second of four bytes: overlong forms and what is past
the last character are kept out. -/
def secondOfFour (k : Nat) : UInt8 × UInt8 :=
  if k = 0 then (0x90, 0xBF) else if k = 4 then (0x80, 0x8F) else (0x80, 0xBF)

theorem secondOfFour_range (k : Nat) :
    0x80 ≤ (secondOfFour k).1.toNat ∧ (secondOfFour k).2.toNat ≤ 0xBF := by
  unfold secondOfFour
  split_ifs <;> decide

theorem lead?_four : ∀ k < 5, lead? (0xF0 + k).toUInt8 = some (3, secondOfFour k) := by
  decide

-- ============================================================= one character

/-- A leading byte tells how many bytes follow and where the first may lie. -/
theorem step_of_lead {more : Nat} (hb : 0x80 ≤ b.toNat) {range : UInt8 × UInt8}
    (hlead : lead? b = some (more, range)) :
    step b rest = continueChar more range.1 range.2
      (b.toNat % (if more = 1 then 32 else if more = 2 then 16 else 8)) rest := by
  have hlarge : ¬ b < 0x80 := by
    rw [UInt8.lt_iff_toNat_lt]
    exact Nat.not_lt.2 hb
  rw [step, if_neg hlarge, hlead]

/-- One step of decoding takes the bytes of one character. -/
theorem step_encodeChar (c : Char) (rest : List UInt8) :
    ∃ first more, encodeChar c = first :: more ∧ step first (more ++ rest) = (some c, rest) := by
  have hback : Char.ofNat c.toNat = c := Char.ofNat_toNat c
  have hvalid : c.toNat < 0xD800 ∨ 0xDFFF < c.toNat ∧ c.toNat < 0x110000 := c.valid
  generalize hn : c.toNat = n at hback hvalid
  unfold encodeChar
  rw [hn]
  dsimp only
  -- one to four bytes, by the size of the number; each case reads the bits back
  by_cases h1 : n < 0x80
  · have hsmall : n.toUInt8 < 0x80 := by
      rw [UInt8.lt_iff_toNat_lt, toNat_toUInt8 (by omega)]
      exact h1
    refine ⟨_, _, if_pos h1, ?_⟩
    rw [step, if_pos hsmall, toNat_toUInt8 (by omega), hback]
    rfl
  rw [if_neg h1]
  by_cases h2 : n < 0x800
  · refine ⟨_, _, if_pos h2, ?_⟩
    have hfirst : (0xC0 + n / 64).toUInt8.toNat = 0xC0 + n / 64 := toNat_toUInt8 (by omega)
    have hnumber : (0xC0 + n / 64) % 32 * 64 + n % 64 = n := by omega
    rw [step_of_lead (by omega) (lead?_two _ (by omega) (by omega)), hfirst, if_pos rfl,
      List.cons_append, continueChar_any (Nat.mod_lt _ (by decide)), continueChar, hnumber, hback]
    rfl
  rw [if_neg h2]
  by_cases h3 : n < 0x10000
  · refine ⟨_, _, if_pos h3, ?_⟩
    have hfirst : (0xE0 + n / 4096).toUInt8.toNat = 0xE0 + n / 4096 := toNat_toUInt8 (by omega)
    have hnumber : ((0xE0 + n / 4096) % 16 * 64 + n / 64 % 64) * 64 + n % 64 = n := by omega
    have hsecond : (secondOfThree (n / 4096)).1.toNat ≤ 0x80 + n / 64 % 64
        ∧ 0x80 + n / 64 % 64 ≤ (secondOfThree (n / 4096)).2.toNat := by
      unfold secondOfThree
      split_ifs <;> refine ⟨?_, ?_⟩ <;> simp <;> omega
    rw [step_of_lead (by omega) (lead?_three _ (by omega)), hfirst, if_neg (by decide), if_pos rfl,
      List.cons_append, continueChar_trail (Nat.mod_lt _ (by decide)) hsecond.1 hsecond.2,
      List.cons_append, continueChar_any (Nat.mod_lt _ (by decide)), continueChar, hnumber, hback]
    rfl
  · refine ⟨_, _, if_neg h3, ?_⟩
    have hfirst : (0xF0 + n / 262144).toUInt8.toNat = 0xF0 + n / 262144 := toNat_toUInt8 (by omega)
    have hnumber : (((0xF0 + n / 262144) % 8 * 64 + n / 4096 % 64) * 64 + n / 64 % 64) * 64 + n % 64
        = n := by omega
    have hsecond : (secondOfFour (n / 262144)).1.toNat ≤ 0x80 + n / 4096 % 64
        ∧ 0x80 + n / 4096 % 64 ≤ (secondOfFour (n / 262144)).2.toNat := by
      unfold secondOfFour
      split_ifs <;> refine ⟨?_, ?_⟩ <;> simp <;> omega
    rw [step_of_lead (by omega) (lead?_four _ (by omega)), hfirst, if_neg (by decide),
      if_neg (by decide), List.cons_append,
      continueChar_trail (Nat.mod_lt _ (by decide)) hsecond.1 hsecond.2, List.cons_append,
      continueChar_any (Nat.mod_lt _ (by decide)), List.cons_append,
      continueChar_any (Nat.mod_lt _ (by decide)), continueChar, hnumber, hback]
    rfl

-- ================================================================ whole texts

/-- Enough fuel decodes all that was encoded. -/
theorem decodeWithin_encode (s : List Char) (hfuel : s.length ≤ n) :
    decodeWithin n (encode s) = s.map some := by
  induction s generalizing n with
  | nil => cases n <;> rfl
  | cons c s ih =>
      obtain ⟨n, rfl⟩ : ∃ m, n = m + 1 := Nat.exists_eq_succ_of_ne_zero (by simp at hfuel; omega)
      obtain ⟨first, more, hbytes, hstep⟩ := step_encodeChar c (encode s)
      rw [encode_cons, hbytes, List.cons_append, decodeWithin, hstep, List.map_cons]
      exact congrArg (some c :: ·) (ih (Nat.le_of_succ_le_succ hfuel))

/-- A text has no more characters than bytes. -/
theorem length_le_encode (s : List Char) : s.length ≤ (encode s).length := by
  induction s with
  | nil => exact Nat.le_refl 0
  | cons c s ih =>
      have := encodeChar_length_pos c
      rw [encode_cons, List.length_append, List.length_cons]
      omega

/-- Encoded texts are decoded. -/
@[simp] theorem decode?_encode (s : List Char) : decode? (encode s) = some s := by
  rw [decode?, decodeWithin_encode s (length_le_encode s)]
  induction s with
  | nil => rfl
  | cons c s ih => rw [List.map_cons, List.mapM_cons, ih]; rfl

/-- Lossy decoding loses nothing of an encoded text. -/
@[simp] theorem decodeLossy_encode (s : List Char) : decodeLossy (encode s) = s := by
  rw [decodeLossy, decodeWithin_encode s (length_le_encode s), List.map_map]
  exact List.map_id s

theorem encode_injective : Function.Injective encode := fun s t h =>
  Option.some.inj (by rw [← decode?_encode s, h, decode?_encode t])

-- ============================================================ only its bytes

/-- There are three kinds of leading bytes. -/
theorem lead?_eq_some {more : Nat} {range : UInt8 × UInt8} (h : lead? b = some (more, range)) :
    (∃ k < 32, 2 ≤ k ∧ b.toNat = 0xC0 + k ∧ more = 1 ∧ range = (0x80, 0xBF))
      ∨ (∃ k < 16, b.toNat = 0xE0 + k ∧ more = 2 ∧ range = secondOfThree k)
      ∨ ∃ k < 5, b.toNat = 0xF0 + k ∧ more = 3 ∧ range = secondOfFour k := by
  have hfirst : ∀ i < 16, ∀ j < 16, lead? (16 * i + j).toUInt8 = none
      ∨ (0xC2 ≤ 16 * i + j ∧ 16 * i + j < 0xE0) ∨ (0xE0 ≤ 16 * i + j ∧ 16 * i + j < 0xF0)
      ∨ (0xF0 ≤ 16 * i + j ∧ 16 * i + j < 0xF5) := by decide
  have hb : b.toNat.toUInt8 = b := UInt8.ofNat_toNat
  have hlt : b.toNat < 256 := b.toNat_lt
  have hrange := hfirst (b.toNat / 16) (by omega) (b.toNat % 16) (by omega)
  rw [Nat.div_add_mod, hb, h] at hrange
  rcases hrange with hnone | ⟨hlow, hhigh⟩ | ⟨hlow, hhigh⟩ | ⟨hlow, hhigh⟩
  · cases hnone
  · obtain ⟨k, hk⟩ := Nat.exists_eq_add_of_le (show 0xC0 ≤ b.toNat by omega)
    have hlead := lead?_two k (by omega) (by omega)
    rw [← hk, hb, h] at hlead
    cases hlead
    exact .inl ⟨k, by omega, by omega, hk, rfl, rfl⟩
  · obtain ⟨k, hk⟩ := Nat.exists_eq_add_of_le hlow
    have hlead := lead?_three k (by omega)
    rw [← hk, hb, h] at hlead
    cases hlead
    exact .inr (.inl ⟨k, by omega, hk, rfl, rfl⟩)
  · obtain ⟨k, hk⟩ := Nat.exists_eq_add_of_le hlow
    have hlead := lead?_four k (by omega)
    rw [← hk, hb, h] at hlead
    cases hlead
    exact .inr (.inr ⟨k, by omega, hk, rfl, rfl⟩)

/-- A byte that continues a character brings six bits of it. -/
private theorem continueChar_eq_some {bytes : List UInt8} {c : Char} (hlo : 0x80 ≤ lo.toNat)
    (hhi : hi.toNat ≤ 0xBF) (h : continueChar (n + 1) lo hi acc bytes = (some c, rest)) :
    ∃ k more, bytes = (0x80 + k).toUInt8 :: more ∧ k < 64 ∧ lo.toNat ≤ 0x80 + k
      ∧ 0x80 + k ≤ hi.toNat ∧ continueChar n 0x80 0xBF (acc * 64 + k) more = (some c, rest) := by
  cases bytes with
  | nil => cases h
  | cons b more =>
      rw [continueChar] at h
      split at h
      case isFalse => cases h
      case isTrue hrange =>
        rw [Bool.and_eq_true, decide_eq_true_iff, decide_eq_true_iff, UInt8.le_iff_toNat_le,
          UInt8.le_iff_toNat_le] at hrange
        obtain ⟨k, hk⟩ := Nat.exists_eq_add_of_le (Nat.le_trans hlo hrange.1)
        have hb : (0x80 + k).toUInt8 = b := by
          rw [← hk]
          exact UInt8.ofNat_toNat
        have hbits : b.toNat % 64 = k := by omega
        rw [hbits] at h
        exact ⟨k, more, by rw [hb], by omega, by omega, by omega, h⟩

/-- A character that is decoded from a number has that number. -/
theorem toNat_ofNat (h : n.isValidChar) : (Char.ofNat n).toNat = n := by
  rw [Char.ofNat, dif_pos h]
  rfl

/-- Eleven bits take two bytes. -/
private theorem encodeChar_two {k k₁ : Nat} (hlow : 2 ≤ k) (hk : k < 32) (hk₁ : k₁ < 64) :
    encodeChar (Char.ofNat (k * 64 + k₁)) = [(0xC0 + k).toUInt8, (0x80 + k₁).toUInt8] := by
  have hfirst : (k * 64 + k₁) / 64 = k := by omega
  have hsecond : (k * 64 + k₁) % 64 = k₁ := by omega
  rw [encodeChar, toNat_ofNat (.inl (by omega)), if_neg (by omega), if_pos (by omega), hfirst,
    hsecond]

/-- Sixteen bits take three bytes. -/
private theorem encodeChar_three {k k₁ k₂ : Nat} (hk : k < 16) (hk₁ : k₁ < 64) (hk₂ : k₂ < 64)
    (hlow : (secondOfThree k).1.toNat ≤ 0x80 + k₁) (hhigh : 0x80 + k₁ ≤ (secondOfThree k).2.toNat) :
    encodeChar (Char.ofNat ((k * 64 + k₁) * 64 + k₂))
      = [(0xE0 + k).toUInt8, (0x80 + k₁).toUInt8, (0x80 + k₂).toUInt8] := by
  generalize hn : (k * 64 + k₁) * 64 + k₂ = n
  have hrange : 0x800 ≤ n ∧ (n < 0xD800 ∨ 0xDFFF < n) := by
    unfold secondOfThree at hlow hhigh
    split_ifs at hlow hhigh <;> simp at hlow hhigh <;> omega
  have hvalid : n.isValidChar := by
    unfold Nat.isValidChar
    omega
  have hfirst : n / 4096 = k := by omega
  have hsecond : n / 64 % 64 = k₁ := by omega
  have hthird : n % 64 = k₂ := by omega
  rw [encodeChar, toNat_ofNat hvalid, if_neg (by omega), if_neg (by omega), if_pos (by omega),
    hfirst, hsecond, hthird]

/-- Twenty-one bits take four bytes. -/
private theorem encodeChar_four {k k₁ k₂ k₃ : Nat} (hk : k < 5) (hk₁ : k₁ < 64) (hk₂ : k₂ < 64)
    (hk₃ : k₃ < 64) (hlow : (secondOfFour k).1.toNat ≤ 0x80 + k₁)
    (hhigh : 0x80 + k₁ ≤ (secondOfFour k).2.toNat) :
    encodeChar (Char.ofNat (((k * 64 + k₁) * 64 + k₂) * 64 + k₃))
      = [(0xF0 + k).toUInt8, (0x80 + k₁).toUInt8, (0x80 + k₂).toUInt8, (0x80 + k₃).toUInt8] := by
  generalize hn : ((k * 64 + k₁) * 64 + k₂) * 64 + k₃ = n
  have hrange : 0x10000 ≤ n ∧ n < 0x110000 := by
    unfold secondOfFour at hlow hhigh
    split_ifs at hlow hhigh <;> simp at hlow hhigh <;> omega
  have hvalid : n.isValidChar := by
    unfold Nat.isValidChar
    omega
  have hfirst : n / 262144 = k := by omega
  have hsecond : n / 4096 % 64 = k₁ := by omega
  have hthird : n / 64 % 64 = k₂ := by omega
  have hfourth : n % 64 = k₃ := by omega
  rw [encodeChar, toNat_ofNat hvalid, if_neg (by omega), if_neg (by omega), if_neg (by omega),
    hfirst, hsecond, hthird, hfourth]

/-- A character is decoded from its own bytes alone. -/
private theorem step_eq_some {bytes : List UInt8} {c : Char} (h : step b bytes = (some c, rest)) :
    b :: bytes = encodeChar c ++ rest := by
  have hb : b = b.toNat.toUInt8 := UInt8.ofNat_toNat.symm
  by_cases hsmall : b < 0x80
  · rw [step, if_pos hsmall] at h
    rw [UInt8.lt_iff_toNat_lt] at hsmall
    have hlow : b.toNat < 0x80 := hsmall
    cases h
    rw [encodeChar, toNat_ofNat (.inl (by omega)), if_pos hlow]
    exact congrArg (· :: rest) hb
  have hlarge : 0x80 ≤ b.toNat := by
    rw [UInt8.lt_iff_toNat_lt] at hsmall
    exact Nat.le_of_not_lt hsmall
  cases hlead : lead? b with
  | none =>
      rw [step, if_neg hsmall, hlead] at h
      cases h
  | some found =>
      obtain ⟨more, range⟩ := found
      rw [step_of_lead hlarge hlead] at h
      -- the leading byte says how many more are read, each with six bits
      rcases lead?_eq_some hlead with ⟨k, hk, hpos, hfirst, rfl, rfl⟩ | ⟨k, hk, hfirst, rfl, rfl⟩
        | ⟨k, hk, hfirst, rfl, rfl⟩
      · obtain ⟨k₁, more₁, rfl, hk₁, -, -, h⟩ := continueChar_eq_some (by decide) (by decide) h
        rw [continueChar, if_pos rfl] at h
        cases h
        have hbits : b.toNat % 32 = k := by omega
        rw [hbits, encodeChar_two hpos hk hk₁, hb, hfirst]
        rfl
      · obtain ⟨hlo, hhi⟩ := secondOfThree_range k
        obtain ⟨k₁, more₁, rfl, hk₁, hlow, hhigh, h⟩ := continueChar_eq_some hlo hhi h
        obtain ⟨k₂, more₂, rfl, hk₂, -, -, h⟩ := continueChar_eq_some (by decide) (by decide) h
        rw [continueChar, if_neg (by decide), if_pos rfl] at h
        cases h
        have hbits : b.toNat % 16 = k := by omega
        rw [hbits, encodeChar_three hk hk₁ hk₂ hlow hhigh, hb, hfirst]
        rfl
      · obtain ⟨hlo, hhi⟩ := secondOfFour_range k
        obtain ⟨k₁, more₁, rfl, hk₁, hlow, hhigh, h⟩ := continueChar_eq_some hlo hhi h
        obtain ⟨k₂, more₂, rfl, hk₂, -, -, h⟩ := continueChar_eq_some (by decide) (by decide) h
        obtain ⟨k₃, more₃, rfl, hk₃, -, -, h⟩ := continueChar_eq_some (by decide) (by decide) h
        rw [continueChar, if_neg (by decide), if_neg (by decide)] at h
        cases h
        have hbits : b.toNat % 8 = k := by omega
        rw [hbits, encodeChar_four hk hk₁ hk₂ hk₃ hlow hhigh, hb, hfirst]
        rfl

/-- Only encoded texts are decoded without a loss. -/
private theorem decodeWithin_eq_some {bytes : List UInt8} (hfuel : bytes.length ≤ n)
    (h : (decodeWithin n bytes).mapM id = some s) : bytes = encode s := by
  induction n generalizing bytes s with
  | zero =>
      obtain rfl := List.length_eq_zero_iff.1 (Nat.le_zero.1 hfuel)
      cases h
      rfl
  | succ n ih =>
      cases bytes with
      | nil =>
          cases h
          rfl
      | cons b more =>
          rcases hstep : step b more with ⟨found, rest⟩
          rw [decodeWithin, hstep, List.mapM_cons] at h
          obtain ⟨c, hc, hothers⟩ := Option.bind_eq_some_iff.1 h
          obtain ⟨others, hrest, hs⟩ := Option.bind_eq_some_iff.1 hothers
          obtain rfl : c :: others = s := Option.some.inj hs
          obtain rfl : found = some c := hc
          have hbytes := step_eq_some hstep
          have hshorter : rest.length ≤ n := by
            have hlength := congrArg List.length hbytes
            have := encodeChar_length_pos c
            rw [List.length_append, List.length_cons] at hlength
            rw [List.length_cons] at hfuel
            omega
          rw [hbytes, ih hshorter hrest, encode_cons]

/-- A text is decoded from its own bytes alone. -/
theorem decode?_eq_some_iff {bytes : List UInt8} : decode? bytes = some s ↔ bytes = encode s := by
  constructor
  · exact decodeWithin_eq_some (Nat.le_refl _)
  · rintro rfl
    exact decode?_encode s

-- ========================================================= behind a plain byte

private theorem length_continueChar_le (n : Nat) (lo hi : UInt8) (acc : Nat) (bytes : List UInt8) :
    (continueChar n lo hi acc bytes).2.length ≤ bytes.length := by
  induction n generalizing lo hi acc bytes with
  | zero => exact Nat.le_refl _
  | succ n ih =>
      cases bytes with
      | nil => exact Nat.le_refl _
      | cons a bytes =>
          rw [continueChar]
          split
          · exact Nat.le_succ_of_le (ih ..)
          · exact Nat.le_refl _

/-- A step leaves no more bytes than there were. -/
theorem length_step_le (a : UInt8) (bytes : List UInt8) :
    (step a bytes).2.length ≤ bytes.length := by
  unfold step
  split
  · exact Nat.le_refl _
  · split
    · exact Nat.le_refl _
    · exact length_continueChar_le ..

/-- With enough fuel decoding does not depend on it. -/
theorem decodeWithin_congr {m : Nat} {bytes : List UInt8} (hn : bytes.length ≤ n)
    (hm : bytes.length ≤ m) : decodeWithin n bytes = decodeWithin m bytes := by
  induction n generalizing m bytes with
  | zero =>
      obtain rfl := List.length_eq_zero_iff.1 (Nat.le_zero.1 hn)
      cases m <;> rfl
  | succ n ih =>
      cases bytes with
      | nil => cases m <;> rfl
      | cons a bytes =>
          obtain ⟨m, rfl⟩ : ∃ k, m = k + 1 := Nat.exists_eq_succ_of_ne_zero (by simp at hm; omega)
          have hrest := length_step_le a bytes
          exact congrArg ((step a bytes).1 :: ·) (ih
            (Nat.le_trans hrest (Nat.le_of_succ_le_succ hn))
            (Nat.le_trans hrest (Nat.le_of_succ_le_succ hm)))

theorem decodeLossy_cons (a : UInt8) (bytes : List UInt8) :
    decodeLossy (a :: bytes)
      = (step a bytes).1.getD '\uFFFD' :: decodeLossy (step a bytes).2 := by
  show (step a bytes).1.getD '\uFFFD' :: (decodeWithin bytes.length (step a bytes).2).map _ = _
  rw [decodeWithin_congr (length_step_le a bytes) (Nat.le_refl _)]
  rfl

/-- A plain byte is never one of the bytes that follow another one. -/
theorem continueChar_append (hb : b.toNat < 0x80) (hlo : 0x80 ≤ lo.toNat) (n : Nat)
    (bytes tail : List UInt8) :
    continueChar n lo hi acc (bytes ++ b :: tail)
      = ((continueChar n lo hi acc bytes).1, (continueChar n lo hi acc bytes).2 ++ b :: tail) := by
  induction n generalizing lo hi acc bytes with
  | zero => rfl
  | succ n ih =>
      cases bytes with
      | nil =>
          have hrange : ¬ (decide (lo ≤ b) && decide (b ≤ hi)) = true := by
            rw [Bool.and_eq_true, decide_eq_true_iff, UInt8.le_iff_toNat_le]
            omega
          exact if_neg hrange
      | cons a bytes =>
          rw [List.cons_append, continueChar, continueChar]
          split
          · exact ih (by decide) bytes
          · rfl

/-- A plain byte stops every step that comes to it. -/
theorem step_append (hb : b.toNat < 0x80) (a : UInt8) (bytes tail : List UInt8) :
    step a (bytes ++ b :: tail) = ((step a bytes).1, (step a bytes).2 ++ b :: tail) := by
  unfold step
  split
  · rfl
  · cases hlead : lead? a with
    | none => rfl
    | some found =>
        obtain ⟨more, range⟩ := found
        have hlo : 0x80 ≤ range.1.toNat := by
          rcases lead?_eq_some hlead with ⟨_, _, _, _, _, rfl⟩ | ⟨k, _, _, _, rfl⟩
            | ⟨k, _, _, _, rfl⟩
          · decide
          · exact (secondOfThree_range k).1
          · exact (secondOfFour_range k).1
        exact continueChar_append hb hlo more bytes tail

/-- A plain byte is a character. -/
theorem step_plain (hb : b.toNat < 0x80) (bytes : List UInt8) :
    step b bytes = (some (Char.ofNat b.toNat), bytes) := by
  rw [step, if_pos (UInt8.lt_iff_toNat_lt.2 hb)]

/-- What stands before a plain byte and what stands behind it are decoded
apart. -/
theorem decodeLossy_append (hb : b.toNat < 0x80) (front tail : List UInt8) :
    decodeLossy (front ++ b :: tail)
      = decodeLossy front ++ Char.ofNat b.toNat :: decodeLossy tail := by
  induction hlength : front.length using Nat.strongRecOn generalizing front with
  | ind length ih =>
      cases front with
      | nil =>
          rw [List.nil_append, decodeLossy_cons, step_plain hb]
          rfl
      | cons a front =>
          have hrest := length_step_le a front
          have hshorter : (step a front).2.length < length := by
            rw [← hlength, List.length_cons]
            omega
          rw [List.cons_append, decodeLossy_cons, step_append hb, decodeLossy_cons,
            ih _ hshorter _ rfl]
          rfl

end VideoWall.Text.Utf8
