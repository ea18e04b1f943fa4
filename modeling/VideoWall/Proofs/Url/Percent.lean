/-
What an encoded text says.

A set that holds `%` itself leaves no escape but those of the encoding, so
decoding gives back every text (`decodeBytes_encode`). A set without `%`
leaves the escapes that the text holds already, and decoding takes them for
escapes: an encoded text then says what the text itself says
(`decodeBytes_encode_kept`), which is the text only if it holds no escape
(`decodeBytes_eq_encode_iff`).
-/
import VideoWall.Proofs.Text.Decoding
import VideoWall.Url.Percent

namespace VideoWall.Url

open Text

variable {set : EncodeSet} {c : Char} {s t : List Char} {rest : List Char}

-- ================================================================== escapes

/-- Whether a character is a hexadecimal digit. -/
def isHexDigit (c : Char) : Bool := (Hex.digit? c).isSome

/-- Whether a hexadecimal digit comes first. -/
def opensDigit (s : List Char) : Bool := s.head?.any isHexDigit

/-- Whether two hexadecimal digits come first, which make an escape of a `%`
before them. -/
def opensEscape (s : List Char) : Bool := opensDigit s && opensDigit s.tail

/-- Whether a text holds an escape. -/
def holdsEscape : List Char → Bool
  | [] => false
  | c :: rest => (c = '%' && opensEscape rest) || holdsEscape rest

/-- A hexadecimal digit is one of the first 128 characters. -/
theorem toNat_of_digit? {n : Nat} (h : Hex.digit? c = some n) : c.toNat < 128 := by
  by_contra hhigh
  have hbeyond : ∀ d : Char, d.toNat < 128 → ¬ c ≤ d := fun d hd hle =>
    hhigh (Nat.lt_of_le_of_lt hle hd)
  have hnone : Hex.digit? c = none := by
    simp [Hex.digit?, hbeyond '9' (by decide), hbeyond 'f' (by decide), hbeyond 'F' (by decide)]
  rw [hnone] at h
  cases h

-- ========================================================= decoding, by steps

/-- A character that is no percent sign is decoded to its bytes. -/
theorem decodeBytes_cons (h : c ≠ '%') :
    decodeBytes (c :: s) = Utf8.encodeChar c ++ decodeBytes s := by
  rw [decodeBytes]
  rintro a b rest rfl
  exact absurd rfl h

/-- An escape is a percent sign with two digits. -/
theorem opensEscape_iff :
    opensEscape s = true ↔
      ∃ a b rest hi lo, s = a :: b :: rest ∧ Hex.digit? a = some hi ∧ Hex.digit? b = some lo := by
  constructor
  · intro h
    match s, h with
    | [_], h => cases (Bool.and_eq_true_iff.1 h).2
    | a :: b :: rest, h =>
        obtain ⟨ha, hb⟩ := Bool.and_eq_true_iff.1 h
        obtain ⟨hi, hhi⟩ := Option.isSome_iff_exists.1 ha
        obtain ⟨lo, hlo⟩ := Option.isSome_iff_exists.1 hb
        exact ⟨a, b, rest, hi, lo, rfl, hhi, hlo⟩
  · rintro ⟨a, b, rest, hi, lo, rfl, hhi, hlo⟩
    exact Bool.and_eq_true_iff.2 ⟨Option.isSome_of_eq_some hhi, Option.isSome_of_eq_some hlo⟩

/-- Two characters that are no pair of digits are no escape. -/
theorem opensEscape_of_not_pair {a b : Char}
    (h : ∀ hi lo, Hex.digit? a = some hi → Hex.digit? b = some lo → False) :
    opensEscape (a :: b :: rest) = false := by
  by_contra hopens
  obtain ⟨_, _, _, hi, lo, ⟨⟩, hhi, hlo⟩ := opensEscape_iff.1 (Bool.not_eq_false _ ▸ hopens)
  exact h hi lo hhi hlo

/-- Neither is a text of less than two characters. -/
theorem opensEscape_of_short (h : ∀ a b more, s ≠ a :: b :: more) : opensEscape s = false := by
  by_contra hopens
  obtain ⟨a, b, more, _, _, rfl, -⟩ := opensEscape_iff.1 (Bool.not_eq_false _ ▸ hopens)
  exact h a b more rfl

/-- A percent sign that opens no escape is kept. -/
theorem decodeBytes_percent (h : opensEscape s = false) :
    decodeBytes ('%' :: s) = Utf8.encodeChar '%' ++ decodeBytes s := by
  match s, h with
  | [], _ => rfl
  | [_], _ => rfl
  | a :: b :: rest, h =>
      rw [decodeBytes]
      cases ha : Hex.digit? a with
      | none => rfl
      | some hi =>
          cases hb : Hex.digit? b with
          | none => rfl
          | some lo =>
              rw [opensEscape_iff.2 ⟨a, b, rest, hi, lo, rfl, ha, hb⟩] at h
              cases h

/-- What is not an escape stands for its own bytes. -/
theorem decodeBytes_cons_of_not_opens (h : c = '%' → opensEscape s = false) :
    decodeBytes (c :: s) = Utf8.encodeChar c ++ decodeBytes s := by
  by_cases hc : c = '%'
  · subst hc
    exact decodeBytes_percent (h rfl)
  · exact decodeBytes_cons hc

/-- An escape of a byte stands for that byte. -/
private theorem decodeBytes_escape (b : UInt8) (s : List Char) :
    decodeBytes ('%' :: (Hex.ofByteUpper b ++ s)) = b :: decodeBytes s := by
  have hlt : b.toNat < 256 := b.toNat_lt
  have hhigh := Hex.digit?_upper (b.toNat / 16) (by omega)
  have hlow := Hex.digit?_upper (b.toNat % 16) (by omega)
  have hbyte : (b.toNat / 16 * 16 + b.toNat % 16).toUInt8 = b := by
    rw [Nat.div_add_mod', Nat.toUInt8_eq, UInt8.ofNat_toNat]
  rw [Hex.ofByteUpper, List.cons_append, List.cons_append, List.nil_append, decodeBytes, hhigh,
    hlow]
  exact congrArg (· :: decodeBytes s) hbyte

/-- Escapes are decoded to their bytes. -/
private theorem decodeBytes_escapes (bytes : List UInt8) (s : List Char) :
    decodeBytes ((bytes.flatMap fun b => '%' :: Hex.ofByteUpper b) ++ s)
      = bytes ++ decodeBytes s := by
  induction bytes with
  | nil => rfl
  | cons b bytes ih =>
      rw [List.flatMap_cons, List.append_assoc, List.cons_append, decodeBytes_escape, ih]
      rfl

/-- An escaped character stands for its bytes. -/
theorem decodeBytes_escapeChar (c : Char) (s : List Char) :
    decodeBytes (escapeChar c ++ s) = Utf8.encodeChar c ++ decodeBytes s :=
  decodeBytes_escapes (Utf8.encodeChar c) s

-- ============================================================ sets with `%`

@[simp] theorem encode_nil : encode set [] = [] := rfl

@[simp] theorem encode_cons : encode set (c :: s) = encodeChar set c ++ encode set s := rfl

/-- A text that is encoded with a set that holds `%` says itself. -/
theorem decodeBytes_encode (hset : set '%' = true) (s : List Char) :
    decodeBytes (encode set s) = Utf8.encode s := by
  induction s with
  | nil => rfl
  | cons c s ih =>
      rw [encode_cons, encodeChar, Utf8.encode_cons]
      by_cases hc : set c = true
      · rw [if_pos hc, decodeBytes_escapeChar, ih]
      · have hne : c ≠ '%' := fun h => hc (h ▸ hset)
        rw [if_neg hc, List.singleton_append, decodeBytes_cons hne, ih]

/-- Texts that are encoded alike are the same. -/
theorem encode_injective (hset : set '%' = true) : Function.Injective (encode set) := by
  intro s t h
  apply Utf8.encode_injective
  rw [← decodeBytes_encode hset s, h, decodeBytes_encode hset t]

-- ========================================================= sets without `%`

/-- A set that leaves every escape of a text as it is. -/
structure KeepsEscapes (set : EncodeSet) : Prop where
  percent : set '%' = false
  digit : ∀ c, isHexDigit c = true → set c = false

/-- Whether a set keeps escapes is told by the plain characters. -/
theorem keepsEscapes_of_ascii (hpercent : set '%' = false)
    (hdigit : ∀ n < 128, isHexDigit (Char.ofNat n) = true → set (Char.ofNat n) = false) :
    KeepsEscapes set where
  percent := hpercent
  digit := by
    intro c hc
    obtain ⟨n, hn⟩ := Option.isSome_iff_exists.1 hc
    have hascii := hdigit c.toNat (toNat_of_digit? hn)
    rw [Char.ofNat_toNat] at hascii
    exact hascii hc

theorem escapeChar_eq (c : Char) : ∃ more, escapeChar c = '%' :: more := by
  obtain ⟨first, more, hbytes, -⟩ := Utf8.step_encodeChar c []
  exact ⟨_, by rw [escapeChar, hbytes, List.flatMap_cons]; rfl⟩

/-- Encoding does not change whether a text opens with digits. -/
private theorem opensDigit_encode (hset : KeepsEscapes set) (s : List Char) :
    opensDigit (encode set s) = opensDigit s := by
  cases s with
  | nil => rfl
  | cons c s =>
      rw [encode_cons, encodeChar]
      by_cases hc : set c = true
      · obtain ⟨more, hmore⟩ := escapeChar_eq c
        have hnot : isHexDigit c = false := by
          by_contra h
          rw [hset.digit c (Bool.not_eq_false _ ▸ h)] at hc
          cases hc
        rw [if_pos hc, hmore]
        exact hnot.symm
      · rw [if_neg hc]
        rfl

/-- Encoding neither makes nor unmakes a pair of digits. -/
private theorem opensEscape_encode (hset : KeepsEscapes set) (s : List Char) :
    opensEscape (encode set s) = opensEscape s := by
  rw [opensEscape, opensEscape, opensDigit_encode hset]
  cases s with
  | nil => rfl
  | cons c s =>
      by_cases hc : opensDigit (c :: s) = true
      · have hhead : encodeChar set c = [c] := by rw [encodeChar, hset.digit c hc]; rfl
        rw [encode_cons, hhead, List.singleton_append, List.tail_cons, opensDigit_encode hset,
          List.tail_cons]
      · rw [Bool.not_eq_true] at hc
        rw [hc, Bool.false_and, Bool.false_and]

/-- A text that is encoded with a set without `%` says what it says
itself. -/
theorem decodeBytes_encode_kept (hset : KeepsEscapes set) (s : List Char) :
    decodeBytes (encode set s) = decodeBytes s := by
  have hpercent : encodeChar set '%' = ['%'] := by rw [encodeChar, hset.percent]; rfl
  have hdigit : ∀ c, isHexDigit c = true → encodeChar set c = [c] := by
    intro c hc
    rw [encodeChar, hset.digit c hc]
    rfl
  fun_induction decodeBytes s with
  | case1 => rfl
  | case2 a b rest hi lo hlo hhi ih =>
      have ha : isHexDigit a = true := by rw [isHexDigit, hhi]; rfl
      have hb : isHexDigit b = true := by rw [isHexDigit, hlo]; rfl
      rw [encode_cons, encode_cons, encode_cons, hpercent, hdigit a ha, hdigit b hb,
        List.singleton_append, List.singleton_append, List.singleton_append, decodeBytes, hhi, hlo,
          ← ih]
  | case3 a b rest hne ih =>
      have hopens : opensEscape (a :: b :: rest) = false := opensEscape_of_not_pair hne
      rw [encode_cons, hpercent, List.singleton_append,
        decodeBytes_percent (by rwa [opensEscape_encode hset]), ih]
  | case4 c rest hne ih =>
      rw [encode_cons, encodeChar]
      by_cases hc : set c = true
      · rw [if_pos hc, decodeBytes_escapeChar, ih]
      · rw [if_neg hc, List.singleton_append, decodeBytes_cons_of_not_opens, ih]
        rintro rfl
        rw [opensEscape_encode hset]
        exact opensEscape_of_short fun a b more => hne a b more rfl

-- ====================================================== texts without escapes

/-- A text without escapes is decoded to its bytes. -/
theorem decodeBytes_of_not_holds (h : holdsEscape s = false) : decodeBytes s = Utf8.encode s := by
  induction s with
  | nil => rfl
  | cons c s ih =>
      rw [holdsEscape, Bool.or_eq_false_iff] at h
      rw [decodeBytes_cons_of_not_opens, ih h.2, Utf8.encode_cons]
      rintro rfl
      simpa using h.1

/-- An escape is three bytes that say one. -/
theorem length_decodeBytes_le (s : List Char) :
    (decodeBytes s).length ≤ (Utf8.encode s).length := by
  fun_induction decodeBytes s with
  | case1 => exact Nat.le_refl 0
  | case2 a b rest hi lo hlo hhi ih =>
      simp only [Utf8.encode_cons, List.length_append, List.length_cons]
      have := Utf8.encodeChar_length_pos '%'
      omega
  | case3 a b rest hne ih =>
      rw [Utf8.encode_cons '%', List.length_append, List.length_append]
      omega
  | case4 c rest hne ih =>
      rw [Utf8.encode_cons c, List.length_append, List.length_append]
      omega

/-- Decoding an escape leaves fewer bytes. -/
private theorem length_decodeBytes_lt (h : holdsEscape s = true) :
    (decodeBytes s).length < (Utf8.encode s).length := by
  induction s with
  | nil => cases h
  | cons c s ih =>
      by_cases hopens : c = '%' ∧ opensEscape s = true
      · obtain ⟨rfl, hopens⟩ := hopens
        obtain ⟨a, b, rest, hi, lo, rfl, hhi, hlo⟩ := opensEscape_iff.1 hopens
        have hrest := length_decodeBytes_le rest
        have ha := Utf8.encodeChar_length_pos a
        have hb := Utf8.encodeChar_length_pos b
        have hp := Utf8.encodeChar_length_pos '%'
        rw [decodeBytes, hhi, hlo]
        simp only [Utf8.encode_cons, List.length_append, List.length_cons]
        omega
      · have hholds : holdsEscape s = true := by
          rw [holdsEscape, Bool.or_eq_true, Bool.and_eq_true, decide_eq_true_iff] at h
          exact h.resolve_left hopens
        have hplain : c = '%' → opensEscape s = false := by
          intro hc
          rw [← Bool.not_eq_true]
          exact fun hs => hopens ⟨hc, hs⟩
        have hlt := ih hholds
        rw [decodeBytes_cons_of_not_opens hplain, Utf8.encode_cons, List.length_append,
          List.length_append]
        omega

/-- A text says itself if it holds no escape. -/
theorem decodeBytes_eq_encode_iff : decodeBytes s = Utf8.encode s ↔ holdsEscape s = false := by
  constructor
  · intro h
    by_contra hholds
    have := length_decodeBytes_lt (Bool.not_eq_false _ ▸ hholds)
    rw [h] at this
    exact Nat.lt_irrefl _ this
  · exact decodeBytes_of_not_holds

end VideoWall.Url
