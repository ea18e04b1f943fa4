/-
What an escaped text says.

# Texts with escapes

A text is spelled with escapes by writing each of its characters as itself or
as the escapes of its bytes, with digits of either case (`Spells`). A `%` that
is written as itself must not be followed by two digits, or it would be taken
for an escape.

# The bytes of a spelling

Escapes are resolved among bytes, before these are decoded. A byte of a
character that is more than one byte is no `%` and no digit, so the reader
finds an escape where characters make one and nowhere else
(`unescapeBytes_encode`). It reads the two digits as a number, which might
begin with a sign; but the first of them has to be a digit of its own
(`escaped?_eq`). What a spelling says is then told character by character
(`Spells.decodeBytes`), and a `%` that stays as it is written stands between
what comes before and what comes behind it (`unescape_percent`).
-/
import VideoWall.Proofs.Url.Percent
import VideoWall.Restream.Credentials

namespace VideoWall.Restream

open Text Url

variable {a b : UInt8} {c : Char} {s t rest : List Char} {bytes tail : List UInt8} {n hi lo : Nat}

-- ============================================================== spellings

/-- A digit of a number below sixteen, in either case. -/
def IsDigit (n : Nat) (c : Char) : Prop := c = Hex.lower n ∨ c = Hex.upper n

/-- The escapes of some bytes. -/
inductive Escapes : List UInt8 → List Char → Prop
  | nil : Escapes [] []
  | cons {b : UInt8} {high low : Char} {bytes : List UInt8} {text : List Char}
      (hhigh : IsDigit (b.toNat / 16) high) (hlow : IsDigit (b.toNat % 16) low)
      (hrest : Escapes bytes text) : Escapes (b :: bytes) ('%' :: high :: low :: text)

/-- The ways to write a text: each character as itself, unless that would
make an escape, or as the escapes of its bytes. -/
inductive Spells : List Char → List Char → Prop
  | nil : Spells [] []
  | plain {c : Char} {s t : List Char} (hplain : c = '%' → opensEscape t = false)
      (hrest : Spells s t) : Spells (c :: s) (c :: t)
  | escaped {c : Char} {s t text : List Char} (hbytes : Escapes (Utf8.encodeChar c) text)
      (hrest : Spells s t) : Spells (c :: s) (text ++ t)

/-- A written digit is read. -/
private theorem IsDigit.digit? (h : IsDigit n c) (hn : n < 16) : Hex.digit? c = some n := by
  rcases h with rfl | rfl
  · exact Hex.digit?_lower n hn
  · exact Hex.digit?_upper n hn

/-- Escapes are decoded to the bytes that they were written for. -/
private theorem Escapes.decodeBytes (h : Escapes bytes s) (t : List Char) :
    decodeBytes (s ++ t) = bytes ++ decodeBytes t := by
  induction h with
  | nil => rfl
  | @cons b high low bytes text hhigh hlow hrest ih =>
      have hlt : b.toNat < 256 := b.toNat_lt
      have hbyte : (b.toNat / 16 * 16 + b.toNat % 16).toUInt8 = b := by
        rw [Nat.div_add_mod', Nat.toUInt8_eq, UInt8.ofNat_toNat]
      rw [List.cons_append, List.cons_append, List.cons_append, Url.decodeBytes,
        hhigh.digit? (by omega), hlow.digit? (by omega)]
      dsimp only
      rw [hbyte, ih]
      rfl

/-- A spelling says the bytes of its text. -/
private theorem Spells.decodeBytes (h : Spells s t) : decodeBytes t = Utf8.encode s := by
  induction h with
  | nil => rfl
  | plain hplain hrest ih => rw [decodeBytes_cons_of_not_opens hplain, ih, Utf8.encode_cons]
  | escaped hbytes hrest ih => rw [hbytes.decodeBytes, ih, Utf8.encode_cons]

-- ========================================================= escapes in bytes

/-- A plain character is one byte. -/
theorem encodeChar_of_ascii (h : c.toNat < 128) : Utf8.encodeChar c = [c.toNat.toUInt8] := if_pos h

/-- A plain byte in front of a text is its first character. -/
theorem exists_cons_of_encode (ha : a.toNat < 128) (h : Utf8.encode s = a :: bytes) :
    ∃ rest, s = Char.ofNat a.toNat :: rest ∧ Utf8.encode rest = bytes := by
  cases s with
  | nil => cases h
  | cons c rest =>
      rw [Utf8.encode_cons] at h
      have hmem : a ∈ Utf8.encodeChar c := by
        obtain ⟨first, more, hbytes, -⟩ := Utf8.step_encodeChar c []
        rw [hbytes, List.cons_append] at h
        rw [hbytes, (List.cons.inj h).1]
        exact List.mem_cons_self ..
      have hc : c.toNat = a.toNat := (Utf8.mem_encodeChar_iff ha).1 hmem
      rw [encodeChar_of_ascii (hc ▸ ha)] at h
      refine ⟨rest, ?_, (List.cons.inj h).2⟩
      rw [← hc, Char.ofNat_toNat]

/-- A digit is below sixteen. -/
private theorem digit?_lt (h : Hex.digit? c = some n) : n < 16 := by
  have hall : ∀ k < 128, ∀ n ∈ Hex.digit? (Char.ofNat k), n < 16 := by decide
  have hc := hall c.toNat (toNat_of_digit? h)
  rw [Char.ofNat_toNat] at hc
  exact hc n h

/-- A byte is the character of its number. -/
theorem toNat_charOf (b : UInt8) : (Char.ofNat b.toNat).toNat = b.toNat :=
  Utf8.toNat_ofNat (.inl (Nat.lt_trans b.toNat_lt (by decide)))

theorem toNat_of_digit?_byte (h : Hex.digit? (Char.ofNat b.toNat) = some n) : b.toNat < 128 :=
  toNat_charOf b ▸ toNat_of_digit? h

/-- Two characters are a number of two digits, unless the first is a sign. -/
private theorem readByte?_pair (h : Hex.digit? c = some hi) (d : Char) :
    Hex.readByte? [c, d] = (Hex.digit? d).map fun lo => (hi * 16 + lo).toUInt8 := by
  have hsign : c ≠ '+' := by
    rintro rfl
    cases h
  have hdigits : Hex.toNat? [c, d] = (Hex.digit? d).map fun lo => hi * 16 + lo := by
    simp only [Hex.toNat?, List.foldl_cons, List.foldl_nil, h, Option.bind_eq_bind,
      Option.bind_some, Option.pure_def, Nat.zero_mul, Nat.zero_add]
    cases Hex.digit? d <;> rfl
  have hread : Hex.readByte? [c, d]
      = (Hex.toNat? [c, d]).bind fun n => if n < 256 then some n.toUInt8 else none := by
    rw [Hex.readByte?, Hex.unsigned]
    · exact if_neg (List.cons_ne_nil c [d])
    · rintro _ _ ⟨⟩
      exact hsign rfl
  rw [hread, hdigits]
  cases hd : Hex.digit? d with
  | none => rfl
  | some lo =>
      have hhigh := digit?_lt h
      have hlow := digit?_lt hd
      have hbyte : hi * 16 + lo < 256 := by omega
      exact if_pos hbyte

/-- A byte from 128 on is no character on its own. -/
private theorem step_alone (h : 128 ≤ b.toNat) : Utf8.step b [] = (none, []) := by
  have hlarge : ¬ b < 0x80 := by
    rw [UInt8.lt_iff_toNat_lt]
    exact Nat.not_lt.2 h
  unfold Utf8.step
  rw [if_neg hlarge]
  cases hlead : Utf8.lead? b with
  | none => rfl
  | some found =>
      obtain ⟨more, range⟩ := found
      rcases Utf8.lead?_eq_some hlead with ⟨_, _, _, _, rfl, _⟩ | ⟨_, _, _, rfl, _⟩
        | ⟨_, _, _, rfl, _⟩
      · rfl
      · rfl
      · rfl

/-- Two bytes are an escape if both are digits. -/
theorem escaped?_eq (a b : UInt8) :
    escaped? a b =
      match Hex.digit? (Char.ofNat a.toNat), Hex.digit? (Char.ofNat b.toNat) with
      | some hi, some lo => some (hi * 16 + lo).toUInt8
      | _, _ => none := by
  unfold escaped?
  cases ha : Hex.digit? (Char.ofNat a.toNat) with
  | none =>
      cases Utf8.decode? [a, b] with
      | none => rfl
      | some digits =>
          show ((Hex.readByte? digits).bind fun _ => none) = none
          cases Hex.readByte? digits <;> rfl
  | some hi =>
      -- a digit is one byte, so the pair is text when the second byte is plain, and
      -- ill-formed otherwise
      have hlow : a.toNat < 128 := toNat_of_digit?_byte ha
      by_cases hb : b.toNat < 128
      · have hpair : [a, b] = Utf8.encode [Char.ofNat a.toNat, Char.ofNat b.toNat] := by
          rw [Utf8.encode_cons, Utf8.encode_cons, encodeChar_of_ascii (by rwa [toNat_charOf]),
            encodeChar_of_ascii (by rwa [toNat_charOf]), toNat_charOf, toNat_charOf]
          simp
        rw [hpair, Utf8.decode?_encode]
        simp only [Option.bind_eq_bind, Option.bind_some, readByte?_pair ha]
        cases Hex.digit? (Char.ofNat b.toNat) <;> rfl
      · have hnone : Hex.digit? (Char.ofNat b.toNat) = none := by
          rw [Option.eq_none_iff_forall_ne_some]
          intro lo hlo
          exact hb (toNat_of_digit?_byte hlo)
        have hill : Utf8.decode? [a, b] = none := by
          show ((Utf8.step a [b]).1 :: Utf8.decodeWithin 1 (Utf8.step a [b]).2).mapM id = none
          rw [Utf8.step_plain hlow]
          show (_ :: (Utf8.step b []).1 :: Utf8.decodeWithin 0 (Utf8.step b []).2).mapM id = none
          rw [step_alone (Nat.le_of_not_lt hb)]
          rfl
        rw [hnone, hill]
        rfl

/-- A byte that is no percent sign is kept. -/
theorem unescapeBytes_cons (h : b ≠ 0x25) :
    unescapeBytes (b :: bytes) = b :: unescapeBytes bytes := by
  rw [unescapeBytes]
  rintro a b rest rfl
  exact absurd rfl h

/-- Bytes before the first `%` stay as they are. -/
theorem unescapeBytes_append (h : (0x25 : UInt8) ∉ bytes) (tail : List UInt8) :
    unescapeBytes (bytes ++ tail) = bytes ++ unescapeBytes tail := by
  induction bytes with
  | nil => rfl
  | cons b bytes ih =>
      rw [List.mem_cons, not_or] at h
      rw [List.cons_append, unescapeBytes_cons (Ne.symm h.1), ih h.2]
      rfl

/-- A `%` stays as it is if what follows it is no escape. -/
private theorem unescapeBytes_percent (h : ∀ a b rest, bytes = a :: b :: rest → escaped? a b = none)
    : unescapeBytes (0x25 :: bytes) = 0x25 :: unescapeBytes bytes := by
  match bytes, h with
  | [], _ => rfl
  | [_], _ => rfl
  | a :: b :: rest, h =>
      rw [unescapeBytes, h a b rest rfl]

/-- An escape is replaced by its byte. -/
private theorem unescapeBytes_escape {value : UInt8} (h : escaped? a b = some value) :
    unescapeBytes (0x25 :: a :: b :: bytes) = value :: unescapeBytes bytes := by
  rw [unescapeBytes, h]

-- =========================================================== escapes in texts

/-- Where two bytes make an escape, so do two characters. -/
private theorem opensEscape_of_escaped? {value : UInt8} (h : escaped? a b = some value)
    (hs : Utf8.encode s = a :: b :: tail) : opensEscape s = true := by
  rw [escaped?_eq] at h
  cases ha : Hex.digit? (Char.ofNat a.toNat) with
  | none =>
      rw [ha] at h
      cases h
  | some hi =>
      cases hb : Hex.digit? (Char.ofNat b.toNat) with
      | none =>
          rw [ha, hb] at h
          cases h
      | some lo =>
          obtain ⟨later, rfl, hlater⟩ := exists_cons_of_encode (toNat_of_digit?_byte ha) hs
          obtain ⟨rest, rfl, -⟩ := exists_cons_of_encode (toNat_of_digit?_byte hb) hlater
          exact opensEscape_iff.2 ⟨_, _, rest, hi, lo, rfl, ha, hb⟩

/-- The byte of a digit. -/
private theorem charOf_encodeChar (h : c.toNat < 128) : Char.ofNat c.toNat.toUInt8.toNat = c := by
  rw [Utf8.toNat_toUInt8 (Nat.lt_trans h (by decide)), Char.ofNat_toNat]

/-- What is no escape among characters is none among bytes. -/
private theorem unescapeBytes_of_not_opens (h : opensEscape s = false) :
    unescapeBytes (Utf8.encode ('%' :: s))
      = Utf8.encodeChar '%' ++ unescapeBytes (Utf8.encode s) := by
  show unescapeBytes (0x25 :: Utf8.encode s) = 0x25 :: unescapeBytes (Utf8.encode s)
  refine unescapeBytes_percent fun a b rest hrest => ?_
  rw [Option.eq_none_iff_forall_ne_some]
  intro value hvalue
  rw [opensEscape_of_escaped? hvalue hrest] at h
  cases h

/-- A character that is no percent sign is kept, whatever its bytes. -/
private theorem unescapeBytes_of_ne (h : c ≠ '%') (s : List Char) :
    unescapeBytes (Utf8.encode (c :: s)) = Utf8.encodeChar c ++ unescapeBytes (Utf8.encode s) := by
  have hfree : (0x25 : UInt8) ∉ Utf8.encodeChar c := by
    intro hmem
    have hc : c.toNat = '%'.toNat := (Utf8.mem_encodeChar_iff (by decide)).1 hmem
    exact h (Char.toNat_inj.1 hc)
  rw [Utf8.encode_cons, unescapeBytes_append hfree]

/-- To resolve escapes among bytes is to resolve them among characters. -/
private theorem unescapeBytes_encode (s : List Char) :
    unescapeBytes (Utf8.encode s) = decodeBytes s := by
  fun_induction decodeBytes s with
  | case1 => rfl
  | case2 a b rest hi lo hlo hhi ih =>
      have ha := toNat_of_digit? hhi
      have hb := toNat_of_digit? hlo
      have hescape : escaped? a.toNat.toUInt8 b.toNat.toUInt8 = some (hi * 16 + lo).toUInt8 := by
        rw [escaped?_eq, charOf_encodeChar ha, charOf_encodeChar hb, hhi, hlo]
      rw [Utf8.encode_cons, Utf8.encode_cons, Utf8.encode_cons, encodeChar_of_ascii ha,
        encodeChar_of_ascii hb, ← ih]
      exact unescapeBytes_escape hescape
  | case3 a b rest hne ih =>
      rw [unescapeBytes_of_not_opens (opensEscape_of_not_pair hne), ih]
  | case4 c rest hne ih =>
      by_cases hc : c = '%'
      · subst hc
        rw [unescapeBytes_of_not_opens (opensEscape_of_short fun a b more => hne a b more rfl), ih]
      · rw [unescapeBytes_of_ne hc, ih]

-- ============================================================== whole texts

/-- The loop over bytes says what percent-decoding says. -/
theorem unescape_eq (s : List Char) :
    unescape s = String.ofList (Utf8.decodeLossy (decodeBytes s)) := by
  rw [unescape, unescapeBytes_encode]

/-- No escape reaches over a `%`. -/
theorem opensEscape_append (s t : List Char) : opensEscape (s ++ '%' :: t) = opensEscape s := by
  match s with
  | [] => rfl
  | [c] => exact (Bool.and_false _).trans (Bool.and_false _).symm
  | _ :: _ :: _ => rfl

/-- A percent sign cuts the decoding in two. -/
theorem decodeBytes_append (s t : List Char) :
    decodeBytes (s ++ '%' :: t) = decodeBytes s ++ decodeBytes ('%' :: t) := by
  fun_induction decodeBytes s with
  | case1 => rfl
  | case2 a b rest hi lo hlo hhi ih =>
      rw [List.cons_append, List.cons_append, List.cons_append, decodeBytes, hhi, hlo]
      exact congrArg ((hi * 16 + lo).toUInt8 :: ·) ih
  | case3 a b rest hne ih =>
      have hopens : opensEscape (a :: b :: rest ++ '%' :: t) = false := by
        rw [opensEscape_append]
        exact opensEscape_of_not_pair hne
      rw [List.cons_append, decodeBytes_percent hopens, ih, List.append_assoc]
  | case4 c rest hne ih =>
      have hopens : c = '%' → opensEscape (rest ++ '%' :: t) = false := by
        rintro rfl
        rw [opensEscape_append]
        exact opensEscape_of_short fun a b more => hne a b more rfl
      rw [List.cons_append, decodeBytes_cons_of_not_opens hopens, ih, List.append_assoc]

/-- A `%` that is no escape stays where it is, and both sides of it are read
apart. -/
private theorem unescape_percent (s : List Char) (h : opensEscape t = false) :
    unescape (s ++ '%' :: t) = unescape s ++ "%" ++ unescape t := by
  have hbytes : decodeBytes (s ++ '%' :: t) = decodeBytes s ++ 0x25 :: decodeBytes t := by
    rw [decodeBytes_append, decodeBytes_percent h]
    rfl
  have hdecoded : Utf8.decodeLossy (decodeBytes s ++ 0x25 :: decodeBytes t)
      = Utf8.decodeLossy (decodeBytes s) ++ '%' :: Utf8.decodeLossy (decodeBytes t) :=
    Utf8.decodeLossy_append (by decide) _ _
  rw [unescape_eq, unescape_eq, unescape_eq, hbytes, hdecoded]
  apply String.toList_inj.1
  simp

/-- A text without escapes is a spelling of itself. -/
theorem spells_self (h : holdsEscape t = false) : Spells t t := by
  induction t with
  | nil => exact .nil
  | cons c t ih =>
      rw [holdsEscape, Bool.or_eq_false_iff] at h
      refine .plain ?_ (ih h.2)
      rintro rfl
      simpa using h.1

/-- However a text is spelled, it is what its spelling says. So a text without
escapes says itself; and in any text a `%` without two digits behind it is kept
as it is written, whatever the rest says. -/
theorem spellings_are_read :
    (∀ (s : String) (t : List Char), Spells s.toList t → unescape t = s)
      ∧ (∀ s : String, holdsEscape s.toList = false → unescape s.toList = s)
      ∧ ∀ s t : List Char, opensEscape t = false →
          unescape (s ++ '%' :: t) = unescape s ++ "%" ++ unescape t := by
  have hread : ∀ (s : String) (t : List Char), Spells s.toList t → unescape t = s := by
    intro s t h
    rw [unescape_eq, h.decodeBytes, Utf8.decodeLossy_encode]
    exact String.ofList_toList
  exact ⟨hread, fun s h => hread s s.toList (spells_self h), fun s t h => unescape_percent s h⟩

/-- A text with a letter of two bytes, a slash, and signs that are no
escapes. -/
private theorem spells_umlaut : Spells "ü/%+f%zz%4".toList "%c3%BC%2F%+f%zz%4".toList := by
  have hletter : Escapes (Utf8.encodeChar 'ü') "%c3%BC".toList :=
    .cons (.inl rfl) (.inl rfl) (.cons (.inr rfl) (.inr rfl) .nil)
  have hslash : Escapes (Utf8.encodeChar '/') "%2F".toList := .cons (.inl rfl) (.inr rfl) .nil
  exact .escaped hletter (.escaped hslash (spells_self rfl))

/-- Both cases of digits are read, and what is no escape stays. -/
theorem spellings_are_read_of_umlaut :
    unescape "%c3%BC%2F%+f%zz%4".toList = "ü/%+f%zz%4"
      ∧ unescape "%+f%zz%4".toList = "%+f%zz%4"
      ∧ unescape "%41%+f".toList = unescape "%41".toList ++ "%" ++ unescape "+f".toList := by
  obtain ⟨hread, hplain, hkept⟩ := spellings_are_read
  exact ⟨hread "ü/%+f%zz%4" _ spells_umlaut, hplain "%+f%zz%4" rfl,
    hkept "%41".toList "+f".toList rfl⟩

end VideoWall.Restream
