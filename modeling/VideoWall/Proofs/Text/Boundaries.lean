/-
Bytes and characters of one text: where a byte-wise reader may cut.

A character is one byte of its own or several bytes, none of which is a
byte of its own for another character (`mem_encodeChar_iff`). So a reader
that looks for such a byte, a comma or a quote say, finds it only where that
character stands.

`slice?` is the part of a text between two of its bytes. It is missing when
a bound is inside of a character, behind the text, or on the wrong side of
the other one, and is otherwise what `slice?_eq_some_iff` says.
-/
import Mathlib.Data.List.Basic
import VideoWall.Text.Utf8

namespace VideoWall.Text.Utf8

variable {c : Char} {b : UInt8} {s t front back : List Char} {start stop n : Nat}

-- ================================================================== bytes

@[simp] theorem encode_nil : encode [] = [] := rfl

@[simp] theorem encode_cons (c : Char) (s : List Char) :
    encode (c :: s) = encodeChar c ++ encode s := rfl

/-- A text is encoded character by character. -/
@[simp] theorem encode_append (s t : List Char) : encode (s ++ t) = encode s ++ encode t :=
  List.flatMap_append

theorem encodeChar_length_pos (c : Char) : 0 < (encodeChar c).length := by
  unfold encodeChar
  dsimp only
  split_ifs <;> exact Nat.succ_pos _

/-- The first 128 characters are one byte, and that byte is in no other
character. -/
theorem mem_encodeChar_iff (hb : b.toNat < 128) : b ∈ encodeChar c ↔ c.toNat = b.toNat := by
  have hbyte : ∀ k : Nat, b = k.toUInt8 ↔ b.toNat = k % 256 := by
    intro k
    rw [← UInt8.toNat_inj, Nat.toUInt8_eq, UInt8.toNat_ofNat']
  have hlast : c.toNat < 1114112 := by
    obtain h | ⟨-, h⟩ := c.valid
    · exact Nat.lt_trans h (by decide)
    · exact h
  unfold encodeChar
  dsimp only
  split_ifs <;> simp only [List.mem_cons, List.not_mem_nil, or_false, hbyte] <;> omega

-- ================================================================= slices

/-- The text before a byte and from that byte on. It is missing when the
byte is inside of a character or behind the text. -/
def splitAtByte? : Nat → List Char → Option (List Char × List Char)
  | 0, s => some ([], s)
  | _ + 1, [] => none
  | n + 1, c :: s =>
      if (encodeChar c).length ≤ n + 1 then
        (splitAtByte? (n + 1 - (encodeChar c).length) s).map fun (a, b) => (c :: a, b)
      else none

/-- The part of a text from one of its bytes to another one. -/
def slice? (s : List Char) (start stop : Nat) : Option (List Char) := do
  let (front, _) ← splitAtByte? stop s
  let (_, part) ← splitAtByte? start front
  some part

/-- A text is split where one of its parts ends. -/
theorem splitAtByte?_append (front back : List Char) :
    splitAtByte? (encode front).length (front ++ back) = some (front, back) := by
  induction front with
  | nil => rw [encode_nil, List.nil_append, List.length_nil, splitAtByte?]
  | cons c front ih =>
      have hpos := encodeChar_length_pos c
      have hlength : (encode (c :: front)).length
          = (encodeChar c).length + (encode front).length := by
        rw [encode_cons, List.length_append]
      obtain ⟨n, hn⟩ : ∃ n, (encode (c :: front)).length = n + 1 :=
        Nat.exists_eq_succ_of_ne_zero (by omega)
      have hrest : n + 1 - (encodeChar c).length = (encode front).length := by omega
      rw [hn, List.cons_append, splitAtByte?, if_pos (by omega), hrest, ih]
      rfl

/-- A text is split only between its characters. -/
theorem splitAtByte?_eq_some_iff :
    splitAtByte? n s = some (front, back) ↔ s = front ++ back ∧ (encode front).length = n := by
  constructor
  · intro h
    fun_induction splitAtByte? n s generalizing front with
    | case1 s =>
        obtain ⟨rfl, rfl⟩ := Prod.mk.inj (Option.some.inj h)
        exact ⟨rfl, rfl⟩
    | case2 n => cases h
    | case3 n c s hfits ih =>
        obtain ⟨⟨front, back⟩, hrest, heq⟩ := Option.map_eq_some_iff.1 h
        obtain ⟨rfl, rfl⟩ := Prod.mk.inj heq
        obtain ⟨rfl, hlength⟩ := ih hrest
        refine ⟨rfl, ?_⟩
        rw [encode_cons, List.length_append, hlength]
        omega
    | case4 n c s hinside => cases h
  · rintro ⟨rfl, rfl⟩
    exact splitAtByte?_append front back

/-- A slice is what stands between texts of the right numbers of bytes. -/
theorem slice?_eq_some_iff :
    slice? s start stop = some t ↔
      ∃ front back, s = front ++ t ++ back
        ∧ (encode front).length = start ∧ (encode (front ++ t)).length = stop := by
  constructor
  · intro h
    obtain ⟨⟨upto, back⟩, hstop, h⟩ := Option.bind_eq_some_iff.1 h
    obtain ⟨⟨front, part⟩, hstart, h⟩ := Option.bind_eq_some_iff.1 h
    obtain rfl := Option.some.inj h
    obtain ⟨rfl, hlength⟩ := splitAtByte?_eq_some_iff.1 hstop
    obtain ⟨rfl, hfront⟩ := splitAtByte?_eq_some_iff.1 hstart
    exact ⟨front, back, rfl, hfront, hlength⟩
  · rintro ⟨front, back, rfl, rfl, rfl⟩
    rw [slice?, splitAtByte?_append]
    dsimp only [Option.bind_eq_bind, Option.bind_some]
    rw [splitAtByte?_append]
    rfl

/-- A slice between characters is the text between them. -/
theorem slice?_append (front t back : List Char) :
    slice? (front ++ t ++ back) (encode front).length (encode (front ++ t)).length = some t :=
  slice?_eq_some_iff.2 ⟨front, back, rfl, rfl, rfl⟩

example : slice? "aüb".toList 1 3 = some "ü".toList ∧ slice? "aüb".toList 1 2 = none := by
  decide

end VideoWall.Text.Utf8
