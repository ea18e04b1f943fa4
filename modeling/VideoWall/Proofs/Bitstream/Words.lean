/-
Numbers of twelve, thirteen and sixteen bits as two bytes, with what is
left of the first byte to spare, and that they are read back; and bytes
behind their number.
-/
import VideoWall.Bitstream.Bytes

namespace VideoWall.Bitstream

/-- A number below 256 is the value of its byte. -/
theorem toNat_ofNat_byte {n : Nat} (h : n < 256) : (UInt8.ofNat n).toNat = n :=
  UInt8.toNat_ofNat_of_lt' h

/-- The two bytes of a number of sixteen bits. -/
def word16Bytes (n : Fin 65536) : List UInt8 :=
  [UInt8.ofNat (n.val / 256), UInt8.ofNat (n.val % 256)]

/-- The two bytes of a number of thirteen bits. -/
def word13Bytes (spare : Fin 8) (n : Fin 8192) : List UInt8 :=
  [UInt8.ofNat (spare.val * 32 + n.val / 256), UInt8.ofNat (n.val % 256)]

/-- The two bytes of a number of twelve bits. -/
def word12Bytes (spare : Fin 16) (n : Nat) : List UInt8 :=
  [UInt8.ofNat (spare.val * 16 + n / 256), UInt8.ofNat (n % 256)]

/-- Two bytes are read as the number that they were written for. -/
theorem word16_bytes (n : Fin 65536) :
    ∃ hi lo, word16Bytes n = [hi, lo] ∧ word16 hi lo = n.val := by
  have hhigh := toNat_ofNat_byte (n := n.val / 256) (by omega)
  have hlow := toNat_ofNat_byte (n := n.val % 256) (by omega)
  refine ⟨_, _, rfl, ?_⟩
  unfold word16
  rw [hhigh, hlow]
  omega

theorem word16_lt (hi lo : UInt8) : word16 hi lo < 65536 := by
  have hhigh := hi.toNat_lt
  have hlow := lo.toNat_lt
  unfold word16
  omega

/-- Two bytes are those of the number that they are read as. -/
theorem word16Bytes_word16 (hi lo : UInt8) :
    word16Bytes ⟨word16 hi lo, word16_lt hi lo⟩ = [hi, lo] := by
  have hlow := lo.toNat_lt
  have hquotient : word16 hi lo / 256 = hi.toNat := by
    unfold word16
    omega
  have hrest : word16 hi lo % 256 = lo.toNat := by
    unfold word16
    omega
  unfold word16Bytes
  dsimp only
  rw [hquotient, hrest, UInt8.ofNat_toNat, UInt8.ofNat_toNat]

/-- Thirteen bits are read as the number that they were written for, whatever
the spare ones are. -/
theorem word13_bytes (spare : Fin 8) (n : Fin 8192) :
    ∃ hi lo, word13Bytes spare n = [hi, lo] ∧ word13 hi lo = n.val := by
  have hhigh := toNat_ofNat_byte (n := spare.val * 32 + n.val / 256) (by omega)
  have hlow := toNat_ofNat_byte (n := n.val % 256) (by omega)
  refine ⟨_, _, rfl, ?_⟩
  unfold word13
  rw [hhigh, hlow]
  omega

/-- Twelve bits are read as the number that they were written for, whatever the
spare ones are. -/
theorem word12_bytes (spare : Fin 16) {n : Nat} (hn : n < 4096) :
    ∃ hi lo, word12Bytes spare n = [hi, lo] ∧ word12 hi lo = n := by
  have hhigh := toNat_ofNat_byte (n := spare.val * 16 + n / 256) (by omega)
  have hlow := toNat_ofNat_byte (n := n % 256) (by omega)
  refine ⟨_, _, rfl, ?_⟩
  unfold word12
  rw [hhigh, hlow]
  omega

/-- Bytes whose number can be told by a word of so many values. -/
structure Piece (limit : Nat) where
  bytes : List UInt8
  fits : bytes.length < limit

/-- Pieces one after the other, each behind its number, which is written as a
word. -/
def measured {limit : Nat} (word : Fin limit → List UInt8) (pieces : List (Piece limit)) :
    List UInt8 :=
  pieces.flatMap fun p => word ⟨p.bytes.length, p.fits⟩ ++ p.bytes

/-- The first piece stands in front. -/
theorem measured_cons {limit : Nat} (word : Fin limit → List UInt8) (p : Piece limit)
    (pieces : List (Piece limit)) :
    measured word (p :: pieces)
      = word ⟨p.bytes.length, p.fits⟩ ++ (p.bytes ++ measured word pieces) := by
  unfold measured
  rw [List.flatMap_cons, List.append_assoc]

/-- Pieces are told apart by their bytes. -/
theorem Piece.bytes_injective {limit : Nat} (p p' : Piece limit) (h : p.bytes = p'.bytes) :
    p = p' := by
  obtain ⟨bytes, fits⟩ := p
  cases h
  rfl

/-- A byte that is there is read. -/
theorem byteAt_of_lt {bytes : List UInt8} {i : Nat} (h : i < bytes.length) :
    byteAt bytes i = .ok bytes[i] := by
  simp [byteAt, h]

/-- What lies within the bytes can be cut off. -/
theorem bytesFrom_of_le {bytes : List UInt8} {i : Nat} (h : i ≤ bytes.length) :
    bytesFrom bytes i = .ok (bytes.drop i) := if_pos h

/-- A byte behind some others. -/
theorem byteAt_append_right (front : List UInt8) {rest : List UInt8} {i : Nat} {b : UInt8}
    (h : rest[i]? = some b) : byteAt (front ++ rest) (front.length + i) = .ok b := by
  unfold byteAt
  rw [List.getElem?_append_right (Nat.le_add_right _ _), Nat.add_sub_cancel_left, h]

/-- What stands behind some bytes. -/
theorem bytesFrom_append_right (front rest : List UInt8) {i : Nat} (hi : i ≤ rest.length) :
    bytesFrom (front ++ rest) (front.length + i) = .ok (rest.drop i) := by
  have hle : front.length + i ≤ (front ++ rest).length := by
    rw [List.length_append]
    omega
  unfold bytesFrom
  rw [if_pos hle, List.drop_append]
  simp

end VideoWall.Bitstream
