/-
Access to bytes. Some bytes have to be there because of what was read
before them; reading one that is not there is a fault of its own kind,
so that its absence can be stated and proved.
-/
namespace VideoWall.Bitstream

/-- A read past the end of the bytes. -/
inductive OutOfRange where
  | at (index : Nat)
  deriving DecidableEq, Repr

/-- A value, unless a byte that had to be there was not. -/
abbrev Checked (α : Type) := Except OutOfRange α

/-- The byte at a place. -/
def byteAt (bytes : List UInt8) (i : Nat) : Checked UInt8 :=
  match bytes[i]? with
  | some b => .ok b
  | none => .error (.at i)

/-- The bytes from a place on, which may be the end. -/
def bytesFrom (bytes : List UInt8) (i : Nat) : Checked (List UInt8) :=
  if i ≤ bytes.length then .ok (bytes.drop i) else .error (.at i)

/-- The bytes from one index up to another. -/
def between (bytes : List UInt8) (i j : Nat) : Checked (List UInt8) :=
  if i ≤ j ∧ j ≤ bytes.length then .ok ((bytes.take j).drop i) else .error (.at j)

/-- Two bytes as a number, the higher one first. -/
def word16 (hi lo : UInt8) : Nat := hi.toNat * 256 + lo.toNat

/-- Thirteen bits in two bytes, the higher ones in the lower part of the
first byte. -/
def word13 (hi lo : UInt8) : Nat := hi.toNat % 32 * 256 + lo.toNat

/-- Twelve bits in two bytes, the higher ones in the lower half of the
first byte. -/
def word12 (hi lo : UInt8) : Nat := hi.toNat % 16 * 256 + lo.toNat

end VideoWall.Bitstream
