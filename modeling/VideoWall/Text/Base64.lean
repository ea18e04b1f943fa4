/-
Base64 with the standard alphabet and padding, as the `Authorization`
header of a basic login writes it.
-/
namespace VideoWall.Text.Base64

/-- The sixty-four digits, in order. -/
def alphabet : Array Char :=
  "ABCDEFGHIJKLMNOPQRSTUVWXYZabcdefghijklmnopqrstuvwxyz0123456789+/".toList.toArray

/-- The digit of a number below sixty-four. -/
def digit (n : Nat) : Char := alphabet.getD (n % 64) '='

/-- Three bytes make four digits; one or two left over are padded. -/
def encode : List UInt8 → List Char
  | [] => []
  | [a] =>
      let n := a.toNat * 65536
      [digit (n / 262144), digit (n / 4096), '=', '=']
  | [a, b] =>
      let n := a.toNat * 65536 + b.toNat * 256
      [digit (n / 262144), digit (n / 4096), digit (n / 64), '=']
  | a :: b :: c :: rest =>
      let n := a.toNat * 65536 + b.toNat * 256 + c.toNat
      digit (n / 262144) :: digit (n / 4096) :: digit (n / 64) :: digit n
        :: encode rest

end VideoWall.Text.Base64
