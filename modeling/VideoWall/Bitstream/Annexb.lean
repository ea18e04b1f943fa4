/-
H.264 as a stream of bytes: units with a start code in front of each.
-/
namespace VideoWall.Bitstream.Annexb

/-- The start code that this library writes. -/
def startCode : List UInt8 := [0, 0, 0, 1]

/-- Units, each with a start code in front. -/
def join (units : List (List UInt8)) : List UInt8 := units.flatMap (startCode ++ ·)

/-- The type of a unit that holds sequence parameters. -/
def parameterType : UInt8 := 7

/-- The type of a unit, by its first byte. -/
def unitType (b : UInt8) : UInt8 := b &&& 0x1F

/-- Whether a unit with sequence parameters begins anywhere: a short
start code and a byte of that type. -/
def carriesParameterSets : List UInt8 → Bool
  | [] => false
  | a :: rest =>
      (match a, rest with
        | 0, 0 :: 1 :: b :: _ => unitType b == parameterType
        | _, _ => false)
      || carriesParameterSets rest

end VideoWall.Bitstream.Annexb
