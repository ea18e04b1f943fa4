/-
H.264 in length-prefixed framing, and its way into start codes. A frame
is a run of units, each after its length in four bytes. A configuration
record has a header of five bytes, then sequence parameters and picture
parameters, each after their number and each set after its length in two
bytes. What follows the sets is not looked at.
-/
import VideoWall.Bitstream.Annexb
import VideoWall.Bitstream.Bytes

namespace VideoWall.Bitstream.Avcc

-- ============================================================ frames

/-- Why a frame is no run of units. -/
inductive FrameError where
  | truncatedLength
  | tooLong (length : Nat)
  deriving DecidableEq, Repr

/-- The words for each cause. -/
def FrameError.message : FrameError → String
  | .truncatedLength => "truncated NAL length prefix"
  | .tooLong n => "NAL length " ++ toString n ++ " exceeds frame payload"

/-- A length of four bytes, the highest first. -/
def word32 (a b c d : UInt8) : Nat := word16 a b * 65536 + word16 c d

/-- The units at the front of a frame, and what stopped the reading.
`fuel` bounds the units. -/
def unitsWithin : (fuel : Nat) → List UInt8 → List (List UInt8) × Option FrameError
  | _, [] => ([], none)
  | 0, _ => ([], none)
  | fuel + 1, a :: b :: c :: d :: rest =>
      let n := word32 a b c d
      if n ≤ rest.length then
        let (units, error) := unitsWithin fuel (rest.drop n)
        (rest.take n :: units, error)
      else ([], some (.tooLong n))
  | _ + 1, _ => ([], some .truncatedLength)

/-- The units of a frame, as far as they can be read. -/
def units (frame : List UInt8) : List (List UInt8) × Option FrameError :=
  unitsWithin frame.length frame

/-- What a buffer holds after a frame was put into it with start codes,
and whether that failed on the way. What it held before is gone. -/
def toAnnexb (_buffer frame : List UInt8) : List UInt8 × Option FrameError :=
  let (units, error) := units frame
  (Annexb.join units, error)

-- =========================================================== records

/-- Why a configuration record cannot be read. -/
inductive RecordError where
  | header
  | sequenceCount
  | pictureCount
  | setLength
  | setTooLong
  deriving DecidableEq, Repr

/-- The words for each cause. -/
def RecordError.message : RecordError → String
  | .header => "avcC header truncated"
  | .sequenceCount => "avcC SPS count missing"
  | .pictureCount => "avcC PPS count missing"
  | .setLength => "avcC parameter set length missing"
  | .setTooLong => "avcC parameter set exceeds record"

/-- Reads a number of sets: the sets and what follows them. -/
def readSets : (count : Nat) → List UInt8 →
    Except RecordError (List (List UInt8) × List UInt8)
  | 0, rest => .ok ([], rest)
  | count + 1, hi :: lo :: rest =>
      let n := word16 hi lo
      if n ≤ rest.length then do
        let (sets, after) ← readSets count (rest.drop n)
        pure (rest.take n :: sets, after)
      else .error .setTooLong
  | _ + 1, _ => .error .setLength

/-- The parameter sets of a record, in order. The number of sequence
parameters is in the lower five bits of its byte. -/
def parameterSets (record : List UInt8) : Except RecordError (List (List UInt8)) :=
  if record.length < 5 then .error .header
  else
    match record.drop 5 with
    | [] => .error .sequenceCount
    | count :: rest => do
        let (sequence, rest) ← readSets (count &&& 0x1F).toNat rest
        match rest with
        | [] => .error .pictureCount
        | count :: rest =>
            let (picture, _) ← readSets count.toNat rest
            pure (sequence ++ picture)

/-- The parameter sets of a record with start codes. -/
def parameterSetsAnnexb (record : List UInt8) : Except RecordError (List UInt8) :=
  (parameterSets record).map Annexb.join

end VideoWall.Bitstream.Avcc
