/-
Access units and the packets of an elementary stream that carry them: a
start code, a header of variable length, which may hold a presentation
time stamp of 33 bits in five bytes, and the data.
-/
import VideoWall.Bitstream.Bytes

namespace VideoWall.Transport

open Bitstream

/-- One picture's worth of data, and when to show it, in 90 kHz ticks. -/
structure AccessUnit where
  pts : Option Nat
  data : List UInt8
  deriving DecidableEq, Repr

/-- A time stamp: three, eight, seven, eight and seven bits. -/
def readTimestamp (bytes : List UInt8) : Checked Nat := do
  let a ← byteAt bytes 0
  let b ← byteAt bytes 1
  let c ← byteAt bytes 2
  let d ← byteAt bytes 3
  let e ← byteAt bytes 4
  pure (a.toNat / 2 % 8 * 1073741824 + b.toNat * 4194304 + c.toNat / 2 * 32768 + d.toNat * 128
    + e.toNat / 2)

/-- Why bytes are no packet of an elementary stream. -/
inductive UnitError where
  | noStartCode
  | headerTooLong
  deriving DecidableEq, Repr

/-- The words for each cause. -/
def UnitError.message : UnitError → String
  | .noStartCode => "missing PES start code"
  | .headerTooLong => "PES header exceeds packet"

/-- Reads a unit with its header. The time stamp is optional, and all other
fields of the header are skipped. -/
def AccessUnit.read (bytes : List UInt8) : Checked (Except UnitError AccessUnit) := do
  if bytes.length < 9 ∨ bytes.take 3 ≠ [0, 0, 1] then pure (.error .noStartCode)
  else
    let flags ← byteAt bytes 7
    let header := (← byteAt bytes 8).toNat
    if bytes.length < 9 + header then pure (.error .headerTooLong)
    else
      let pts ←
        if flags &&& 0x80 ≠ 0 ∧ 5 ≤ header then do
          pure (some (← readTimestamp (← between bytes 9 14)))
        else pure none
      pure (.ok ⟨pts, ← bytesFrom bytes (9 + header)⟩)

end VideoWall.Transport
