/-
Packets of a transport stream: 188 bytes that begin with a sync byte.
The header names the stream that the payload belongs to. An adaptation
field may stand between header and payload, and a packet may have no
payload at all.
-/
import VideoWall.Bitstream.Bytes

namespace VideoWall.Transport

open Bitstream

/-- The bytes of a packet. -/
def packetLength : Nat := 188

/-- The first byte of every packet. -/
def syncByte : UInt8 := 0x47

/-- A packet: whether a unit begins in it, the stream it belongs to, and
its payload, if it has one. -/
structure Packet where
  unitStart : Bool
  stream : Nat
  payload : Option (List UInt8)
  deriving DecidableEq, Repr

/-- Reads a packet. Its payload begins behind the adaptation field. -/
def Packet.read (bytes : List UInt8) : Checked Packet := do
  let b1 ← byteAt bytes 1
  let b2 ← byteAt bytes 2
  let b3 ← byteAt bytes 3
  let adaptation := (b3 >>> 4) &&& 3
  let offset ←
    if adaptation &&& 2 ≠ 0 then do pure (5 + (← byteAt bytes 4).toNat) else pure 4
  let header : Packet := ⟨b1 &&& 0x40 ≠ 0, word13 b1 b2, none⟩
  if adaptation &&& 1 = 0 ∨ packetLength ≤ offset then pure header
  else pure { header with payload := some (← bytesFrom bytes offset) }

/-- The packets in a stretch of bytes. What stands before a sync byte is
skipped, and so is an incomplete packet at the end. `fuel` bounds the
bytes looked at. -/
def packetsWithin : (fuel : Nat) → List UInt8 → List (List UInt8)
  | 0, _ => []
  | _, [] => []
  | fuel + 1, b :: rest =>
      let chunk := (b :: rest).take packetLength
      if chunk.length < packetLength then []
      else if b = syncByte then chunk :: packetsWithin fuel ((b :: rest).drop packetLength)
      else packetsWithin fuel rest

/-- The packets of a segment, each behind its mark. -/
def packets (bytes : List UInt8) : List (List UInt8) := packetsWithin bytes.length bytes

end VideoWall.Transport
