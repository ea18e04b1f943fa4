/-
The two tables that say where the video is. The association table names
the stream of the map table of a program; the map table lists the
streams of the program with their types. A table comes in a section,
which ends in a checksum that is not looked at.
-/
import VideoWall.Bitstream.Bytes

namespace VideoWall.Transport

open Bitstream

/-- The table that names the streams of map tables. -/
def associationTable : UInt8 := 0

/-- The table that lists the streams of a program. -/
def mapTable : UInt8 := 2

/-- The stream that association tables come in. -/
def associationStream : Nat := 0

/-- The type of H.264 streams. -/
def videoType : UInt8 := 0x1B

/-- The section of a table in a payload, from its table number to its
checksum. A pointer before it says how many bytes to pass over. -/
def sectionBody? (payload : List UInt8) (table : UInt8) : Checked (Option (List UInt8)) :=
  match payload with
  | [] => pure none
  | pointer :: rest =>
      if rest.length < pointer.toNat then pure none
      else
        let body := rest.drop pointer.toNat
        match body with
        | [] => pure none
        | found :: _ =>
            if found ≠ table ∨ body.length < 3 then pure none
            else do
              let length := word12 (← byteAt body 1) (← byteAt body 2)
              if 3 + length < 4 then pure none
              else
                let stop := 3 + length - 4
                if body.length < stop then pure none else pure (some (body.take stop))

/-- The first program in the entries of an association table, of four
bytes each. Program nought is no program. -/
def programOf : List UInt8 → Option Nat
  | a :: b :: c :: d :: rest => if word16 a b ≠ 0 then some (word13 c d) else programOf rest
  | _ => none

/-- The stream of the map table that an association table names. -/
def mapStream? (payload : List UInt8) : Checked (Option Nat) := do
  match ← sectionBody? payload associationTable with
  | none => pure none
  | some body => if body.length < 8 then pure none else pure (programOf (body.drop 8))

/-- The first H.264 stream in a map table, looked for from an entry on.
An entry is five bytes long, and as many more as it says. -/
def videoEntry? (body : List UInt8) : (fuel cursor : Nat) → Checked (Option Nat)
  | 0, _ => pure none
  | fuel + 1, cursor => do
      if body.length < cursor + 5 then pure none
      else
        let type ← byteAt body cursor
        let stream := word13 (← byteAt body (cursor + 1)) (← byteAt body (cursor + 2))
        let more := word12 (← byteAt body (cursor + 3)) (← byteAt body (cursor + 4))
        if type = videoType then pure (some stream)
        else videoEntry? body fuel (cursor + 5 + more)

/-- The H.264 stream that a map table lists. -/
def videoStream? (payload : List UInt8) : Checked (Option Nat) := do
  match ← sectionBody? payload mapTable with
  | none => pure none
  | some body =>
      match body[10]?, body[11]? with
      | some hi, some lo => videoEntry? body body.length (12 + word12 hi lo)
      | _, _ => pure none

end VideoWall.Transport
