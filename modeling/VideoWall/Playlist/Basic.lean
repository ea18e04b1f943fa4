/-
Playlists of live video. A master playlist lists variants of one video;
a media playlist lists the newest segments of one variant, numbered one
after the other.
-/
import VideoWall.Numeral.Decimal

namespace VideoWall.Playlist

/-- A segment of video: its address, its length in seconds, its number. -/
structure Segment where
  uri : String
  duration : Float
  sequence : Nat
  deriving Inhabited

/-- A variant of the video and the bandwidth that it takes. -/
structure Variant where
  bandwidth : Nat
  uri : String
  deriving DecidableEq, Repr, Inhabited

/-- A media playlist. -/
structure Media where
  targetDuration : Float
  mediaSequence : Nat
  segments : List Segment
  ended : Bool
  deriving Inhabited

end Playlist

/-- A playlist, of variants or of segments. -/
inductive Playlist where
  | master (variants : List Playlist.Variant)
  | media (playlist : Playlist.Media)

namespace Playlist

/-- The variant with the highest bandwidth, the last one of several. -/
def best? : List Variant → Option Variant
  | [] => none
  | v :: rest =>
      match best? rest with
      | none => some v
      | some w => if w.bandwidth < v.bandwidth then some v else some w

/-- The number of the newest segment, where live playback begins. -/
def Media.liveEdge? (p : Media) : Option Nat := p.segments.getLast?.map (·.sequence)

-- ============================================================== time

/-- The most whole seconds that a duration holds. -/
def maxSeconds : Nat := 18446744073709551616

/-- A number of seconds as nanoseconds, to the nearest, ties to even.
There are none for a NaN, for negative numbers, and for ones that are
too large. -/
def nanoseconds? (seconds : Float) : Option Nat :=
  match Numeral.readDouble seconds with
  | .nan | .infinite _ => none
  | .finite negative m e =>
      if negative ∧ m ≠ 0 then none
      else
        let (num, den) := Numeral.Format.scale (m * 1000000000) 1 e
        let n := Numeral.Format.roundDiv num den
        if n < maxSeconds * 1000000000 then some n else none

/-- A number kept between two others; a NaN stays one. -/
def clampFloat (low high x : Float) : Float :=
  if x < low then low else if high < x then high else x

/-- How long to wait before a playlist is read again: half its target
duration, but not less than a quarter of a second nor more than ten. -/
def Media.reloadInterval? (p : Media) : Option Nat :=
  nanoseconds? (clampFloat 0.25 10 (p.targetDuration / 2))

/-- The larger of two numbers; a NaN gives way to the other one. -/
def largerFloat (a b : Float) : Float :=
  if a.isNaN then b else if b.isNaN then a else if a < b then b else a

/-- The time from one unit of a segment to the next, of `n` of them. -/
def Segment.spacing? (s : Segment) (n : Nat) : Option Nat :=
  nanoseconds? (largerFloat s.duration 0 / Numeral.doubleOfNat n)

end Playlist

end VideoWall
