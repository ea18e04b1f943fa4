/-
What the clock can tell. Durations and points of time are counted in
milliseconds here, and both have an end: a duration has less than 2^64
seconds and a point of time less than 2^63, so that not every duration
fits behind a point of time.
-/
import VideoWall.Playlist.Basic

namespace VideoWall.Clock

/-- How many seconds the clock tells apart, half of those that a duration may
have. -/
def maxSeconds : Nat := 9223372036854775808

/-- Whether so many milliseconds are a duration. -/
def IsDuration (ms : Nat) : Prop := ms < Playlist.maxSeconds * 1000

/-- Whether so many milliseconds are a point of time. -/
def IsInstant (ms : Nat) : Prop := ms < maxSeconds * 1000

instance (ms : Nat) : Decidable (IsDuration ms) := Nat.decLt ..

instance (ms : Nat) : Decidable (IsInstant ms) := Nat.decLt ..

/-- What is no longer than a duration is one itself. -/
theorem IsDuration.of_le {a b : Nat} (h : IsDuration b) (hle : a ≤ b) : IsDuration a :=
  Nat.lt_of_le_of_lt hle h

/-- What is over before a point of time is one itself. -/
theorem IsInstant.of_le {a b : Nat} (h : IsInstant b) (hle : a ≤ b) : IsInstant a :=
  Nat.lt_of_le_of_lt hle h

end VideoWall.Clock
