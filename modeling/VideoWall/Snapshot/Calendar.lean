/-
The date and time of an instant, which is a number of milliseconds
before or after the beginning of 1970, in universal time.

Days are counted from the first of March of the year nought, so that a
leap day is the last day of its year, and in eras of four hundred years,
which all have the same number of days.
-/
namespace VideoWall.Snapshot

/-- A day of the calendar. -/
structure Date where
  year : Int
  month : Nat
  day : Nat
  deriving DecidableEq, Repr

/-- The days from the first of March of the year nought to the first of
January 1970. -/
def epochDays : Int := 719468

/-- The days of four hundred years. -/
def eraDays : Nat := 146097

/-- The year of an era that a day of it falls into. -/
def yearOfEra (day : Nat) : Nat :=
  (day - day / 1460 + day / 36524 - day / 146096) / 365

/-- The date that is a number of days after the first of January 1970. -/
def Date.ofDays (days : Int) : Date :=
  let shifted := days + epochDays
  let era := shifted.fdiv eraDays
  let dayOfEra := (shifted.fmod eraDays).toNat
  let year := yearOfEra dayOfEra
  let dayOfYear := dayOfEra - (365 * year + year / 4 - year / 100)
  let march := (5 * dayOfYear + 2) / 153
  let day := dayOfYear - (153 * march + 2) / 5 + 1
  let month := if march < 10 then march + 3 else march - 9
  ⟨year + era * 400 + (if month ≤ 2 then 1 else 0), month, day⟩

/-- A number with at least `width` digits. -/
def padded (width n : Nat) : String :=
  let digits := Nat.toDigits 10 n
  String.ofList (List.replicate (width - digits.length) '0' ++ digits)

/-- A year: four digits, or a sign and at least four. -/
def yearText (year : Int) : String :=
  if year < 0 then "-" ++ padded 4 year.natAbs
  else if year ≤ 9999 then padded 4 year.natAbs
  else "+" ++ padded 5 year.natAbs

/-- The milliseconds of a day. -/
def dayLength : Int := 86400000

/-- An instant as date and time, with dashes between all its parts. -/
def stampText (instant : Int) : String :=
  let date := Date.ofDays (instant.fdiv dayLength)
  let time := (instant.fmod dayLength).toNat
  yearText date.year ++ "-" ++ padded 2 date.month ++ "-" ++ padded 2 date.day
    ++ "T" ++ padded 2 (time / 3600000)
    ++ "-" ++ padded 2 (time / 60000 % 60)
    ++ "-" ++ padded 2 (time / 1000 % 60)
    ++ "-" ++ padded 3 (time % 1000) ++ "Z"

end VideoWall.Snapshot
