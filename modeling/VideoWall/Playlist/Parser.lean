/-
Reading playlists, line by line. Blank lines and white space at the ends
of lines do not count. A line that begins with `#` is a tag or a comment;
any other line is an address, which belongs to the last variant tag
before it, or else to the last duration.

Tags may have attributes: `NAME=value` pairs between commas. A value may be
quoted, and then it may hold commas.
-/
import VideoWall.Playlist.Basic
import VideoWall.Text.Blank

namespace VideoWall.Playlist

open Text Numeral

-- ======================================================== attributes

/-- The pieces between the commas that stand outside of quotes; never
the empty list. -/
def splitPairs (quoted : Bool) : List Char → List (List Char)
  | [] => [[]]
  | c :: rest =>
      if c = ',' ∧ !quoted then [] :: splitPairs quoted rest
      else
        match splitPairs (if c = '"' then !quoted else quoted) rest with
        | [] => [[c]]
        | piece :: pieces => (c :: piece) :: pieces

/-- A text without the quotation marks around it. -/
def unquote (s : List Char) : List Char := dropEndWhile (· = '"') (s.dropWhile (· = '"'))

/-- The value of a pair, if it has the wanted name. -/
def valueOf? (key pair : List Char) : Option (List Char) :=
  match splitOnce? '=' pair with
  | none => none
  | some (name, value) => if trim name = key then some (unquote (trim value)) else none

/-- The value of the first pair with a name. -/
def attribute? (attributes key : List Char) : Option (List Char) :=
  (splitPairs false attributes).findSome? (valueOf? key)

-- ============================================================= lines

/-- Why a text is no playlist. -/
inductive ParseError where
  | noHeader
  | targetDuration (text : List Char) (cause : FloatError)
  | mediaSequence (text : List Char) (cause : IntegerError)
  | segmentDuration (text : List Char) (cause : FloatError)
  | sequenceOverflow
  deriving DecidableEq, Repr

/-- What is said about an error, the nearest cause last. -/
def ParseError.chain : ParseError → List String
  | .noHeader => ["playlist does not start with #EXTM3U"]
  | .targetDuration text cause =>
      ["bad target duration '" ++ String.ofList text ++ "'", cause.message]
  | .mediaSequence text cause =>
      ["bad media sequence '" ++ String.ofList text ++ "'", cause.message]
  | .segmentDuration text cause =>
      ["bad segment duration '" ++ String.ofList text ++ "'", cause.message]
  | .sequenceOverflow => ["segment number out of range"]

/-- What has been read: variants and segments last first, and the tags
that wait for their address. -/
structure Reading where
  variants : List Variant := []
  bandwidth : Option Nat := none
  duration : Option Float := none
  targetDuration : Float := 0
  mediaSequence : Nat := 0
  segments : List Segment := []
  ended : Bool := false
  deriving Inhabited

/-- What a line is. -/
inductive Line where
  | variant (attributes : List Char)
  | targetDuration (value : List Char)
  | mediaSequence (value : List Char)
  | duration (value : List Char)
  | endOfList
  | comment
  | address (uri : List Char)
  deriving DecidableEq, Repr

/-- What the text of a line is. Tags that are not known are comments. -/
def Line.ofChars (line : List Char) : Line :=
  match stripPrefix? "#EXT-X-STREAM-INF:".toList line with
  | some attributes => .variant attributes
  | none =>
  match stripPrefix? "#EXT-X-TARGETDURATION:".toList line with
  | some value => .targetDuration value
  | none =>
  match stripPrefix? "#EXT-X-MEDIA-SEQUENCE:".toList line with
  | some value => .mediaSequence value
  | none =>
  match stripPrefix? "#EXTINF:".toList line with
  | some value => .duration value
  | none =>
      if line = "#EXT-X-ENDLIST".toList then .endOfList
      else if line.head? = some '#' then .comment
      else .address line

/-- The bandwidth among the attributes of a variant; nought if it is
missing or no number. -/
def bandwidthOf (attributes : List Char) : Nat :=
  match (attribute? attributes "BANDWIDTH".toList).map (readNat maxWord64) with
  | some (.ok n) => n
  | _ => 0

/-- The duration in a duration tag: what stands before its first comma. -/
def durationText (value : List Char) : List Char := trim (value.takeWhile (· ≠ ','))

/-- Takes one more line. -/
def Reading.take (r : Reading) : Line → Except ParseError Reading
  | .variant attributes => .ok { r with bandwidth := some (bandwidthOf attributes) }
  | .targetDuration value =>
      match readFloat value with
      | .ok x => .ok { r with targetDuration := x }
      | .error cause => .error (.targetDuration value cause)
  | .mediaSequence value =>
      match readNat maxWord64 value with
      | .ok n => .ok { r with mediaSequence := n }
      | .error cause => .error (.mediaSequence value cause)
  | .duration value =>
      match readFloat (durationText value) with
      | .ok x => .ok { r with duration := some x }
      | .error cause => .error (.segmentDuration (durationText value) cause)
  | .endOfList => .ok { r with ended := true }
  | .comment => .ok r
  | .address uri =>
      match r.bandwidth, r.duration with
      | some bandwidth, _ =>
          .ok { r with
            bandwidth := none, variants := ⟨bandwidth, String.ofList uri⟩ :: r.variants }
      | none, some duration =>
          let sequence := r.mediaSequence + r.segments.length
          if maxWord64 < sequence then .error .sequenceOverflow
          else
            .ok { r with
              duration := none
              segments := ⟨String.ofList uri, duration, sequence⟩ :: r.segments }
      | none, none => .ok r

/-- The target duration: as the tag says, or the longest segment, but at
least two seconds, where the tag is missing or says nothing of use. -/
def Reading.target (r : Reading) : Float :=
  if r.targetDuration ≤ 0 then
    (r.segments.reverse.map (·.duration)).foldl largerFloat 2
  else r.targetDuration

/-- The playlist of all lines: a list of variants if there is a single one. -/
def Reading.toPlaylist (r : Reading) : Playlist :=
  if r.variants.isEmpty then
    .media ⟨r.target, r.mediaSequence, r.segments.reverse, r.ended⟩
  else .master r.variants.reverse

/-- The lines with something in them, without the white space around it. -/
def contentLines (text : List Char) : List (List Char) :=
  ((lines text).map trim).filter (· ≠ [])

/-- Reads a playlist, whose first line has to be the header. -/
def parse (text : List Char) : Except ParseError Playlist :=
  match contentLines text with
  | [] => .error .noHeader
  | header :: rest =>
      if header = "#EXTM3U".toList then do
        let r ← (rest.map Line.ofChars).foldlM Reading.take {}
        pure r.toPlaylist
      else .error .noHeader

end VideoWall.Playlist
