/-
The numbers of segments.

# Semantics

A playlist states the number of its first segment in a tag, and the
segments behind it count on. The number that lines state is the one of the
last such tag among them, or nought (`statedSequence`). An address takes
its number when its line is read: what the lines before it state, and as
many more as there are segments before it.

# Main statement

`numbers_of_text`: for every text, so the numbers of its segments are what
the lines before each address state, counted on; they fit into 64 bits,
and they are the number of the list counted on as long as no tag behind an
address states another number (`StatedFirst`). A text is refused for its
numbers only if the lines before an address and the addresses among them
lead past 64 bits.

# What carries it

`take_cases` says once what a line can do to the numbers. From it
`Reading.Counted` is kept by each line and so by all lines of a text.
-/
import VideoWall.Proofs.Playlist.Clock

namespace VideoWall.Playlist

open Text Numeral

-- ========================================================== stated numbers

/-- The number that a line states for the first segment. -/
def Line.stated? : Line → Option Nat
  | .mediaSequence value => (readNat maxWord64 value).toOption
  | _ => none

/-- Whether a line is an address. -/
def Line.isAddress : Line → Bool
  | .address _ => true
  | _ => false

/-- The number that lines state for the first segment, the last one of
several, nought if they state none. -/
def statedSequence (lines : List Line) : Nat := (lines.filterMap Line.stated?).getLast?.getD 0

/-- No line behind an address states another number than the lines before
that address. -/
def StatedFirst (lines : List Line) : Prop :=
  ∀ before uri after, lines = before ++ .address uri :: after →
    statedSequence before = statedSequence lines

variable {text uri : List Char} {lines rest : List Line} {line : Line} {r r' : Reading}
  {p : Media} {s : Segment} {i : Nat}

/-- The last number stated counts. -/
theorem statedSequence_concat (lines : List Line) (line : Line) :
    statedSequence (lines ++ [line]) = line.stated?.getD (statedSequence lines) := by
  unfold statedSequence
  rw [List.filterMap_append, List.getLast?_append]
  cases hline : line.stated? with
  | none => simp [hline]
  | some n => simp [hline]

/-- Tags first and addresses behind them, as lists are meant to be written,
leave no number to be stated late. -/
theorem statedFirst_append {front back : List Line}
    (hfront : ∀ line ∈ front, line.isAddress = false)
    (hback : ∀ line ∈ back, line.stated? = none) : StatedFirst (front ++ back) := by
  have hsame : ∀ part, (∀ line ∈ part, line.stated? = none) →
      statedSequence (front ++ part) = statedSequence front := by
    intro part hpart
    rw [statedSequence, List.filterMap_append, List.filterMap_eq_nil_iff.2 hpart,
      List.append_nil, statedSequence]
  intro before uri after h
  rcases List.append_eq_append_iff.1 h with ⟨part, rfl, hpart⟩ | ⟨part, rfl, hpart⟩
  · rw [hsame back hback, hsame part]
    intro line hline
    exact hback line (hpart ▸ List.mem_append_left _ hline)
  · cases part with
    | nil =>
        rw [List.append_nil] at hsame ⊢
        exact (hsame back hback).symm
    | cons line part =>
        cases hpart
        exact nomatch hfront (.address uri) (by simp)

-- =========================================================== what lines do

/-- All that a line does to the numbers: it may state another one, and if it
is an address it may be the next segment, with the next number, if that
fits. -/
private theorem take_cases (h : r.take line = .ok r') :
    r'.mediaSequence = line.stated?.getD r.mediaSequence
      ∧ (r'.segments = r.segments
        ∨ ∃ uri x, line = .address uri ∧ r.mediaSequence + r.segments.length ≤ maxWord64
          ∧ r'.segments
            = ⟨String.ofList uri, x, r.mediaSequence + r.segments.length⟩ :: r.segments) := by
  cases line with
  | variant attributes | endOfList | comment =>
      cases h
      exact ⟨rfl, Or.inl rfl⟩
  | targetDuration value | duration value =>
      unfold Reading.take at h
      dsimp only at h
      split at h
      · cases h
        exact ⟨rfl, Or.inl rfl⟩
      · cases h
  | mediaSequence value =>
      unfold Reading.take at h
      dsimp only at h
      split at h
      case h_1 n hn =>
        cases h
        refine ⟨?_, Or.inl rfl⟩
        rw [Line.stated?, hn]
        rfl
      case h_2 => cases h
  | address uri =>
      unfold Reading.take at h
      dsimp only at h
      split at h
      · cases h
        exact ⟨rfl, Or.inl rfl⟩
      -- the number of a segment is checked as it is given; past a word there is an
      -- error
      case h_2 x hbandwidth hduration =>
        split at h
        case isTrue => cases h
        case isFalse hfits =>
          cases h
          exact ⟨rfl, Or.inr ⟨uri, x, rfl, Nat.not_lt.1 hfits, rfl⟩⟩
      · cases h
        exact ⟨rfl, Or.inl rfl⟩

/-- A line is refused for its number only if it is an address and the number
does not fit. -/
private theorem take_overflow (h : r.take line = .error .sequenceOverflow) :
    line.isAddress = true ∧ maxWord64 < r.mediaSequence + r.segments.length := by
  cases line with
  | variant attributes | endOfList | comment => cases h
  | targetDuration value | duration value | mediaSequence value =>
      unfold Reading.take at h
      dsimp only at h
      split at h
      · cases h
      · cases h
  | address uri =>
      unfold Reading.take at h
      dsimp only at h
      split at h
      · cases h
      · split at h
        case isTrue hlarge => exact ⟨rfl, hlarge⟩
        case isFalse => cases h
      · cases h

/-- The numbers of what has been read are those that the lines led to. -/
structure Reading.Counted (lines : List Line) (r : Reading) : Prop where
  sequence : r.mediaSequence = statedSequence lines
  few : r.segments.length ≤ lines.countP Line.isAddress
  segments : ∀ i s, r.segments.reverse[i]? = some s →
    (∃ before uri after, lines = before ++ .address uri :: after
      ∧ i ≤ before.countP Line.isAddress
      ∧ s.uri = String.ofList uri ∧ s.sequence = statedSequence before + i)
    ∧ s.sequence ≤ maxWord64

theorem Reading.Counted.start : ({} : Reading).Counted [] := ⟨rfl, Nat.le_refl 0, nofun⟩

/-- A line that is read is counted. -/
theorem Reading.Counted.take (hr : r.Counted lines) (h : r.take line = .ok r') :
    r'.Counted (lines ++ [line]) := by
  have hkept : ∀ i s, r.segments.reverse[i]? = some s →
      (∃ before uri after, lines ++ [line] = before ++ .address uri :: after
        ∧ i ≤ before.countP Line.isAddress
        ∧ s.uri = String.ofList uri ∧ s.sequence = statedSequence before + i)
      ∧ s.sequence ≤ maxWord64 := by
    intro i s hs
    obtain ⟨⟨before, uri, after, rfl, hcount, huri, hnumber⟩, hfits⟩ := hr.segments i s hs
    exact ⟨⟨before, uri, after ++ [line], by simp, hcount, huri, hnumber⟩, hfits⟩
  obtain ⟨hsequence, hsame | ⟨uri, x, rfl, hfits, hnew⟩⟩ := take_cases h
  · refine ⟨?_, ?_, hsame ▸ hkept⟩
    · rw [hsequence, hr.sequence, statedSequence_concat]
    · rw [hsame, List.countP_append]
      exact Nat.le_add_right_of_le hr.few
  · refine ⟨?_, ?_, ?_⟩
    · rw [hsequence, hr.sequence, statedSequence_concat]
    · rw [hnew, List.length_cons, List.countP_append]
      exact Nat.add_le_add_right hr.few 1
    · intro i s hs
      rw [hnew, List.reverse_cons] at hs
      rcases Nat.lt_or_ge i r.segments.reverse.length with hi | hi
      · rw [List.getElem?_append_left hi] at hs
        exact hkept i s hs
      · rw [List.getElem?_append_right hi, List.getElem?_singleton] at hs
        rw [Option.ite_none_right_eq_some] at hs
        obtain ⟨hlast, hs⟩ := hs
        cases hs
        have hi : i = r.segments.length := by
          rw [List.length_reverse] at hi hlast
          omega
        exact ⟨⟨lines, uri, [], rfl, hi ▸ hr.few, rfl, by rw [hi, hr.sequence]⟩, hfits⟩

/-- All lines that are read are counted. -/
private theorem Reading.Counted.foldlM (hr : r.Counted lines)
    (h : rest.foldlM Reading.take r = .ok r') : r'.Counted (lines ++ rest) := by
  induction rest generalizing lines r with
  | nil =>
      cases h
      simpa using hr
  | cons line rest ih =>
      obtain ⟨r₁, hstep, hrest⟩ := foldlM_cons_ok h
      simpa using ih (hr.take hstep) hrest

/-- Lines that are refused for a number have an address whose number does
not fit. -/
private theorem Reading.Counted.foldlM_overflow (hr : r.Counted lines)
    (h : rest.foldlM Reading.take r = .error .sequenceOverflow) :
    ∃ before line after, lines ++ rest = before ++ line :: after ∧ line.isAddress = true
      ∧ maxWord64 < statedSequence before + before.countP Line.isAddress := by
  induction rest generalizing lines r with
  | nil => cases h
  | cons line rest ih =>
      rw [List.foldlM_cons] at h
      cases hstep : r.take line with
      | error cause =>
          rw [hstep] at h
          cases h
          obtain ⟨haddress, hlarge⟩ := take_overflow hstep
          rw [hr.sequence] at hlarge
          exact ⟨lines, line, rest, rfl, haddress,
            Nat.lt_of_lt_of_le hlarge (Nat.add_le_add_left hr.few _)⟩
      | ok r₁ =>
          rw [hstep] at h
          simpa using ih (hr.take hstep) h

-- ==================================================================== texts

/-- A text with a header is what its lines behind the header lead to. -/
theorem parse_eq_of_header (text : List Char) (h : parse text ≠ .error .noHeader) :
    parse text = ((tags text).foldlM Reading.take {}).map Reading.toPlaylist := by
  unfold parse at h ⊢
  unfold tags
  cases hlines : contentLines text with
  | nil =>
      rw [hlines] at h
      exact absurd rfl h
  | cons header rest =>
      rw [hlines] at h
      dsimp only at h ⊢
      by_cases hheader : header = "#EXTM3U".toList
      · rw [if_pos hheader]
        show _ = ((rest.map Line.ofChars).foldlM Reading.take {}).map Reading.toPlaylist
        cases (rest.map Line.ofChars).foldlM Reading.take {} with
        | error cause => rfl
        | ok r => rfl
      · rw [if_neg hheader] at h
        exact absurd rfl h

/-- What the numbers of a media playlist are. -/
private theorem counted_of_media (h : parse text = .ok (.media p)) :
    ∃ r : Reading, r.Counted (tags text) ∧ p.mediaSequence = r.mediaSequence
      ∧ p.segments = r.segments.reverse := by
  have hparse := parse_eq_of_header text (by rw [h]; nofun)
  rw [h] at hparse
  cases hfold : (tags text).foldlM Reading.take {} with
  | error cause =>
      rw [hfold] at hparse
      cases hparse
  | ok r =>
      rw [hfold] at hparse
      have hlist := Except.ok.inj hparse
      unfold Reading.toPlaylist at hlist
      split at hlist
      · cases hlist
        exact ⟨r, Reading.Counted.start.foldlM hfold, rfl, rfl⟩
      · cases hlist

/-- The numbers of the segments of every text: what the lines before each
address state, counted on by the segments before it. They are the number of
the list counted on if no number is stated behind an address. A text is
refused for its numbers only if an address has none that fits. -/
theorem numbers_of_text (text : List Char) :
    (∀ p, parse text = .ok (.media p) →
      p.mediaSequence = statedSequence (tags text)
      ∧ ∀ i s, p.segments[i]? = some s →
        (∃ before uri after, tags text = before ++ .address uri :: after
          ∧ i ≤ before.countP Line.isAddress
          ∧ s.uri = String.ofList uri ∧ s.sequence = statedSequence before + i)
        ∧ s.sequence ≤ maxWord64
        ∧ (StatedFirst (tags text) → s.sequence = p.mediaSequence + i))
    ∧ (parse text = .error .sequenceOverflow →
      ∃ before uri after, tags text = before ++ .address uri :: after
        ∧ maxWord64 < statedSequence before + before.countP Line.isAddress) := by
  constructor
  · intro p h
    obtain ⟨r, hr, hsequence, hsegments⟩ := counted_of_media h
    refine ⟨hsequence.trans hr.sequence, ?_⟩
    intro i s hs
    rw [hsegments] at hs
    obtain ⟨hnumber, hfits⟩ := hr.segments i s hs
    refine ⟨hnumber, hfits, ?_⟩
    intro hfirst
    obtain ⟨before, uri, after, htags, -, -, hnumber⟩ := hnumber
    rw [hnumber, hfirst before uri after htags, hsequence, hr.sequence]
  · intro h
    have hparse := parse_eq_of_header text (by rw [h]; nofun)
    rw [h] at hparse
    cases hfold : (tags text).foldlM Reading.take {} with
    | ok r =>
        rw [hfold] at hparse
        cases hparse
    | error cause =>
        rw [hfold] at hparse
        cases hparse
        obtain ⟨before, line, after, htags, haddress, hlarge⟩ :=
          Reading.Counted.start.foldlM_overflow hfold
        cases line with
        | address uri => exact ⟨before, uri, after, htags, hlarge⟩
        | variant | targetDuration | mediaSequence | duration | endOfList | comment =>
            cases haddress

/-- A list as it is meant to be, and one whose second segment has no number
that fits. -/
theorem numbers_of_text_two :
    (∃ p, parse "#EXTM3U\n#EXT-X-MEDIA-SEQUENCE:120\n#EXTINF:4,\na\n#EXTINF:4,\nb".toList
        = .ok (.media p)
      ∧ p.mediaSequence = 120
      ∧ ∀ i s, p.segments[i]? = some s → s.sequence = p.mediaSequence + i)
    ∧ ∃ before uri after,
      tags ("#EXTM3U\n#EXT-X-MEDIA-SEQUENCE:18446744073709551615\n".toList
          ++ "#EXTINF:4,\na\n#EXTINF:4,\nb".toList)
        = before ++ .address uri :: after
      ∧ maxWord64 < statedSequence before + before.countP Line.isAddress := by
  constructor
  · have hfirst : StatedFirst
        (tags "#EXTM3U\n#EXT-X-MEDIA-SEQUENCE:120\n#EXTINF:4,\na\n#EXTINF:4,\nb".toList) := by
      have htags : tags "#EXTM3U\n#EXT-X-MEDIA-SEQUENCE:120\n#EXTINF:4,\na\n#EXTINF:4,\nb".toList
          = [.mediaSequence "120".toList] ++ [.duration "4,".toList, .address ['a'],
            .duration "4,".toList, .address ['b']] := by decide
      rw [htags]
      exact statedFirst_append (by decide) (by decide)
    obtain ⟨p, hp⟩ : ∃ p, parse
        "#EXTM3U\n#EXT-X-MEDIA-SEQUENCE:120\n#EXTINF:4,\na\n#EXTINF:4,\nb".toList
          = .ok (.media p) := ⟨_, rfl⟩
    obtain ⟨hsequence, hnumbers⟩ := (numbers_of_text _).1 p hp
    refine ⟨p, hp, hsequence.trans (by decide), fun i s hs => (hnumbers i s hs).2.2 hfirst⟩
  · exact (numbers_of_text _).2 rfl

/-- A number that is stated late is that of the list and of what follows, but
not of the segment before it. -/
theorem numbers_stated_late :
    ∃ p, parse ("#EXTM3U\n#EXTINF:2,\na.ts\n".toList
        ++ "#EXT-X-MEDIA-SEQUENCE:10\n#EXTINF:2,\nb.ts\n".toList) = .ok (.media p)
      ∧ p.mediaSequence = 10 ∧ p.segments.map (·.sequence) = [0, 11] :=
  ⟨_, rfl, rfl, rfl⟩

end VideoWall.Playlist
