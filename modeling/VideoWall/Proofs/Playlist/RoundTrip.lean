/-
The round trip of playlists: what is written is what is read.

# Semantics

A writer puts down the tags of a list and then its segments or variants,
each as a tag and an address (`SegmentText`, `VariantText`). Between these
lines, in front of them and behind them there may be others that do not
count (`Entry.counts`): blank ones, remarks, and the tag that says that
the list is at its end.

# Main statement

`parse_written`: every such text, however it is laid out (`Written`), is
parsed as the list that was written, a media playlist as well as a master
playlist; and a text whose first line that is not blank is no header is
no playlist.

# What carries it

Noting entries is an induction over them with two things in hand: the end
of the list may be marked at any time and changes nothing else
(`foldlM_mark`), so entries that do not count may be left out
(`foldlM_counts`); and no tag waits for an address when a segment or a
variant begins (`foldlM_segments`, `foldlM_variants`).
-/
import VideoWall.Proofs.Playlist.Written

namespace VideoWall.Playlist

open Text Numeral
open Float.Model (UnpackedFloat)

-- ============================================================= what is written

/-- A segment as it is written: how long it takes, what it is called, where
it is. -/
structure SegmentText where
  length : Seconds
  title : Option Words
  uri : Address

/-- The lines of a segment. -/
def SegmentText.entries (s : SegmentText) : List Entry :=
  [.duration s.length s.title, .address s.uri]

/-- The segment with a number. -/
def SegmentText.segment (s : SegmentText) (n : Nat) : Segment :=
  ⟨String.ofList s.uri.chars, s.length.value, n⟩

/-- Segments numbered one after the other. -/
def numberedFrom (n : Nat) (segments : List SegmentText) : List Segment :=
  segments.mapIdx fun i s => s.segment (n + i)

/-- A variant as it is written. -/
structure VariantText where
  tag : VariantTag
  uri : Address

/-- The lines of a variant. -/
def VariantText.entries (v : VariantText) : List Entry := [.variant v.tag, .address v.uri]

/-- The variant that its lines are about. -/
def VariantText.variant (v : VariantText) : Variant :=
  ⟨v.tag.bandwidth.value, String.ofList v.uri.chars⟩

variable {text : List Char} {entries before rest : List Entry} {e : Entry} {r r' : Reading}

-- ======================================================== entries that do not count

/-- What has been read, with the end of the list marked or not. -/
def Reading.mark (r : Reading) (ended : Bool) : Reading := { r with ended := r.ended || ended }

/-- Nothing is marked unless the list has ended. -/
@[simp]
theorem Reading.mark_false (r : Reading) : r.mark false = r := by
  simp [mark]

@[simp]
theorem Reading.mark_mark (r : Reading) (a b : Bool) : (r.mark a).mark b = r.mark (a || b) := by
  simp [mark, Bool.or_assoc]

/-- The mark plays no part in what an entry means. -/
private theorem note_mark (ended : Bool) (h : r.note e = .ok r') :
    (r.mark ended).note e = .ok (r'.mark ended) := by
  cases e with
  | blank | remark m | targetDuration s | mediaSequence m | duration s title | variant v =>
      cases h
      rfl
  | endOfList =>
      cases h
      simp [Reading.note, Reading.mark]
  | address uri =>
      unfold Reading.note Reading.take at h ⊢
      dsimp only [Reading.mark] at h ⊢
      split at h
      · cases h
        rfl
      · split at h
        · cases h
        · cases h
          rw [if_neg ‹_›]
      · cases h
        rfl

/-- That the list has ended may be marked before its entries are noted. -/
private theorem foldlM_mark (ended : Bool) (h : entries.foldlM Reading.note r = .ok r') :
    entries.foldlM Reading.note (r.mark ended) = .ok (r'.mark ended) := by
  induction entries generalizing r with
  | nil =>
      cases h
      rfl
  | cons e rest ih =>
      obtain ⟨r₁, hstep, hrest⟩ := foldlM_cons_ok h
      rw [List.foldlM_cons, note_mark ended hstep]
      exact ih hrest

/-- Entries that do not count are as good as not written, but for the mark
of the end. -/
private theorem foldlM_counts (h : (entries.filter Entry.counts).foldlM Reading.note r = .ok r') :
    entries.foldlM Reading.note r = .ok (r'.mark (entries.any Entry.isEnd)) := by
  induction entries generalizing r with
  | nil =>
      cases h
      rw [List.any_nil, Reading.mark_false]
      rfl
  | cons e rest ih =>
      rw [List.foldlM_cons]
      cases e with
      | blank | remark m => exact ih h
      | endOfList =>
          have hnote : r.note .endOfList = .ok (r.mark true) := by simp [Reading.note, Reading.mark]
          have hmarked := foldlM_mark true (ih h)
          rw [Reading.mark_mark, Bool.or_comm] at hmarked
          rw [hnote]
          exact hmarked
      | targetDuration s | mediaSequence m | duration s title | variant v | address a =>
          rw [List.filter_cons_of_pos rfl] at h
          obtain ⟨r₁, hstep, hrest⟩ := foldlM_cons_ok h
          rw [hstep]
          exact ih hrest

-- ======================================================= segments and variants

theorem numberedFrom_cons (n : Nat) (s : SegmentText) (segments : List SegmentText) :
    numberedFrom n (s :: segments) = s.segment n :: numberedFrom (n + 1) segments := by
  have hshift : (fun i (t : SegmentText) => t.segment (n + (i + 1)))
      = fun i t => t.segment (n + 1 + i) := by
    funext i t
    rw [Nat.add_comm i 1, Nat.add_assoc]
  rw [numberedFrom, List.mapIdx_cons, hshift]
  rfl

/-- An address behind a duration is a segment. -/
private theorem take_address (uri : List Char) {x : Float} (hbandwidth : r.bandwidth = none)
    (hduration : r.duration = some x) (hfits : r.mediaSequence + r.segments.length ≤ maxWord64) :
    r.take (.address uri) = .ok { r with
      duration := none
      segments := ⟨String.ofList uri, x, r.mediaSequence + r.segments.length⟩ :: r.segments } := by
  simp only [Reading.take, hbandwidth, hduration]
  rw [if_neg (Nat.not_lt.2 hfits)]

/-- Segments are read with the numbers that follow the ones read before. -/
private theorem foldlM_segments (segments : List SegmentText)
    (hbandwidth : r.bandwidth = none) (hduration : r.duration = none)
    (hfit : r.mediaSequence + r.segments.length + segments.length ≤ maxWord64 + 1) :
    (segments.flatMap SegmentText.entries).foldlM Reading.note r
      = .ok { r with
          segments := (numberedFrom (r.mediaSequence + r.segments.length) segments).reverse
            ++ r.segments } := by
  induction segments generalizing r with
  | nil => rfl
  | cons s segments ih =>
      rw [List.length_cons] at hfit
      have hfits : r.mediaSequence + r.segments.length ≤ maxWord64 := by omega
      have hstep : s.entries.foldlM Reading.note r = .ok { r with
          segments := s.segment (r.mediaSequence + r.segments.length) :: r.segments } := by
        have haddress := take_address (r := { r with duration := some s.length.value })
          s.uri.chars hbandwidth rfl hfits
        refine (congrArg (fun x : Except ParseError Reading => x >>= pure) haddress).trans ?_
        obtain ⟨variants, bandwidth, duration, target, first, read, ended⟩ := r
        cases hduration
        rfl
      rw [List.flatMap_cons, List.foldlM_append, hstep, numberedFrom_cons, List.reverse_cons,
        List.append_assoc]
      refine ih (r := { r with
        segments := s.segment (r.mediaSequence + r.segments.length) :: r.segments })
        hbandwidth hduration ?_
      show r.mediaSequence + (r.segments.length + 1) + segments.length ≤ maxWord64 + 1
      omega

/-- Variants are noted in their order. -/
private theorem foldlM_variants (variants : List VariantText) (hbandwidth : r.bandwidth = none) :
    (variants.flatMap VariantText.entries).foldlM Reading.note r
      = .ok { r with variants := (variants.map VariantText.variant).reverse ++ r.variants } := by
  induction variants generalizing r with
  | nil => rfl
  | cons v variants ih =>
      have hstep : v.entries.foldlM Reading.note r
          = .ok { r with variants := v.variant :: r.variants } := by
        obtain ⟨read, bandwidth, duration, target, first, segments, ended⟩ := r
        cases hbandwidth
        rfl
      rw [List.flatMap_cons, List.foldlM_append, hstep, List.map_cons, List.reverse_cons,
        List.append_assoc]
      exact ih (r := { r with variants := v.variant :: r.variants }) hbandwidth

-- ================================================================ round trip

private theorem not_le_of_pos {x : Float} (h : 0 < x) : ¬ x ≤ 0 := by
  rw [lt_iff_compare] at h
  show ¬ decide (UnpackedFloat.le (parts x) (parts 0) = true) = true
  rw [decide_eq_true_iff]
  have hzero : parts 0 = .zero .positive := rfl
  rw [hzero] at h ⊢
  cases hx : parts x with
  | notANumber => decide
  | infinity s =>
      rw [hx] at h
      cases s with
      | positive => decide
      | negative => cases h
  | zero s =>
      rw [hx] at h
      cases s <;> cases h
  | finite s m e hm =>
      rw [hx] at h
      cases s with
      | positive => rintro ⟨⟩
      | negative => cases h

/-- A positive target duration is kept. -/
private theorem Reading.target_of_pos (h : 0 < r.targetDuration) : r.target = r.targetDuration :=
  if_neg (not_le_of_pos h)

/-- A list without variants is a media playlist. -/
private theorem Reading.toPlaylist_of_no_variant (h : r.variants = []) :
    r.toPlaylist = .media ⟨r.target, r.mediaSequence, r.segments.reverse, r.ended⟩ := by
  rw [toPlaylist, h]
  rfl

/-- What noting the entries that count leads to is what a text is parsed as,
with the end marked if it is written. -/
theorem Written.parse_eq_of_counts (h : Written text (before ++ Entry.header :: rest))
    (hbefore : ∀ e ∈ before, e = .blank)
    (hcounts : (rest.filter Entry.counts).foldlM Reading.note {} = .ok r) :
    parse text = .ok (r.mark (rest.any Entry.isEnd)).toPlaylist := by
  rw [h.parse_eq hbefore, foldlM_counts hcounts]
  rfl

/-- A written media playlist is read as it was meant. -/
private theorem Written.parse_media (h : Written text (before ++ Entry.header :: rest))
    (hbefore : ∀ e ∈ before, e = .blank) {target : Seconds} {first : Whole}
    {segments : List SegmentText}
    (hcounts : rest.filter Entry.counts
        = .targetDuration target :: .mediaSequence first :: segments.flatMap SegmentText.entries
      ∨ rest.filter Entry.counts
        = .mediaSequence first :: .targetDuration target :: segments.flatMap SegmentText.entries)
    (hpositive : 0 < target.value) (hfit : first.value + segments.length < 2 ^ 64) :
    parse text = .ok (.media ⟨target.value, first.value, numberedFrom first.value segments,
      rest.any Entry.isEnd⟩) := by
  let tagged : Reading := { targetDuration := target.value, mediaSequence := first.value }
  have hroom : first.value + 0 + segments.length ≤ maxWord64 + 1 := by
    unfold maxWord64
    omega
  have hsegments := foldlM_segments (r := tagged) segments rfl rfl hroom
  have hfold : (rest.filter Entry.counts).foldlM Reading.note {} = .ok { tagged with
      segments := (numberedFrom first.value segments).reverse ++ [] } := by
    rcases hcounts with hcounts | hcounts
    · rw [hcounts]
      exact hsegments
    · rw [hcounts]
      exact hsegments
  rw [h.parse_eq_of_counts hbefore hfold, Reading.toPlaylist_of_no_variant rfl,
    Reading.target_of_pos (by exact hpositive)]
  simp [Reading.mark, tagged]

/-- A written master playlist is read as it was meant. -/
private theorem Written.parse_master (h : Written text (before ++ Entry.header :: rest))
    (hbefore : ∀ e ∈ before, e = .blank) {variants : List VariantText}
    (hcounts : rest.filter Entry.counts = variants.flatMap VariantText.entries)
    (hne : variants ≠ []) : parse text = .ok (.master (variants.map VariantText.variant)) := by
  have hfold := foldlM_variants (r := {}) variants rfl
  rw [← hcounts] at hfold
  rw [h.parse_eq_of_counts hbefore hfold]
  unfold Reading.toPlaylist
  simp [Reading.mark, hne]

/-- A text that does not begin with the header is refused. -/
private theorem parse_of_no_header
    (h : ((lines text).map trim).find? (· ≠ []) ≠ some "#EXTM3U".toList) :
    parse text = .error .noHeader := by
  rw [← List.head?_filter] at h
  unfold parse
  change (contentLines text).head? ≠ _ at h
  cases hlines : contentLines text with
  | nil => rfl
  | cons header rest =>
      rw [hlines] at h
      exact if_neg fun heq => h (congrArg some heq)

/-- What is written is what is read. A text with the header, then the target
duration and the sequence tag in either order, then segments, is the media
playlist of just these, whatever else is written that does not count; with
variants behind the header it is the master playlist of just these. Without
the header it is no playlist. -/
theorem parse_written :
    (∀ (text : List Char) (before rest : List Entry) (target : Seconds) (first : Whole)
        (segments : List SegmentText),
      Written text (before ++ Entry.header :: rest) → (∀ e ∈ before, e = .blank) →
      (rest.filter Entry.counts
          = .targetDuration target :: .mediaSequence first :: segments.flatMap SegmentText.entries
        ∨ rest.filter Entry.counts
          = .mediaSequence first :: .targetDuration target
            :: segments.flatMap SegmentText.entries) →
      0 < target.value → first.value + segments.length < 2 ^ 64 →
      parse text = .ok (.media ⟨target.value, first.value, numberedFrom first.value segments,
        rest.any Entry.isEnd⟩))
    ∧ (∀ (text : List Char) (before rest : List Entry) (variants : List VariantText),
      Written text (before ++ Entry.header :: rest) → (∀ e ∈ before, e = .blank) →
      rest.filter Entry.counts = variants.flatMap VariantText.entries → variants ≠ [] →
      parse text = .ok (.master (variants.map VariantText.variant)))
    ∧ ∀ text : List Char, ((lines text).map trim).find? (· ≠ []) ≠ some "#EXTM3U".toList →
      parse text = .error .noHeader :=
  ⟨fun _ _ _ _ _ _ h hbefore hcounts hpositive hfit => h.parse_media hbefore hcounts hpositive hfit,
    fun _ _ _ _ h hbefore hcounts hne => h.parse_master hbefore hcounts hne,
    fun _ => parse_of_no_header⟩

/-- A live list with a blank line, white space around an address and a
carriage return, a master list, and a page that is neither. -/
theorem parse_written_lists :
    parse (["#EXTM3U\r", "#EXT-X-MEDIA-SEQUENCE:7", "#EXT-X-TARGETDURATION:4", "#EXTINF:4,live",
        "", " s7.ts ", "#EXTINF:3.5", "s8.ts", "#EXT-X-ENDLIST"].flatMap (·.toList ++ ['\n']))
      = .ok (.media ⟨4, 7, [⟨"s7.ts", 4, 7⟩, ⟨"s8.ts", 3.5, 8⟩], true⟩)
    ∧ parse (["#EXTM3U", "#EXT-X-STREAM-INF:CODECS=\"a,b\",BANDWIDTH=900,X", "high.m3u8"].flatMap
        (·.toList ++ ['\n']))
      = .ok (.master [⟨900, "high.m3u8"⟩])
    ∧ parse "<html>404</html>".toList = .error .noHeader := by
  let four : Seconds := ⟨"4".toList, _, rfl⟩
  let short : Seconds := ⟨"3.5".toList, _, rfl⟩
  let live : Words := ⟨"live".toList, by decide⟩
  let seven : Address := ⟨"s7.ts".toList, by decide, by decide, by decide, by decide⟩
  let eight : Address := ⟨"s8.ts".toList, by decide, by decide, by decide, by decide⟩
  let high : Address := ⟨"high.m3u8".toList, by decide, by decide, by decide, by decide⟩
  let space : Margin := ⟨[' '], by decide, by decide⟩
  let cr : Margin := ⟨['\r'], by decide, by decide⟩
  let first : Whole := .ofNat 7 (by decide)
  let codecs : Attribute := ⟨"CODECS".toList, "a,b".toList, true, by decide,
    List.all_iff_forall_prop.1 (by decide), List.all_iff_forall_prop.1 (by decide)⟩
  let tag : VariantTag :=
    ⟨[codecs], ⟨"900".toList, by decide, by decide, by decide⟩, some ⟨['X'], by decide⟩⟩
  have hmedia := parse_written.1 _ [] _ four first [⟨four, some live, seven⟩, ⟨short, none, eight⟩]
    (.line .header .none cr
      (.line (.mediaSequence first) .none .none
        (.line (.targetDuration four) .none .none
          (.line (.duration four (some live)) .none .none
            (.line .blank .none .none
              (.line (.address seven) space space
                (.line (.duration short none) .none .none
                  (.line (.address eight) .none .none
                    (.line .endOfList .none .none .nil)))))))))
    (by simp) (Or.inr rfl) (by decide) (by decide)
  have hmaster := parse_written.2.1 _ [] _ [⟨tag, high⟩]
    (.line .header .none .none
      (.line (.variant tag) .none .none (.line (.address high) .none .none .nil)))
    (by simp) rfl (by simp)
  have hpage := parse_written.2.2 "<html>404</html>".toList (by decide)
  exact ⟨hmedia, hmaster, hpage⟩

end VideoWall.Playlist
