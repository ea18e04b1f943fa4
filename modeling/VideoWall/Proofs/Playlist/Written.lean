/-
Playlists as they are written: what a writer of playlists may put on a
line, and the texts whose lines these are.

An `Entry` is one line's worth of a playlist. Its parts carry the proofs
of what they have to be: a numeral that is read as a double (`Seconds`),
digits of a number of at most 64 bits (`Whole`), an address that is not
taken for a tag (`Address`), a line that begins with `#` and is none of
the tags that count (`Remark`), a variant tag with its bandwidth among
other attributes (`VariantTag`). `Written text entries` says that a text
is these entries, one on a line, with any white space around each, a line
feed or a carriage return and a line feed behind each, or nothing behind
the last.

`parse` does not occur in any of these definitions. The laws tie them to
it: the lines of a written text that are not blank are its entries
(`Written.contentLines_eq`), and each line is taken for what its entry
means (`Entry.take_line`, one lemma for each kind of entry).
-/
import Mathlib.Data.Bool.AllAny
import VideoWall.Proofs.Numeral.Numerals
import VideoWall.Proofs.Text.Lines

namespace VideoWall.Playlist

open Text Numeral

-- =================================================================== parts

/-- Text on one line. -/
structure Words where
  chars : List Char
  oneLine : '\n' ∉ chars

/-- White space before or behind what a line says. The carriage return of a
line that ends in two characters belongs to it. -/
structure Margin where
  chars : List Char
  blank : chars.all isBlank = true
  oneLine : '\n' ∉ chars

/-- No white space. -/
def Margin.none : Margin := ⟨[], rfl, nofun⟩

/-- A numeral and the number of seconds that it is read as. -/
structure Seconds where
  numeral : List Char
  value : Float
  reads : readFloat numeral = .ok value

/-- A natural number of at most 64 bits in decimal digits. -/
structure Whole where
  digits : List Char
  nonempty : digits ≠ []
  decimal : digits.all Char.isDigit = true
  bounded : Nat.ofDigitChars 10 digits 0 ≤ maxWord64

/-- The number that the digits write. -/
def Whole.value (w : Whole) : Nat := Nat.ofDigitChars 10 w.digits 0

/-- The number without noughts in front. -/
def Whole.ofNat (n : Nat) (h : n ≤ maxWord64) : Whole where
  digits := Nat.toDigits 10 n
  nonempty := Nat.toDigits_ne_nil
  decimal := List.all_eq_true.2 fun _ hc => Nat.isDigit_of_mem_toDigits (by decide) (by decide) hc
  bounded := by rwa [Nat.ofDigitChars_toDigits (by decide) (by decide)]

/-- An address that can stand on a line of its own. -/
structure Address where
  chars : List Char
  nonempty : chars ≠ []
  trimmed : trim chars = chars
  oneLine : '\n' ∉ chars
  notTag : chars.head? ≠ some '#'

/-- What the tags that carry a value begin with. -/
def valueTags : List (List Char) :=
  ["#EXT-X-STREAM-INF:".toList, "#EXT-X-TARGETDURATION:".toList,
    "#EXT-X-MEDIA-SEQUENCE:".toList, "#EXTINF:".toList]

/-- The tag that ends a list. -/
def endTag : List Char := "#EXT-X-ENDLIST".toList

/-- A line that begins with `#` and is none of the tags that count. -/
structure Remark where
  chars : List Char
  marked : chars.head? = some '#'
  oneLine : '\n' ∉ chars
  foreign : ∀ tag ∈ valueTags, ¬ tag <+: chars
  notEnd : trim chars ≠ endTag

/-- An attribute of a variant other than its bandwidth, with or without
quotes around its value. -/
structure Attribute where
  name : List Char
  value : List Char
  quoted : Bool
  other : trim name ≠ "BANDWIDTH".toList
  nameFree : ∀ c ∈ name, c ≠ '=' ∧ c ≠ ',' ∧ c ≠ '"' ∧ c ≠ '\n'
  valueFree : ∀ c ∈ value, (quoted = false → c ≠ ',') ∧ c ≠ '"' ∧ c ≠ '\n'

/-- An attribute as it is written. -/
def Attribute.chars (a : Attribute) : List Char :=
  a.name ++ '=' :: if a.quoted then '"' :: (a.value ++ ['"']) else a.value

/-- A variant tag: other attributes, the bandwidth, and whatever follows
behind a comma. -/
structure VariantTag where
  before : List Attribute
  bandwidth : Whole
  after : Option Words

/-- What stands behind a comma, if there is one. -/
def behindComma : Option Words → List Char
  | none => []
  | some words => ',' :: words.chars

/-- The attributes of a variant as they are written. -/
def VariantTag.attributes (v : VariantTag) : List Char :=
  v.before.flatMap (fun a => a.chars ++ [','])
    ++ ("BANDWIDTH=".toList ++ v.bandwidth.digits ++ behindComma v.after)

-- ================================================================= entries

/-- What a line of a playlist says. -/
inductive Entry where
  | blank
  | remark (r : Remark)
  | endOfList
  | targetDuration (target : Seconds)
  | mediaSequence (first : Whole)
  | duration (length : Seconds) (title : Option Words)
  | variant (tag : VariantTag)
  | address (uri : Address)

namespace Entry

/-- The first line of every playlist. -/
def header : Entry :=
  .remark ⟨"#EXTM3U".toList, rfl, by decide, by decide, by decide⟩

/-- An entry as it is written. -/
def chars : Entry → List Char
  | .blank => []
  | .remark r => r.chars
  | .endOfList => endTag
  | .targetDuration target => "#EXT-X-TARGETDURATION:".toList ++ target.numeral
  | .mediaSequence first => "#EXT-X-MEDIA-SEQUENCE:".toList ++ first.digits
  | .duration length title => "#EXTINF:".toList ++ length.numeral ++ behindComma title
  | .variant tag => "#EXT-X-STREAM-INF:".toList ++ tag.attributes
  | .address uri => uri.chars

/-- Whether an entry says something about segments or variants. -/
def counts : Entry → Bool
  | .blank | .remark _ | .endOfList => false
  | _ => true

/-- Whether an entry ends the list. -/
def isEnd : Entry → Bool
  | .endOfList => true
  | _ => false

end Entry

/-- What an entry means to somebody who reads a playlist. -/
def Reading.note (r : Reading) : Entry → Except ParseError Reading
  | .blank | .remark _ => .ok r
  | .endOfList => .ok { r with ended := true }
  | .targetDuration target => .ok { r with targetDuration := target.value }
  | .mediaSequence first => .ok { r with mediaSequence := first.value }
  | .duration length _ => .ok { r with duration := some length.value }
  | .variant tag => .ok { r with bandwidth := some tag.bandwidth.value }
  | .address uri => r.take (.address uri.chars)

/-- A text made of entries, one on a line. -/
inductive Written : List Char → List Entry → Prop where
  | nil : Written [] []
  | last (e : Entry) (left right : Margin) :
      Written (left.chars ++ e.chars ++ right.chars) [e]
  | line (e : Entry) (left right : Margin) {text : List Char} {rest : List Entry}
      (h : Written text rest) :
      Written (left.chars ++ e.chars ++ right.chars ++ '\n' :: text) (e :: rest)

variable {text line : List Char} {entries : List Entry} {r : Reading}

-- ========================================================== plain numerals

/-- A numeral has no blanks. -/
theorem Seconds.solid (s : Seconds) : s.numeral.all (!isBlank ·) = true := by
  rw [List.all_eq_true]
  intro c hc
  simpa using ((plain_of_readFloat s.reads).2 c hc).1

private theorem Seconds.oneLine (s : Seconds) : '\n' ∉ s.numeral := fun h =>
  absurd ((plain_of_readFloat s.reads).2 _ h).1 (by decide)

theorem Whole.plain (w : Whole) : ∀ c ∈ w.digits, IsPlain c ∧ c ≠ '"' := by
  intro c hc
  have hdigit := List.all_eq_true.1 w.decimal c hc
  refine ⟨plain_of_digit (digit?_of_isDigit hdigit), ?_⟩
  rintro rfl
  exact absurd hdigit (by decide)

theorem Whole.solid (w : Whole) : w.digits.all (!isBlank ·) = true := by
  rw [List.all_eq_true]
  intro c hc
  simpa using (w.plain c hc).1.1

theorem Whole.oneLine (w : Whole) : '\n' ∉ w.digits := fun h =>
  absurd (w.plain _ h).1.1 (by decide)

/-- A whole number is read as its value. -/
theorem Whole.reads (w : Whole) : readNat maxWord64 w.digits = .ok w.value :=
  readNat_digits w.nonempty (List.all_eq_true.1 w.decimal) w.bounded

theorem behindComma_oneLine (w : Option Words) : '\n' ∉ behindComma w := by
  cases w with
  | none => simp [behindComma]
  | some words => simpa [behindComma] using words.oneLine

-- ============================================================== attributes

section attributes

variable {s t piece key : List Char} {pieces : List (List Char)} {q : Bool}

/-- Letters that are not quotes or commas stay in their piece. -/
theorem splitPairs_append (hs : ∀ c ∈ s, (q = false → c ≠ ',') ∧ c ≠ '"')
    (ht : splitPairs q t = piece :: pieces) : splitPairs q (s ++ t) = (s ++ piece) :: pieces := by
  induction s with
  | nil => exact ht
  | cons c s ih =>
      obtain ⟨⟨hcomma, hquote⟩, hrest⟩ := List.forall_mem_cons.1 hs
      have hplain : ¬ (c = ',' ∧ !q) := fun h => hcomma (by simpa using h.2) h.1
      rw [List.cons_append, splitPairs, if_neg hplain, if_neg hquote, ih hrest]
      rfl

/-- A quote stays in its piece and changes the side. -/
private theorem splitPairs_quote (ht : splitPairs (!q) t = piece :: pieces) :
    splitPairs q ('"' :: t) = ('"' :: piece) :: pieces := by
  rw [splitPairs, if_neg (fun h => absurd h.1 (by decide)), if_pos rfl, ht]

/-- A comma outside quotes begins a piece. -/
theorem splitPairs_comma (t : List Char) :
    splitPairs false (',' :: t) = [] :: splitPairs false t := by
  simp [splitPairs]

/-- A text that is all in one piece, whatever follows it, and that leaves off
outside of quotes. -/
def Uncut (s : List Char) : Prop :=
  ∀ t piece pieces, splitPairs false t = piece :: pieces →
    splitPairs false (s ++ t) = (s ++ piece) :: pieces

/-- What is not cut may be joined. -/
theorem Uncut.append (hs : Uncut s) (ht : Uncut t) : Uncut (s ++ t) := by
  intro u piece pieces hu
  rw [List.append_assoc, List.append_assoc]
  exact hs _ _ _ (ht _ _ _ hu)

/-- A text without commas and quotes is not cut. -/
theorem uncut_of_free (hs : ∀ c ∈ s, c ≠ ',' ∧ c ≠ '"') : Uncut s := fun _ _ _ ht =>
  splitPairs_append (fun c hc => ⟨fun _ => (hs c hc).1, (hs c hc).2⟩) ht

theorem uncut_equals : Uncut ['='] := uncut_of_free (List.forall_mem_singleton.2 (by decide))

/-- Nothing is cut inside of quotes. -/
theorem uncut_quoted (hs : '"' ∉ s) : Uncut ('"' :: s ++ ['"']) := by
  intro t piece pieces ht
  have hclose : splitPairs true ('"' :: t) = ('"' :: piece) :: pieces := splitPairs_quote ht
  have hinside := splitPairs_append (q := true) (fun c hc => ⟨nofun, fun h => hs (h ▸ hc)⟩) hclose
  simpa using splitPairs_quote (q := false) hinside

private theorem Attribute.uncut (a : Attribute) : Uncut a.chars := by
  have hname : Uncut a.name :=
    uncut_of_free fun c hc => ⟨(a.nameFree c hc).2.1, (a.nameFree c hc).2.2.1⟩
  have hvalue : Uncut (if a.quoted then '"' :: (a.value ++ ['"']) else a.value) := by
    split
    case isTrue hquoted => exact uncut_quoted fun h => (a.valueFree _ h).2.1 rfl
    case isFalse hplain =>
      refine uncut_of_free fun c hc => ?_
      exact ⟨(a.valueFree c hc).1 (by simpa using hplain), (a.valueFree c hc).2.1⟩
  have h := (hname.append uncut_equals).append hvalue
  rwa [List.append_assoc] at h

/-- An attribute is one pair, also with commas inside of its quotes. -/
private theorem Attribute.splitPairs_chars (a : Attribute) (t : List Char) :
    splitPairs false (a.chars ++ ',' :: t) = a.chars :: splitPairs false t := by
  rw [a.uncut _ _ _ (splitPairs_comma t), List.append_nil]

/-- No other attribute is taken for the bandwidth. -/
private theorem Attribute.valueOf?_bandwidth (a : Attribute) :
    valueOf? "BANDWIDTH".toList a.chars = none := by
  unfold valueOf? Attribute.chars
  rw [splitOnce?_append_cons (fun h => (a.nameFree _ h).1 rfl)]
  exact if_neg a.other

private theorem Attribute.oneLine (a : Attribute) : '\n' ∉ a.chars := by
  intro h
  rcases List.mem_append.1 h with h | h
  · exact (a.nameFree _ h).2.2.2 rfl
  · have hvalue : '\n' ∉ a.value := fun h => (a.valueFree _ h).2.2 rfl
    split at h
    · simp [hvalue] at h
    · simp [hvalue] at h

private theorem VariantTag.oneLine (v : VariantTag) : '\n' ∉ v.attributes := by
  have hbefore : '\n' ∉ v.before.flatMap (fun a => a.chars ++ [',']) := by
    intro h
    obtain ⟨a, -, h⟩ := List.mem_flatMap.1 h
    exact (List.mem_append.1 h).elim a.oneLine (by decide)
  simp only [VariantTag.attributes, List.mem_append, not_or]
  exact ⟨hbefore, ⟨by decide, v.bandwidth.oneLine⟩, behindComma_oneLine v.after⟩

/-- A text without quotes is not unquoted. -/
theorem unquote_of_not_mem (h : '"' ∉ s) : unquote s = s := by
  have hfree : ∀ c ∈ s, decide (c = '"') = false := by
    intro c hc
    rw [decide_eq_false_iff_not]
    rintro rfl
    exact h hc
  rw [unquote, dropWhile_of_forall hfree, dropEndWhile_of_forall hfree]

/-- The bandwidth is read from its attribute. -/
private theorem Whole.valueOf?_bandwidth (w : Whole) :
    valueOf? "BANDWIDTH".toList ("BANDWIDTH=".toList ++ w.digits) = some w.digits := by
  have hcut : splitOnce? '=' ("BANDWIDTH=".toList ++ w.digits)
      = some ("BANDWIDTH".toList, w.digits) := rfl
  have hname : trim "BANDWIDTH".toList = "BANDWIDTH".toList := by decide
  rw [valueOf?, hcut]
  dsimp only
  rw [if_pos hname, trim_of_forall fun c hc => (w.plain c hc).1.1,
    unquote_of_not_mem fun h => (w.plain _ h).2 rfl]

/-- The bandwidth is found among the attributes, wherever it stands. -/
private theorem VariantTag.bandwidthOf_attributes (v : VariantTag) :
    bandwidthOf v.attributes = v.bandwidth.value := by
  obtain ⟨before, w, after⟩ := v
  have hpair : ∃ pieces, splitPairs false ("BANDWIDTH=".toList ++ w.digits ++ behindComma after)
      = ("BANDWIDTH=".toList ++ w.digits) :: pieces := by
    have hname : "BANDWIDTH=".toList.all (fun c => c ≠ ',' ∧ c ≠ '"') = true := by decide
    have huncut : Uncut ("BANDWIDTH=".toList ++ w.digits) :=
      (uncut_of_free (List.all_iff_forall_prop.1 hname)).append
        (uncut_of_free fun c hc => ⟨(w.plain c hc).1.2, (w.plain c hc).2⟩)
    cases after with
    | none => exact ⟨[], by simpa [behindComma] using huncut [] [] [] rfl⟩
    | some words =>
        have h := huncut _ _ _ (splitPairs_comma words.chars)
        rw [List.append_nil] at h
        exact ⟨_, h⟩
  have hfound : attribute? (VariantTag.attributes ⟨before, w, after⟩) "BANDWIDTH".toList
      = some w.digits := by
    unfold attribute? VariantTag.attributes
    induction before with
    | nil =>
        obtain ⟨pieces, hpieces⟩ := hpair
        rw [List.flatMap_nil, List.nil_append, hpieces, List.findSome?_cons,
          w.valueOf?_bandwidth]
    | cons a before ih =>
        rw [List.flatMap_cons, List.append_assoc, List.append_assoc, List.singleton_append,
          a.splitPairs_chars, List.findSome?_cons, a.valueOf?_bandwidth]
        exact ih
  rw [bandwidthOf, hfound, Option.map_some, w.reads]

end attributes

-- =================================================================== lines

/-- A line that has no tag with a value in front says nothing, or that the
list is at its end, or an address. -/
theorem Line.ofChars_of_foreign (h : ∀ tag ∈ valueTags, ¬ tag <+: line) :
    Line.ofChars line = if line = endTag then .endOfList
      else if line.head? = some '#' then .comment else .address line := by
  unfold Line.ofChars
  rw [stripPrefix?_eq_none (h _ (by decide)), stripPrefix?_eq_none (h _ (by decide)),
    stripPrefix?_eq_none (h _ (by decide)), stripPrefix?_eq_none (h _ (by decide))]
  rfl

/-- A trimmed line with a tag in front keeps the tag and what is behind it up
to a comma; behind the comma it may lose white space. -/
private theorem trim_tagged {tag solid : List Char} (htag : tag.head? = some '#')
    (hsolid : solid.all (!isBlank ·) = true) (hne : solid ≠ []) (w : Option Words) :
    ∃ w', trim (tag ++ solid ++ behindComma w) = tag ++ solid ++ behindComma w' := by
  obtain ⟨rest, rfl⟩ := List.head?_eq_some_iff.1 htag
  have hmark : isBlank '#' = false := rfl
  cases w with
  | none =>
      refine ⟨none, ?_⟩
      rw [behindComma, List.append_nil]
      exact trim_append_cons hmark hsolid hne
  | some words =>
      have hshorter : '\n' ∉ dropEndWhile isBlank words.chars := by
        intro h
        rw [dropEndWhile, List.mem_reverse] at h
        exact words.oneLine (List.mem_reverse.1 ((List.dropWhile_suffix isBlank).subset h))
      refine ⟨some ⟨_, hshorter⟩, ?_⟩
      rw [behindComma, behindComma, List.cons_append, List.cons_append, trim_cons hmark,
        ← List.cons_append, ← List.cons_append, dropEndWhile_append_cons (by decide)]

/-- A duration is read up to its comma. -/
private theorem durationText_numeral (s : Seconds) (w : Option Words) :
    durationText (s.numeral ++ behindComma w) = s.numeral := by
  obtain ⟨hne, hplain⟩ := plain_of_readFloat s.reads
  have htake : (s.numeral ++ behindComma w).takeWhile (· ≠ ',') = s.numeral := by
    rw [List.takeWhile_append_of_pos fun c hc => by simpa using (hplain c hc).2]
    cases w with
    | none => simp [behindComma]
    | some words => simp [behindComma]
  rw [durationText, htake, trim_of_forall fun c hc => (hplain c hc).1]

-- =================================================== what entries are read as

namespace Entry

/-- A line that is not blank and is taken for what its entry means. -/
structure IsRead (e : Entry) : Prop where
  notBlank : trim e.chars ≠ []
  take_line : ∀ r : Reading, r.take (Line.ofChars (trim e.chars)) = r.note e

theorem isRead_endOfList : IsRead .endOfList := ⟨by decide, fun _ => rfl⟩

theorem isRead_remark (m : Remark) : IsRead (.remark m) := by
  obtain ⟨rest, hm⟩ := List.head?_eq_some_iff.1 m.marked
  have hprefix : trim m.chars <+: m.chars := by
    rw [hm]
    exact trim_prefix_self rfl
  have hmarked : (trim m.chars).head? = some '#' := by
    rw [hm, trim_cons rfl]
    exact congrArg List.head? (dropEndWhile_append_cons (s := []) rfl)
  have hline : Line.ofChars (trim m.chars) = .comment := by
    rw [Line.ofChars_of_foreign fun tag htag h => m.foreign tag htag (h.trans hprefix),
      if_neg m.notEnd, if_pos hmarked]
  constructor
  case notBlank =>
    show trim m.chars ≠ []
    intro hnil
    rw [hnil] at hmarked
    cases hmarked
  case take_line =>
    intro r
    show r.take (Line.ofChars (trim m.chars)) = .ok r
    rw [hline]
    rfl

/-- An address is read as it is written. -/
theorem isRead_address (a : Address) : IsRead (.address a) := by
  have hforeign : ∀ tag ∈ valueTags, ¬ tag <+: a.chars := by
    rintro tag htag ⟨rest, hrest⟩
    have hmarked : ∀ tag ∈ valueTags, (tag ++ rest).head? = some '#' := by
      simp [valueTags]
    exact a.notTag (hrest ▸ hmarked tag htag)
  have hend : a.chars ≠ endTag := fun h => a.notTag (by rw [h]; rfl)
  have hline : Line.ofChars a.chars = .address a.chars := by
    rw [Line.ofChars_of_foreign hforeign, if_neg hend, if_neg a.notTag]
  constructor
  case notBlank =>
    show trim a.chars ≠ []
    rw [a.trimmed]
    exact a.nonempty
  case take_line =>
    intro r
    show r.take (Line.ofChars (trim a.chars)) = r.take (.address a.chars)
    rw [a.trimmed, hline]

section tagged

variable {e : Entry} (tag : List Char) {solid : List Char} (htag : tag.head? = some '#')
  (hsolid : solid.all (!isBlank ·) = true) (hne : solid ≠ [])

include htag hsolid hne

/-- A tag with something solid behind it is not changed by trimming. -/
theorem isRead_of_solid (hchars : e.chars = tag ++ solid)
    (htake : ∀ r : Reading, r.take (Line.ofChars (tag ++ solid)) = r.note e) : IsRead e := by
  have htrim : trim e.chars = tag ++ solid := by
    obtain ⟨rest, rfl⟩ := List.head?_eq_some_iff.1 htag
    rw [hchars]
    exact trim_append_cons rfl hsolid hne
  constructor
  case notBlank =>
    rw [htrim]
    simp [hne]
  case take_line => exact fun r => htrim ▸ htake r

/-- What trimming takes away behind a comma does not matter to a tag that
means the same with any text there. -/
theorem isRead_of_behindComma {w : Option Words} (hchars : e.chars = tag ++ solid ++ behindComma w)
    (htake : ∀ (w : Option Words) (r : Reading),
      r.take (Line.ofChars (tag ++ solid ++ behindComma w)) = r.note e) : IsRead e := by
  obtain ⟨w', htrim⟩ := trim_tagged htag hsolid hne w
  constructor
  case notBlank =>
    rw [hchars, htrim]
    simp [hne]
  case take_line =>
    intro r
    rw [hchars, htrim]
    exact htake w' r

end tagged

theorem isRead_targetDuration (s : Seconds) : IsRead (.targetDuration s) := by
  refine isRead_of_solid "#EXT-X-TARGETDURATION:".toList rfl s.solid
    (plain_of_readFloat s.reads).1 rfl fun r => ?_
  show r.take (.targetDuration s.numeral) = _
  simp only [Reading.take, s.reads]
  rfl

theorem isRead_mediaSequence (m : Whole) : IsRead (.mediaSequence m) := by
  refine isRead_of_solid "#EXT-X-MEDIA-SEQUENCE:".toList rfl m.solid m.nonempty rfl
    fun r => ?_
  show r.take (.mediaSequence m.digits) = _
  simp only [Reading.take, m.reads]
  rfl

theorem isRead_duration (s : Seconds) (title : Option Words) : IsRead (.duration s title) := by
  refine isRead_of_behindComma "#EXTINF:".toList rfl s.solid
    (plain_of_readFloat s.reads).1 rfl fun w r => ?_
  show r.take (.duration (s.numeral ++ behindComma w)) = _
  simp only [Reading.take, durationText_numeral, s.reads]
  rfl

/-- A variant's tag is read as it is written. -/
theorem isRead_variant (v : VariantTag) : IsRead (.variant v) := by
  obtain ⟨before, m, after⟩ := v
  have hattributes : ∀ w : Option Words,
      "#EXT-X-STREAM-INF:".toList ++ VariantTag.attributes ⟨before, m, w⟩
        = "#EXT-X-STREAM-INF:".toList ++ before.flatMap (fun a => a.chars ++ [','])
          ++ "BANDWIDTH=".toList ++ m.digits ++ behindComma w := by
    intro w
    simp only [VariantTag.attributes, List.append_assoc]
  refine isRead_of_behindComma _ rfl m.solid m.nonempty (hattributes after) fun w r => ?_
  rw [← hattributes w]
  show r.take (.variant (VariantTag.attributes ⟨before, m, w⟩)) = _
  rw [Reading.take, VariantTag.bandwidthOf_attributes]
  rfl

/-- Every entry but the blank one is read as what it means. -/
theorem isRead {e : Entry} (h : e ≠ .blank) : IsRead e := by
  cases e with
  | blank => exact absurd rfl h
  | remark m => exact isRead_remark m
  | endOfList => exact isRead_endOfList
  | targetDuration s => exact isRead_targetDuration s
  | mediaSequence m => exact isRead_mediaSequence m
  | duration s title => exact isRead_duration s title
  | variant v => exact isRead_variant v
  | address a => exact isRead_address a

/-- An entry is one line. -/
private theorem oneLine (e : Entry) : '\n' ∉ e.chars := by
  intro h
  cases e with
  | blank => cases h
  | remark m => exact m.oneLine h
  | endOfList => exact absurd h (by decide)
  | targetDuration s => exact (List.mem_append.1 h).elim (by decide) s.oneLine
  | mediaSequence m => exact (List.mem_append.1 h).elim (by decide) m.oneLine
  | duration s title =>
      rcases List.mem_append.1 h with h | h
      · exact (List.mem_append.1 h).elim (by decide) s.oneLine
      · exact behindComma_oneLine title h
  | variant v => exact (List.mem_append.1 h).elim (by decide) v.oneLine
  | address a => exact a.oneLine h

end Entry

-- ============================================================ written texts

/-- The lines of a written text that count are its entries. -/
private theorem Written.contentLines_eq (h : Written text entries) :
    contentLines text = (entries.map fun e => trim e.chars).filter (· ≠ []) := by
  have hline : ∀ (e : Entry) (left right : Margin),
      trim (left.chars ++ e.chars ++ right.chars) = trim e.chars
        ∧ '\n' ∉ left.chars ++ e.chars ++ right.chars := by
    intro e left right
    refine ⟨trim_append (List.all_eq_true.1 left.blank) (List.all_eq_true.1 right.blank), ?_⟩
    simp only [List.mem_append, not_or]
    exact ⟨⟨left.oneLine, e.oneLine⟩, right.oneLine⟩
  rw [contentLines, trimmed_lines]
  induction h with
  | nil => rfl
  | last e left right =>
      obtain ⟨htrim, hfeed⟩ := hline e left right
      rw [splitOn_of_not_mem hfeed, List.map_singleton, htrim, List.map_singleton]
  | line e left right _ ih =>
      obtain ⟨htrim, hfeed⟩ := hline e left right
      rw [splitOn_append_cons hfeed, List.map_cons, htrim, List.map_cons, List.filter_cons,
        List.filter_cons, ih]

/-- To take the lines is to note the entries. -/
private theorem foldlM_take (entries : List Entry) (r : Reading) :
    (((entries.map fun e => trim e.chars).filter (· ≠ [])).map Line.ofChars).foldlM Reading.take r
      = entries.foldlM Reading.note r := by
  induction entries generalizing r with
  | nil => rfl
  | cons e rest ih =>
      by_cases hblank : e = .blank
      · subst hblank
        exact ih r
      · obtain ⟨hne, htake⟩ := Entry.isRead hblank
        rw [List.map_cons, List.filter_cons_of_pos (by simpa using hne), List.map_cons,
          List.foldlM_cons, List.foldlM_cons, htake r]
        cases r.note e with
        | error cause => rfl
        | ok r' => exact ih r'

/-- A text that is its header and some entries, with blank lines in front of
the header, is the playlist that noting the entries leads to. -/
theorem Written.parse_eq {before : List Entry}
    (h : Written text (before ++ Entry.header :: entries)) (hbefore : ∀ e ∈ before, e = .blank) :
    parse text = (entries.foldlM Reading.note {}).map Reading.toPlaylist := by
  have hblank : (before.map fun e => trim e.chars).filter (· ≠ []) = [] := by
    rw [List.filter_eq_nil_iff]
    intro line hline
    obtain ⟨e, he, rfl⟩ := List.mem_map.1 hline
    rw [hbefore e he]
    decide
  have hheader : trim Entry.header.chars = "#EXTM3U".toList := by decide
  have hlines : contentLines text
      = "#EXTM3U".toList :: (entries.map fun e => trim e.chars).filter (· ≠ []) := by
    rw [h.contentLines_eq, List.map_append, List.filter_append, hblank, List.nil_append,
      List.map_cons, hheader, List.filter_cons_of_pos (by decide)]
  unfold parse
  rw [hlines]
  dsimp only
  rw [if_pos rfl, foldlM_take]
  cases entries.foldlM Reading.note {} with
  | error cause => rfl
  | ok r => rfl

end VideoWall.Playlist
