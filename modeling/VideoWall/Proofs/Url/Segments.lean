/-
Segments of a path that are added by their names.

A segment names a text if that is what it says once its escapes are decoded.
Adding a name puts one such segment behind the others, but for three kinds
of names and two kinds of paths: the names of dot segments are passed over,
tabs and line breaks are lost, what is left of a name may be a dot segment
then (`IsPlainName` is what none of this happens to), a path of one empty
segment, which is the root, gives way to the first name, and a drive letter
with a bar gets a colon where it begins the path of a file. `Takes` is what
is left: a path that gets the segment of a name.

A step adds at most one segment, and it only appends if it adds one
(`addSegment_grows`). So a path that is as much longer as there are names
still begins as it did (`foldl_addSegment_prefix`), and that is how every
segment behind it is known to be the one of its name
(`continues_foldl_iff`).
-/
import Mathlib.Data.List.Forall2
import VideoWall.Proofs.Url.Percent
import VideoWall.Url.Edit

namespace VideoWall.Url

open Text

variable {special : Bool} {scheme : List Char} {parts : List (List Char)}
variable {name segment s t : List Char} {names : List (List Char)} {c d : Char}

-- ==================================================================== names

/-- A name that a segment can be given. -/
structure IsPlainName (name : List Char) : Prop where
  not_dot : name ≠ ['.']
  not_dots : name ≠ ['.', '.']
  oneLine : ∀ c ∈ name, c ≠ '\t' ∧ c ≠ '\n' ∧ c ≠ '\r'

/-- Whether a name is a drive letter with a bar behind it. -/
def isBarredDrive : List Char → Bool
  | [c, '|'] => c.isAlpha
  | _ => false

/-- A path of a scheme that gets a segment for a name behind its others. -/
structure Takes (scheme : List Char) (parts : List (List Char)) (name : List Char) : Prop where
  plain : IsPlainName name
  belowRoot : parts ≠ [[]]
  drive : isFileScheme scheme = true → parts = [] → isBarredDrive name = false

/-- What a segment says is a name. -/
def Names (segment name : List Char) : Prop := Utf8.decode? (decodeBytes segment) = some name

instance (segment name : List Char) : Decidable (Names segment name) :=
  inferInstanceAs (Decidable (_ = _))

/-- A path goes on with one segment for each name, in order. -/
def Continues (parts names path : List (List Char)) : Prop :=
  ∃ segments, path = parts ++ segments ∧ List.Forall₂ Names segments names

/-- A segment names what it is decoded to. -/
theorem names_iff : Names segment name ↔ decodeBytes segment = Utf8.encode name :=
  Utf8.decode?_eq_some_iff

theorem names_nil_iff : Names [] name ↔ name = [] := by
  constructor
  · exact fun h => (Option.some.inj h).symm
  · rintro rfl
    rfl

/-- Percent signs are always encoded in segments. -/
theorem segmentSet_percent (special : Bool) : segmentSet special '%' = true := by
  cases special <;> rfl

/-- A name that is written with its escapes is read as it is. -/
theorem names_encode_iff {set : EncodeSet} (hset : set '%' = true) :
    Names (encode set s) name ↔ s = name := by
  rw [Names, decodeBytes_encode hset, Utf8.decode?_encode]
  exact Option.some_inj

-- ============================================================= dot segments

theorem toNat_toLower (c : Char) :
    c.toLower.toNat = if 65 ≤ c.toNat ∧ c.toNat ≤ 90 then c.toNat + 32 else c.toNat := by
  have hupper : (c.val ≥ 'A'.val ∧ c.val ≤ 'Z'.val) ↔ 65 ≤ c.toNat ∧ c.toNat ≤ 90 := Iff.rfl
  unfold Char.toLower
  by_cases h : c.val ≥ 'A'.val ∧ c.val ≤ 'Z'.val
  · have hsum : (c.val + ('a'.val - 'A'.val)).toNat = (c.toNat + 32) % 4294967296 :=
      UInt32.toNat_add _ _
    rw [dif_pos h, if_pos (hupper.1 h)]
    exact hsum.trans (Nat.mod_eq_of_lt (by have := (hupper.1 h).2; omega))
  · rw [dif_neg h, if_neg (mt hupper.2 h)]

/-- What is lower-cased to a character that is no letter is that
character. -/
theorem eq_of_toLower (hd : d.toNat < 97) (h : c.toLower = d) : c = d := by
  have hnat := toNat_toLower c
  rw [h] at hnat
  split at hnat
  case isTrue hupper => omega
  case isFalse => exact (Char.toNat_inj.1 hnat).symm

/-- Either letter is fourteen. -/
private theorem digit?_of_toLower_e (h : c.toLower = 'e') : Hex.digit? c = some 14 := by
  have hnat := toNat_toLower c
  have he : 'e'.toNat = 101 := rfl
  rw [h, he] at hnat
  split at hnat
  case isTrue hupper =>
    obtain rfl : c = 'E' := Char.toNat_inj.1 (by have : 'E'.toNat = 69 := rfl; omega)
    rfl
  case isFalse =>
    obtain rfl : 'e' = c := Char.toNat_inj.1 hnat
    rfl

/-- A dot as it stands is a dot. -/
private theorem decodeBytes_of_dot (h : s.map Char.toLower = '.' :: t) :
    ∃ rest, rest.map Char.toLower = t
      ∧ decodeBytes s = Utf8.encodeChar '.' ++ decodeBytes rest := by
  obtain ⟨c, rest, rfl, hc, hrest⟩ := List.map_eq_cons_iff.1 h
  obtain rfl := eq_of_toLower (by decide) hc
  exact ⟨rest, hrest, decodeBytes_cons (by decide)⟩

/-- An escaped dot is a dot, in whatever case its digits are written. -/
theorem decodeBytes_of_escapedDot (h : s.map Char.toLower = '%' :: '2' :: 'e' :: t) :
    ∃ rest, rest.map Char.toLower = t
      ∧ decodeBytes s = Utf8.encodeChar '.' ++ decodeBytes rest := by
  obtain ⟨p, more, rfl, hp, hmore⟩ := List.map_eq_cons_iff.1 h
  obtain ⟨a, more, rfl, ha, hmore⟩ := List.map_eq_cons_iff.1 hmore
  obtain ⟨b, rest, rfl, hb, hrest⟩ := List.map_eq_cons_iff.1 hmore
  obtain rfl := eq_of_toLower (by decide) hp
  obtain rfl := eq_of_toLower (by decide) ha
  have htwo : Hex.digit? '2' = some 2 := rfl
  refine ⟨rest, hrest, ?_⟩
  rw [decodeBytes, htwo, digit?_of_toLower_e hb]
  rfl

/-- Every spelling of a single dot is decoded to it. -/
theorem decodeBytes_of_isSingleDot (h : isSingleDot s = true) :
    decodeBytes s = Utf8.encode ['.'] := by
  rw [isSingleDot, Bool.or_eq_true, decide_eq_true_iff, decide_eq_true_iff] at h
  rcases h with rfl | h
  · rfl
  · obtain ⟨rest, hrest, hbytes⟩ := decodeBytes_of_escapedDot h
    obtain rfl := List.map_eq_nil_iff.1 hrest
    exact hbytes

/-- Every spelling of two dots is decoded to them. -/
theorem decodeBytes_of_isDoubleDot (h : isDoubleDot s = true) :
    decodeBytes s = Utf8.encode ['.', '.'] := by
  have hlast : ∀ {rest : List Char}, rest.map Char.toLower = "%2e".toList →
      decodeBytes rest = Utf8.encode ['.'] := fun {rest} hrest =>
    decodeBytes_of_isSingleDot (by rw [isSingleDot, hrest]; exact Bool.or_true _)
  have hdot : ∀ {rest : List Char}, rest.map Char.toLower = ['.'] →
      decodeBytes rest = Utf8.encode ['.'] := by
    intro rest hrest
    obtain ⟨nothing, hnothing, hbytes⟩ := decodeBytes_of_dot hrest
    obtain rfl := List.map_eq_nil_iff.1 hnothing
    exact hbytes
  simp only [isDoubleDot, Bool.or_eq_true, decide_eq_true_iff] at h
  rcases h with ((h | h) | h) | h
  · obtain ⟨rest, hrest, hbytes⟩ := decodeBytes_of_dot h
    rw [hbytes, hdot hrest]
    rfl
  · obtain ⟨rest, hrest, hbytes⟩ := decodeBytes_of_dot h
    rw [hbytes, hlast hrest]
    rfl
  · obtain ⟨rest, hrest, hbytes⟩ := decodeBytes_of_escapedDot h
    rw [hbytes, hdot hrest]
    rfl
  · obtain ⟨rest, hrest, hbytes⟩ := decodeBytes_of_escapedDot h
    rw [hbytes, hlast hrest]
    rfl

/-- A name that is no dot segment is not written as one. -/
private theorem isSingleDot_encode {set : EncodeSet} (hset : set '%' = true) (h : s ≠ ['.']) :
    isSingleDot (encode set s) = false := by
  by_contra hdot
  have hbytes := decodeBytes_of_isSingleDot (Bool.not_eq_false _ ▸ hdot)
  rw [decodeBytes_encode hset] at hbytes
  exact h (Utf8.encode_injective hbytes)

/-- Only two dots are encoded as such. -/
private theorem isDoubleDot_encode {set : EncodeSet} (hset : set '%' = true) (h : s ≠ ['.', '.']) :
    isDoubleDot (encode set s) = false := by
  by_contra hdots
  have hbytes := decodeBytes_of_isDoubleDot (Bool.not_eq_false _ ▸ hdots)
  rw [decodeBytes_encode hset] at hbytes
  exact h (Utf8.encode_injective hbytes)

-- ============================================================ drive letters

/-- A drive with a bar is a letter in front of one. -/
theorem isBarredDrive_iff : isBarredDrive s = true ↔ ∃ c, c.isAlpha = true ∧ s = [c, '|'] := by
  constructor
  · intro h
    unfold isBarredDrive at h
    split at h
    · exact ⟨_, h, rfl⟩
    · cases h
  · rintro ⟨c, hc, rfl⟩
    exact hc

/-- A letter stands for itself. -/
private theorem segmentSet_of_isAlpha (h : c.isAlpha = true) : segmentSet special c = false := by
  have hrange : (65 ≤ c.toNat ∧ c.toNat ≤ 90) ∨ (97 ≤ c.toNat ∧ c.toNat ≤ 122) := by
    obtain hupper | hlower := Bool.or_eq_true_iff.1 h
    · exact .inl (of_decide_eq_true hupper)
    · have hbounds := Bool.and_eq_true_iff.1 hlower
      exact .inr ⟨of_decide_eq_true hbounds.1, of_decide_eq_true hbounds.2⟩
  have hne : ∀ d : Char, d.isAlpha = false → c ≠ d := by
    rintro d hd rfl
    exact Bool.false_ne_true (hd.symm.trans h)
  have hcontrols : controls c = false := by
    simp only [controls, Bool.or_eq_false_iff, decide_eq_false_iff_not]
    omega
  simp [segmentSet, pathSet, fragmentSet, hcontrols, hne]

/-- A drive is a letter in front of a colon or a bar. -/
theorem isDrive_iff :
    isDrive s = true ↔ ∃ c d, s = [c, d] ∧ c.isAlpha = true ∧ (d = ':' ∨ d = '|') := by
  constructor
  · intro h
    unfold isDrive at h
    split at h
    · rw [Bool.and_eq_true, Bool.or_eq_true, decide_eq_true_iff, decide_eq_true_iff] at h
      exact ⟨_, _, rfl, h⟩
    · cases h
  · rintro ⟨c, d, rfl, hc, hd⟩
    rw [isDrive, Bool.and_eq_true, Bool.or_eq_true, decide_eq_true_iff, decide_eq_true_iff]
    exact ⟨hc, hd⟩

/-- A drive letter is written as it is. -/
theorem encode_drive (special : Bool) (hc : c.isAlpha = true) (hd : segmentSet special d = false) :
    encode (segmentSet special) [c, d] = [c, d] := by
  simp [encode, encodeChar, segmentSet_of_isAlpha hc, hd]

-- ================================================================= one name

/-- How a plain name is written. -/
abbrev written (scheme name : List Char) : List Char :=
  encode (segmentSet (isSpecialScheme scheme)) name

private theorem segmentSet_colon : segmentSet special ':' = false := by
  cases special <;> rfl

theorem segmentSet_bar : segmentSet special '|' = false := by
  cases special <;> rfl

/-- A name is written as a drive exactly when it is one. -/
theorem isBarredDrive_written (scheme name : List Char) :
    isBarredDrive (written scheme name) = isBarredDrive name := by
  rw [Bool.eq_iff_iff, isBarredDrive_iff, isBarredDrive_iff]
  refine exists_congr fun c => and_congr_right fun hc => ?_
  have hbar := encode_drive (isSpecialScheme scheme) hc segmentSet_bar
  rw [written, ← hbar, (encode_injective (segmentSet_percent _)).eq_iff, hbar]

/-- What is left of a name without tabs and line breaks. -/
abbrev withoutBreaks (name : List Char) : List Char :=
  name.filter fun c => c ≠ '\t' && c ≠ '\n' && c ≠ '\r'

theorem withoutBreaks_eq_iff :
    withoutBreaks name = name ↔ ∀ c ∈ name, c ≠ '\t' ∧ c ≠ '\n' ∧ c ≠ '\r' := by
  rw [withoutBreaks, List.filter_eq_self]
  simp [and_assoc]

/-- What is written goes behind a path, but for dot segments. -/
private theorem pushSegment_cases (parts : List (List Char)) (s : List Char) :
    (pushSegment parts s false).length ≤ parts.length
      ∨ (s ≠ [] ∧ pushSegment parts s false = parts ++ [[]])
      ∨ pushSegment parts s false = parts ++ [s] := by
  simp only [pushSegment, Bool.false_eq_true, if_false]
  by_cases htwo : isDoubleDot s = true
  · rw [if_pos htwo]
    rcases List.eq_nil_or_concat parts with rfl | ⟨front, last, rfl⟩
    · refine .inr (.inl ⟨?_, rfl⟩)
      rintro rfl
      cases htwo
    · left
      simp
  rw [if_neg htwo]
  by_cases hone : isSingleDot s = true
  · rw [if_pos hone]
    refine .inr (.inl ⟨?_, rfl⟩)
    rintro rfl
    cases hone
  · exact .inr (.inr (if_neg hone))

/-- In the path of a file a drive letter gets its colon besides. -/
theorem pushOf_cases (scheme : List Char) (parts : List (List Char)) (s : List Char) :
    (pushOf scheme parts s).length ≤ parts.length
      ∨ (s ≠ [] ∧ pushOf scheme parts s = parts ++ [[]])
      ∨ (pushOf scheme parts s = parts ++ [s]
          ∧ (isFileScheme scheme = true → parts = [] → isBarredDrive s = false))
      ∨ ∃ c, c.isAlpha = true ∧ s = [c, '|'] ∧ parts = []
          ∧ pushOf scheme parts s = [[c, ':']] := by
  unfold pushOf
  by_cases hfile : isFileScheme scheme = true
  · rw [if_pos hfile, pushFileSegment]
    by_cases hopens : parts = [] ∧ isDrive s = true
    · obtain ⟨rfl, hdrive⟩ := hopens
      rw [if_pos ⟨rfl, hdrive⟩]
      obtain ⟨c, d, rfl, hc, hd⟩ := isDrive_iff.1 hdrive
      rcases hd with rfl | rfl
      · exact .inr (.inr (.inl ⟨rfl, fun _ _ => rfl⟩))
      · exact .inr (.inr (.inr ⟨c, hc, rfl, rfl, rfl⟩))
    rw [if_neg hopens]
    have hplain : parts = [] → isBarredDrive s = false := by
      intro hparts
      rw [Bool.eq_false_iff]
      intro hbar
      obtain ⟨c, hc, rfl⟩ := isBarredDrive_iff.1 hbar
      exact hopens ⟨hparts, isDrive_iff.2 ⟨c, '|', rfl, hc, .inr rfl⟩⟩
    by_cases hdots : isDoubleDot s = true ∧ parts.getLast?.any isDrive = true
    · rw [if_pos hdots, if_neg Bool.false_ne_true]
      refine .inr (.inl ⟨?_, rfl⟩)
      rintro rfl
      cases hdots.1
    · rw [if_neg hdots]
      exact (pushSegment_cases parts s).imp_right fun h => h.imp_right fun h =>
        .inl ⟨h, fun _ => hplain⟩
  · rw [if_neg hfile]
    exact (pushSegment_cases parts s).imp_right fun h => h.imp_right fun h =>
      .inl ⟨h, fun hscheme => absurd hscheme hfile⟩

/-- A push adds one segment at most. -/
private theorem length_pushOf_le (scheme : List Char) (parts : List (List Char)) (s : List Char) :
    (pushOf scheme parts s).length ≤ parts.length + 1 := by
  rcases pushOf_cases scheme parts s with h | ⟨-, h⟩ | ⟨h, -⟩ | ⟨c, -, -, rfl, h⟩
  · exact Nat.le_succ_of_le h
  · exact Nat.le_of_eq (h ▸ List.length_append)
  · exact Nat.le_of_eq (h ▸ List.length_append)
  · exact Nat.le_of_eq (h ▸ rfl)

/-- A segment that is no dot segment goes behind a path, but for a drive
letter with a bar. -/
private theorem pushOf_plain (hone : isSingleDot s = false) (htwo : isDoubleDot s = false)
    (hdrive : isFileScheme scheme = true → parts = [] → isBarredDrive s = false) :
    pushOf scheme parts s = parts ++ [s] := by
  have hpush : pushSegment parts s false = parts ++ [s] := by
    rw [pushSegment, hone, htwo]
    rfl
  have hkept : ¬ (isDoubleDot s = true ∧ parts.getLast?.any isDrive = true) :=
    fun hdots => Bool.false_ne_true (htwo.symm.trans hdots.1)
  rw [pushOf]
  split_ifs with hfile
  · rw [pushFileSegment, if_neg hkept]
    split_ifs with hopens
    · obtain ⟨rfl, hopens⟩ := hopens
      obtain ⟨c, d, rfl, hc, hd⟩ := isDrive_iff.1 hopens
      rcases hd with rfl | rfl
      · rfl
      · cases hc.symm.trans (hdrive hfile rfl)
    · exact hpush
  · exact hpush

/-- Dots add no segment. -/
theorem addSegment_dots (h : name = ['.'] ∨ name = ['.', '.']) :
    addSegment scheme parts name = parts := by
  rw [addSegment, if_pos h]

/-- Any other name is pushed as it is written without its breaks. -/
theorem addSegment_eq (h : ¬ (name = ['.'] ∨ name = ['.', '.'])) :
    addSegment scheme parts name
      = pushOf scheme (if parts = [[]] then [] else parts) (written scheme (withoutBreaks name)) :=
  if_neg h

/-- A name that a path takes is added as it is written. -/
private theorem addSegment_plain (h : Takes scheme parts name) :
    addSegment scheme parts name = parts ++ [written scheme name] := by
  have hset := segmentSet_percent (isSpecialScheme scheme)
  rw [addSegment_eq (not_or.2 ⟨h.plain.not_dot, h.plain.not_dots⟩), if_neg h.belowRoot,
    withoutBreaks_eq_iff.2 h.plain.oneLine]
  refine pushOf_plain (isSingleDot_encode hset h.plain.not_dot)
    (isDoubleDot_encode hset h.plain.not_dots) fun hfile hparts => ?_
  rw [isBarredDrive_written]
  exact h.drive hfile hparts

/-- A name at the root is the first one of its path. -/
private theorem addSegment_root (h : ¬ (name = ['.'] ∨ name = ['.', '.'])) :
    addSegment scheme [[]] name = addSegment scheme [] name := by
  rw [addSegment_eq h, addSegment_eq h]
  rfl

/-- A step appends one segment, or the path does not get longer. -/
theorem addSegment_grows (scheme : List Char) (parts : List (List Char)) (name : List Char) :
    (addSegment scheme parts name).length ≤ parts.length
      ∨ ∃ segment, addSegment scheme parts name = parts ++ [segment]
          ∧ (Names segment name → Takes scheme parts name) := by
  have hset := segmentSet_percent (isSpecialScheme scheme)
  by_cases hdots : name = ['.'] ∨ name = ['.', '.']
  · exact .inl (Nat.le_of_eq (congrArg List.length (addSegment_dots hdots)))
  -- the root's empty segment gives way, so the path does not get longer
  by_cases hroot : parts = [[]]
  · left
    rw [addSegment_eq hdots, if_pos hroot, hroot]
    exact length_pushOf_le _ _ _
  rw [addSegment_eq hdots, if_neg hroot]
  generalize hkept : withoutBreaks name = kept
  rcases pushOf_cases scheme parts (written scheme kept) with
    hshort | ⟨hempty, happend⟩ | ⟨happend, hdrive⟩ | ⟨c, hc, hbar, rfl, happend⟩
  · exact .inl hshort
  · -- an empty segment says the empty name, of which nothing else would be left
    refine .inr ⟨[], happend, fun hnames => absurd ?_ hempty⟩
    rw [names_nil_iff.1 hnames] at hkept
    exact hkept ▸ rfl
  · refine .inr ⟨_, happend, fun hnames => ?_⟩
    obtain rfl := (names_encode_iff hset).1 hnames
    rw [not_or] at hdots
    refine ⟨⟨hdots.1, hdots.2, withoutBreaks_eq_iff.1 hkept⟩, hroot, fun hfile hparts => ?_⟩
    rw [← isBarredDrive_written scheme]
    exact hdrive hfile hparts
  · -- the colon is said by the segment, the bar by what is left of the name
    refine .inr ⟨_, happend, fun hnames => ?_⟩
    rw [← encode_drive (isSpecialScheme scheme) hc segmentSet_colon,
      names_encode_iff hset] at hnames
    rw [← encode_drive (isSpecialScheme scheme) hc segmentSet_bar] at hbar
    obtain rfl := encode_injective hset hbar
    have hmem : '|' ∈ withoutBreaks name := by
      rw [hkept]
      exact List.mem_cons_of_mem _ (List.mem_singleton_self _)
    replace hmem : '|' ∈ [c, ':'] := hnames ▸ List.mem_of_mem_filter hmem
    rcases List.mem_cons.1 hmem with rfl | hmem
    · cases hc
    · simp at hmem

-- ================================================================ many names

/-- A name adds one segment at most. -/
private theorem length_addSegment_le (scheme : List Char) (parts : List (List Char))
    (name : List Char) : (addSegment scheme parts name).length ≤ parts.length + 1 := by
  rcases addSegment_grows scheme parts name with h | ⟨segment, h, -⟩
  · exact Nat.le_succ_of_le h
  · rw [h]
    exact Nat.le_of_eq List.length_append

theorem length_foldl_addSegment_le (scheme : List Char) (names parts : List (List Char)) :
    (names.foldl (addSegment scheme) parts).length ≤ parts.length + names.length := by
  induction names generalizing parts with
  | nil => exact Nat.le_refl _
  | cons name names ih =>
      have hstep := length_addSegment_le scheme parts name
      have hrest := ih (addSegment scheme parts name)
      rw [List.foldl_cons, List.length_cons]
      omega

/-- A path that is as much longer as there are names begins as it did. -/
private theorem foldl_addSegment_prefix
    (h : (names.foldl (addSegment scheme) parts).length = parts.length + names.length) :
    parts <+: names.foldl (addSegment scheme) parts := by
  induction names generalizing parts with
  | nil => exact List.prefix_rfl
  | cons name names ih =>
      rw [List.foldl_cons, List.length_cons] at h
      have hrest := length_foldl_addSegment_le scheme names (addSegment scheme parts name)
      rcases addSegment_grows scheme parts name with hshort | ⟨segment, happend, -⟩
      · omega
      · rw [List.foldl_cons]
        rw [happend] at h ⊢
        have hprefix :
            parts ++ [segment] <+: names.foldl (addSegment scheme) (parts ++ [segment]) := by
          apply ih
          rw [h, List.length_append, List.length_singleton]
          omega
        exact (List.prefix_append parts [segment]).trans hprefix

/-- Every name gets its segment if each path on the way takes it. -/
theorem continues_foldl_iff :
    Continues parts names (names.foldl (addSegment scheme) parts) ↔
      ∀ front name rest, names = front ++ name :: rest →
        Takes scheme (parts ++ front.map (written scheme)) name := by
  induction names generalizing parts with
  | nil =>
      refine iff_of_true ⟨[], (List.append_nil parts).symm, .nil⟩ ?_
      intro front name rest h
      simp at h
  | cons name names ih =>
      rw [List.foldl_cons]
      constructor
      · rintro ⟨_, hpath, hnames⟩
        obtain ⟨segment, segments, hsegment, hsegments, rfl⟩ := List.forall₂_cons_right_iff.1 hnames
        have hlength : (names.foldl (addSegment scheme) (addSegment scheme parts name)).length
            = parts.length + 1 + names.length := by
          rw [hpath, List.length_append, List.length_cons, hsegments.length_eq]
          omega
        rcases addSegment_grows scheme parts name with hshort | ⟨added, happend, htakes⟩
        · have := length_foldl_addSegment_le scheme names (addSegment scheme parts name)
          omega
        -- the path keeps what was added, which is then the segment of this name
        rw [happend] at hlength hpath
        have hprefix : parts ++ [added] <+: parts ++ segment :: segments := by
          rw [← hpath]
          apply foldl_addSegment_prefix
          rw [hlength, List.length_append, List.length_singleton]
        obtain rfl : added = segment := by
          rw [List.prefix_append_right_inj] at hprefix
          exact (List.cons_prefix_cons.1 hprefix).1
        have hname : Takes scheme parts name := htakes hsegment
        have hadded : added = written scheme name := by
          rw [addSegment_plain hname, List.append_cancel_left_eq] at happend
          exact (List.cons.inj happend).1.symm
        have hrest : Continues (parts ++ [added]) names
            (names.foldl (addSegment scheme) (parts ++ [added])) :=
          ⟨segments, by rw [hpath, List.append_assoc]; rfl, hsegments⟩
        rintro (_ | ⟨first, front⟩) later rest hsplit
        · obtain ⟨rfl, rfl⟩ := List.cons.inj hsplit
          rwa [List.map_nil, List.append_nil]
        · obtain ⟨rfl, rfl⟩ := List.cons.inj hsplit
          have := ih.1 hrest front later rest rfl
          rwa [hadded, List.append_assoc] at this
      · intro hall
        have hname : Takes scheme parts name := by
          have := hall [] name names rfl
          rwa [List.map_nil, List.append_nil] at this
        have hbehind : ∀ front later rest, names = front ++ later :: rest →
            Takes scheme (parts ++ [written scheme name] ++ front.map (written scheme)) later := by
          intro front later rest hsplit
          have := hall (name :: front) later rest (by rw [hsplit]; rfl)
          rwa [List.map_cons, List.append_cons] at this
        rw [addSegment_plain hname]
        obtain ⟨segments, hpath, hsegments⟩ := ih.2 hbehind
        refine ⟨written scheme name :: segments, by rw [hpath, List.append_assoc]; rfl, ?_⟩
        exact .cons ((names_encode_iff (segmentSet_percent _)).2 rfl) hsegments

/-- At the root, what the first name is added to does not matter. -/
theorem continues_foldl_root (hne : names ≠ []) :
    Continues [] names (names.foldl (addSegment scheme) [[]]) ↔
      Continues [] names (names.foldl (addSegment scheme) []) := by
  by_cases hall : ∀ name ∈ names, name = ['.'] ∨ name = ['.', '.']
  · -- nothing is added to either path, but there are names
    have hkept : ∀ parts, names.foldl (addSegment scheme) parts = parts := by
      intro parts
      clear hne
      induction names with
      | nil => rfl
      | cons name names ih =>
          obtain ⟨hname, hnames⟩ := List.forall_mem_cons.1 hall
          rw [List.foldl_cons, addSegment_dots hname, ih hnames]
    rw [hkept, hkept]
    refine iff_of_false ?_ ?_
    · rintro ⟨segments, hpath, hnames⟩
      rw [List.nil_append] at hpath
      subst hpath
      obtain ⟨name, rest, hname, -, rfl⟩ := List.forall₂_cons_left_iff.1 hnames
      rw [names_nil_iff] at hname
      subst hname
      rcases hall [] (List.mem_cons_self ..) with h | h <;> cases h
    · rintro ⟨segments, hpath, hnames⟩
      rw [List.nil_append] at hpath
      subst hpath
      exact hne (List.forall₂_nil_left_iff.1 hnames)
  -- the first name that is added takes the root's place, and from there the paths are
  -- one
  · have hsame : names.foldl (addSegment scheme) [[]] = names.foldl (addSegment scheme) [] := by
      clear hne
      induction names with
      | nil => exact absurd (by simp) hall
      | cons name names ih =>
          by_cases hname : name = ['.'] ∨ name = ['.', '.']
          · rw [List.foldl_cons, List.foldl_cons, addSegment_dots hname, addSegment_dots hname]
            exact ih fun h => hall (List.forall_mem_cons.2 ⟨hname, h⟩)
          · rw [List.foldl_cons, List.foldl_cons, addSegment_root hname]
    rw [hsame]

/-- Segments tell their names. -/
theorem Continues.unique {others path : List (List Char)} (h : Continues parts names path)
    (h' : Continues parts others path) : names = others := by
  obtain ⟨segments, rfl, hnames⟩ := h
  obtain ⟨segments', hpath, hothers⟩ := h'
  obtain rfl := List.append_cancel_left hpath
  clear hpath
  induction hnames generalizing others with
  | nil => exact (List.forall₂_nil_left_iff.1 hothers).symm
  | cons hname hnames ih =>
      obtain ⟨other, rest, hother, hrest, rfl⟩ := List.forall₂_cons_left_iff.1 hothers
      rw [Names] at hname hother
      rw [ih hrest, Option.some.inj (hname.symm.trans hother)]

end VideoWall.Url
