/-
Addresses below the base address of a recorder.

The base address of a client ends in a slash, whatever was configured: its
path is that of some folders with an empty segment behind them. An endpoint
is named by a list of names and has the path of the folders with one segment
for each name, and no two lists have the same endpoint, as long as the list
is `Addressable`; and it has such a path of no other list.

What is not addressable is given to another endpoint: the names of dot
segments are left out, tabs and line breaks are lost, names behind an empty
one at the root take its place, and at the root of a file system a drive
letter gets a colon for its bar.
-/
import VideoWall.Proofs.Url.Segments
import VideoWall.Recorder.Client

namespace VideoWall.Recorder.Client

open Url

variable {config : Config} {c : Client} {u : Url} {names others : List String}

-- =============================================================== addresses

/-- The folders that the base path names. -/
def folders (c : Client) : List (List Char) := c.base.segments.dropLast

/-- Names that an endpoint of a client can have: each of them can be given a
segment, no name comes behind a single empty segment, which would be the root,
and a drive letter at the root of a file system has its colon. -/
structure Addressable (c : Client) (names : List String) : Prop where
  plain : ∀ name ∈ names, IsPlainName name.toList
  belowRoot : c.folders ≠ [[]]
  opening : c.folders = [] → ∀ rest, names = "" :: rest → rest = []
  drive : isFileScheme c.base.scheme = true → c.folders = [] →
    ∀ name rest, names = name :: rest → isBarredDrive name.toList = false

/-- The base address of a client has a path that ends in a slash. -/
theorem path_base (hc : ofConfig config = .ok c) :
    c.base.path = .segments (c.folders ++ [[]]) := by
  obtain ⟨base, hbase, rfl⟩ : ∃ base, baseOf config.server = .ok base
      ∧ (⟨base, loginOf config, config.timeoutInForce⟩ : Client) = c := by
    rw [ofConfig] at hc
    cases hbase : baseOf config.server with
    | error f => rw [hbase] at hc; cases hc
    | ok base => rw [hbase] at hc; exact ⟨base, rfl, Except.ok.inj hc⟩
  have hends : ∃ front, base.path = .segments (front ++ [[]]) := by
    unfold baseOf at hbase
    split at hbase
    case h_1 e he => cases hbase
    case h_2 u hu =>
      split at hbase
      case isTrue hopen => cases hbase
      case isFalse hopen =>
        obtain rfl := Except.ok.inj hbase
        unfold withTrailingSlash
        cases hpath : u.path with
        | opaqueText text => exact absurd (by rw [isOpaque, hpath]) hopen
        | segments parts =>
            dsimp only
            by_cases hlast : parts.getLast? = some []
            · obtain ⟨front, rfl⟩ := List.getLast?_eq_some_iff.1 hlast
              exact ⟨front, by rw [if_pos hlast, hpath]⟩
            · exact ⟨parts, by rw [if_neg hlast]⟩
  obtain ⟨front, hfront⟩ := hends
  simp only [folders, Url.segments, hfront, List.dropLast_concat]

/-- An endpoint is the base with the names added as segments. -/
theorem endpoint_eq (hc : ofConfig config = .ok c) (names : List String) :
    c.endpoint names = { c.base with
      path := .segments ((names.map String.toList).foldl (addSegment c.base.scheme)
        (if c.folders = [] then [[]] else c.folders)) } := by
  have hpath := path_base hc
  have hpopped : c.base.popEmptySegment
      = { c.base with path := .segments (if c.folders = [] then [[]] else c.folders) } := by
    unfold popEmptySegment
    rw [hpath]
    dsimp only
    by_cases hroot : c.folders = []
    · rw [hroot, if_neg (by simp), if_pos rfl]
      have : c.base = { c.base with path := c.base.path } := rfl
      rw [hpath, hroot] at this
      exact this
    · have hlong : 2 ≤ (c.folders ++ [[]]).length := by
        have := List.length_pos_iff.2 hroot
        rw [List.length_append, List.length_singleton]
        omega
      rw [if_pos ⟨hlong, List.getLast?_concat⟩, if_neg hroot, List.dropLast_concat]
  rw [endpoint, hpopped]
  rfl

/-- Which names are addressable, as the path that goes on with them sees
it. -/
theorem addressable_iff (hne : names ≠ []) :
    c.Addressable names ↔
      ∀ front name rest, names.map String.toList = front ++ name :: rest →
        Takes c.base.scheme (c.folders ++ front.map (written c.base.scheme)) name := by
  -- only the empty name is written as an empty segment
  have hnothing : ∀ name : String, written c.base.scheme name.toList = [] ↔ name = "" := by
    intro name
    rw [← String.toList_inj]
    exact (encode_injective (segmentSet_percent _)).eq_iff (b := [])
  constructor
  · intro h front name rest hsplit
    obtain ⟨before, after, rfl, rfl, hafter⟩ := List.map_eq_append_iff.1 hsplit
    obtain ⟨last, others, rfl, rfl, -⟩ := List.map_eq_cons_iff.1 hafter
    refine ⟨h.plain last (List.mem_append_right _ List.mem_cons_self), fun hempty => ?_,
      fun hfile hempty => ?_⟩
    -- the path is one empty segment: it is the base's, or the first name's
    · rcases List.append_eq_singleton_iff.1 hempty with ⟨hroot, hfront⟩ | ⟨hroot, -⟩
      · obtain ⟨first, more, hmore, hfirst, hrest⟩ := List.map_eq_cons_iff.1 hfront
        obtain ⟨text, texts, rfl, rfl, rfl⟩ := List.map_eq_cons_iff.1 hmore
        rw [List.map_eq_nil_iff, List.map_eq_nil_iff] at hrest
        subst hrest
        rw [hnothing] at hfirst
        subst hfirst
        cases h.opening hroot (last :: others) rfl
      · exact h.belowRoot hroot
    · obtain ⟨hroot, hfront⟩ := List.append_eq_nil_iff.1 hempty
      rw [List.map_eq_nil_iff, List.map_eq_nil_iff] at hfront
      subst hfront
      exact h.drive hfile hroot last others rfl
  · intro h
    -- conversely each condition is that of one name, most of them of the first
    obtain ⟨first, more, rfl⟩ := List.exists_cons_of_ne_nil hne
    have hfirst : Takes c.base.scheme c.folders first.toList := by
      have := h [] first.toList (more.map String.toList) rfl
      rwa [List.map_nil, List.append_nil] at this
    refine ⟨fun name hname => ?_, hfirst.belowRoot, fun hroot rest hsplit => ?_,
      fun hfile hroot name rest hsplit => ?_⟩
    · obtain ⟨before, after, hsplit⟩ := List.append_of_mem hname
      exact (h (before.map String.toList) name.toList (after.map String.toList)
        (by rw [hsplit, List.map_append, List.map_cons])).plain
    · obtain ⟨rfl, rfl⟩ := List.cons.inj hsplit
      cases more with
      | nil => rfl
      | cons next more =>
          refine absurd ?_ (h [[]] next.toList (more.map String.toList) rfl).belowRoot
          rw [hroot]
          rfl
    · obtain ⟨rfl, rfl⟩ := List.cons.inj hsplit
      exact hfirst.drive hfile hroot

/-- The path of an endpoint goes on behind the folders with the names if they
are addressable. -/
theorem continues_endpoint_iff (hc : ofConfig config = .ok c) (hne : names ≠ []) :
    Continues c.folders (names.map String.toList) (c.endpoint names).segments ↔
      c.Addressable names := by
  have hmap : names.map String.toList ≠ [] := by simpa using hne
  rw [addressable_iff hne, ← continues_foldl_iff, endpoint_eq hc]
  by_cases hroot : c.folders = []
  · rw [if_pos hroot, hroot]
    exact continues_foldl_root hmap
  · rw [if_neg hroot]
    rfl

private theorem segments_addPair (u : Url) (key value : List Char) :
    (u.addPair key value).segments = u.segments := by
  rw [addPair]
  split <;> rfl

/-- The manifest of a stream with a plain name has a segment of the name. -/
theorem continues_manifest (hc : ofConfig config = .ok c) (hroot : c.folders ≠ [[]])
    {stream : String} (hstream : IsPlainName stream.toList) (stamp : Int) :
    Continues c.folders ["hls".toList, stream.toList, "index.m3u8".toList]
      (c.manifest stream stamp).segments := by
  have haddressable : c.Addressable ["hls", stream, "index.m3u8"] := by
    refine ⟨fun name hname => ?_, hroot, fun _ rest h => absurd (List.cons.inj h).1 (by decide),
      fun _ _ name rest h => (List.cons.inj h).1 ▸ rfl⟩
    rcases List.mem_cons.1 hname with rfl | hname
    · exact ⟨by decide, by decide, withoutBreaks_eq_iff.1 rfl⟩
    rcases List.mem_cons.1 hname with rfl | hname
    · exact hstream
    · obtain rfl := List.mem_singleton.1 hname
      exact ⟨by decide, by decide, withoutBreaks_eq_iff.1 rfl⟩
  rw [manifest, segments_addPair]
  exact (continues_endpoint_iff hc (by simp)).2 haddressable

-- ============================================================== the theorem

/-- The base path ends in a slash. An endpoint differs from the base address
in its path alone, which is that of the folders with one segment for each
name, read back as that name, exactly when the names are addressable; and
addressable names that differ have endpoints that differ. -/
theorem segments_kept (config : Config) (c : Client) (hc : ofConfig config = .ok c) :
    c.base.path = .segments (c.folders ++ [[]])
      ∧ (∀ names : List String, names ≠ [] →
          (∃ path, c.endpoint names = { c.base with path := .segments path })
            ∧ (Continues c.folders (names.map String.toList) (c.endpoint names).segments ↔
                c.Addressable names))
      ∧ ∀ names others : List String, names ≠ [] → others ≠ [] →
          c.Addressable names → c.Addressable others →
          c.endpoint names = c.endpoint others → names = others := by
  refine ⟨path_base hc, fun names hne => ⟨⟨_, endpoint_eq hc names⟩,
    continues_endpoint_iff hc hne⟩, ?_⟩
  intro names others hne hne' hnames hothers hsame
  have hcontinues := (continues_endpoint_iff hc hne).2 hnames
  have hcontinues' := (continues_endpoint_iff hc hne').2 hothers
  rw [← hsame] at hcontinues'
  exact List.map_injective_iff.2 (fun _ _ h => String.toList_inj.1 h)
    (hcontinues.unique hcontinues')

/-- The client of a recorder at `http://nvr.local/nvr`. -/
def nvrClient : Client where
  base :=
    { scheme := "http".toList, host := some (.domain "nvr.local".toList),
      path := .segments ["nvr".toList, []] }
  login := none

private theorem addressable_frontDoor :
    nvrClient.Addressable ["hls", "front/door #1", "index.m3u8"] where
  plain := by
    intro name hname
    rcases List.mem_cons.1 hname with rfl | hname
    · exact ⟨by decide, by decide, withoutBreaks_eq_iff.1 rfl⟩
    rcases List.mem_cons.1 hname with rfl | hname
    · exact ⟨by decide, by decide, withoutBreaks_eq_iff.1 rfl⟩
    · obtain rfl := List.mem_singleton.1 hname
      exact ⟨by decide, by decide, withoutBreaks_eq_iff.1 rfl⟩
  belowRoot := by decide
  opening := fun h => absurd h (by decide)
  drive := fun h => absurd h (by decide)

/-- A name with a slash, a space and a number sign has a segment of its
own. -/
theorem segments_kept_of_frontDoor :
    ofConfig { server := "http://nvr.local/nvr" } = .ok nvrClient
      ∧ Continues ["nvr".toList] (["hls", "front/door #1", "index.m3u8"].map String.toList)
          (nvrClient.endpoint ["hls", "front/door #1", "index.m3u8"]).segments :=
  ⟨rfl, ((segments_kept { server := "http://nvr.local/nvr" } nvrClient rfl).2.1
    ["hls", "front/door #1", "index.m3u8"] (by decide)).2.2 addressable_frontDoor⟩

/-- A tab in a name is lost, so that two names have the same endpoint, and a
name of two dots is left out, so that its endpoint is that of other names
altogether. -/
theorem tab_and_dots_lost :
    ofConfig { server := "http://nvr.local/nvr" } = .ok nvrClient
      ∧ ¬ Continues ["nvr".toList] (["api", "streams", "a\tb"].map String.toList)
          (nvrClient.endpoint ["api", "streams", "a\tb"]).segments
      ∧ nvrClient.endpoint ["api", "streams", "a\tb"] = nvrClient.endpoint ["api", "streams", "ab"]
      ∧ nvrClient.endpoint ["hls", "..", "index.m3u8"]
          = nvrClient.endpoint ["hls", "index.m3u8"] := by
  refine ⟨rfl, ?_, by decide, by decide⟩
  rintro ⟨segments, hpath, hnames⟩
  have hshown : (nvrClient.endpoint ["api", "streams", "a\tb"]).segments
      = ["nvr".toList] ++ ["api".toList, "streams".toList, "ab".toList] := by decide
  rw [hshown] at hpath
  obtain rfl := List.append_cancel_left hpath
  have hthird := hnames.get (i := 2) (by decide) (by decide)
  exact absurd hthird (by decide)

end VideoWall.Recorder.Client
