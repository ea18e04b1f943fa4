/-
The addresses that streams are played from.

The address of a restream is read from a text that the name of the stream was
put into. So the address is that of the site and the folders of the template,
but what stands behind the folders is what the name means there: it may hold
slashes, a query, a fragment or escapes, and it may lose characters. The name
has its segment exactly when it means none of this (`IsPasteable`).

The other way round is by counting bytes. The last segment is the text behind
the last slash that is seen before a query (`resolvePath_last`), a part of the
name, and it says at most as many bytes as it has. So if it says the name, it
is the whole name and nothing in it is an escape.
-/
import VideoWall.Playback.Engine
import VideoWall.Proofs.Recorder.Endpoints
import VideoWall.Proofs.Url.Authorities

namespace VideoWall.Playback

open Text Url Recorder

variable {a : Char} {front pat new s t name authority : List Char} {folders : List (List Char)}
variable {site : Url} {fuel : Nat}

-- ================================================================== templates

/-- A front without the pattern's first letter is kept. -/
theorem replaceWithin_append (hfront : a ∉ front) (hfuel : front.length ≤ fuel) :
    replaceWithin fuel (a :: pat) new (front ++ s)
      = front ++ replaceWithin (fuel - front.length) (a :: pat) new s := by
  induction front generalizing fuel with
  | nil => rfl
  | cons c front ih =>
      rw [List.mem_cons, not_or] at hfront
      cases fuel with
      | zero => cases hfuel
      | succ fuel =>
          have hstrip : stripPrefix? (a :: pat) (c :: (front ++ s)) = none := if_neg hfront.1
          rw [List.cons_append, replaceWithin, hstrip, List.length_cons, Nat.add_sub_add_right]
          dsimp only
          rw [ih hfront.2 (Nat.le_of_succ_le_succ hfuel)]
          rfl

/-- A pattern that stands at the end alone is replaced there alone. -/
private theorem replace_last (hfront : a ∉ front) :
    replace (a :: pat) new (front ++ a :: pat) = front ++ new := by
  have hlength : (front ++ a :: pat).length - front.length = pat.length + 1 := by
    rw [List.length_append, List.length_cons]
    omega
  have hstrip : stripPrefix? (a :: pat) (a :: pat) = some [] :=
    stripPrefix?_eq_some_iff.2 (List.append_nil _).symm
  have hrest : replaceWithin pat.length (a :: pat) new [] = [] := by
    cases pat <;> rfl
  rw [replace, replaceWithin_append hfront (List.length_append ▸ Nat.le_add_right ..), hlength,
    replaceWithin, hstrip]
  dsimp only
  rw [hrest, List.append_nil]

/-- A template that names the stream behind folders of a site. -/
def templateOf (authority : List Char) (folders : List (List Char)) : String :=
  String.ofList ("rtsp://".toList ++ authority
    ++ '/' :: (folderText folders ++ Config.placeholder.toList))

/-- An authority that is read as the one of a site. -/
structure IsAuthority (authority : List Char) (site : Url) : Prop where
  undivided : Undivided authority
  oneLine : withoutBreaks authority = authority
  unbraced : '\x7b' ∉ authority
  reads : parse ("rtsp://".toList ++ authority ++ ['/']) = .ok site

/-- Nothing in front of the stream's name is taken for the place of a name. -/
private theorem unbraced_front (hauthority : '\x7b' ∉ authority)
    (hfolders : ∀ folder ∈ folders, IsFolder folder) :
    '\x7b' ∉ "rtsp://".toList ++ authority ++ '/' :: folderText folders := by
  rw [List.mem_append, List.mem_append, List.mem_cons]
  rintro ((h | h) | (h | h))
  · exact absurd h (by decide)
  · exact hauthority h
  · cases h
  · cases mem_folderText hfolders h

/-- Filling a template puts the name behind the folders, as it is. -/
private theorem fillTemplate_templateOf (hauthority : '\x7b' ∉ authority)
    (hfolders : ∀ folder ∈ folders, IsFolder folder) (stream : String) :
    (fillTemplate (templateOf authority folders) stream).toList
      = "rtsp://".toList ++ authority ++ '/' :: (folderText folders ++ stream.toList) := by
  have hsplit : ∀ rest, "rtsp://".toList ++ authority ++ '/' :: (folderText folders ++ rest)
      = "rtsp://".toList ++ authority ++ '/' :: folderText folders ++ rest := fun rest =>
    (List.append_assoc _ ('/' :: folderText folders) rest).symm
  have hplaceholder : Config.placeholder.toList = '\x7b' :: "stream\x7d".toList := by decide
  calc (fillTemplate (templateOf authority folders) stream).toList
    _ = replace Config.placeholder.toList stream.toList (templateOf authority folders).toList :=
        String.toList_ofList
    _ = replace Config.placeholder.toList stream.toList
          ("rtsp://".toList ++ authority ++ '/' :: folderText folders
            ++ Config.placeholder.toList) :=
        congrArg _ (String.toList_ofList.trans (hsplit _))
    _ = "rtsp://".toList ++ authority ++ '/' :: folderText folders ++ stream.toList := by
        rw [hplaceholder]
        exact replace_last (unbraced_front hauthority hfolders)
    _ = _ := (hsplit _).symm

-- ============================================================== what is named

/-- A name that says itself in an address: it divides nothing, nothing of it
is lost, and nothing of it is an escape. -/
structure IsPasteable (name : List Char) : Prop where
  undivided : ∀ c ∈ name, c ≠ '/' ∧ c ≠ '?' ∧ c ≠ '#'
  oneLine : ∀ c ∈ name, c ≠ '\t' ∧ c ≠ '\n' ∧ c ≠ '\r'
  closing : ∀ c ∈ name.getLast?, 0x20 < c.toNat
  unescaped : holdsEscape name = false

/-- A path leaves the escapes of a text alone. -/
private theorem pathSet_keepsEscapes : KeepsEscapes pathSet := keepsEscapes_of_ascii rfl (by decide)

/-- A part of a text that is not shorter in bytes is the text. -/
private theorem eq_of_length_encode (h : s.Sublist t)
    (hlength : (Utf8.encode t).length ≤ (Utf8.encode s).length) : s = t := by
  apply Utf8.encode_injective
  exact (h.flatMap Utf8.encodeChar).eq_of_length_le hlength

/-- Nothing is dropped at the end when the last letter stays. -/
theorem dropEndWhile_eq_self_iff {p : Char → Bool} :
    dropEndWhile p s = s ↔ ∀ c ∈ s.getLast?, p c = false := by
  rw [dropEndWhile, List.reverse_eq_iff, List.dropWhile_eq_self_iff]
  rw [← List.head?_reverse]
  cases s.reverse with
  | nil => simp
  | cons c rest => simp

/-- A text is seen as it is when it has no tabs or line ends and nothing at its
end that is stripped. -/
theorem seenAtEnd_eq_self_iff :
    seenAtEnd s = s ↔ (∀ c ∈ s, c ≠ '\t' ∧ c ≠ '\n' ∧ c ≠ '\r')
      ∧ ∀ c ∈ s.getLast?, 0x20 < c.toNat := by
  have hclosing : dropEndWhile (·.toNat ≤ 0x20) s = s ↔ ∀ c ∈ s.getLast?, 0x20 < c.toNat := by
    rw [dropEndWhile_eq_self_iff]
    simp only [decide_eq_false_iff_not, Nat.not_le]
  rw [← withoutBreaks_eq_iff, ← hclosing]
  constructor
  · intro h
    have hends : dropEndWhile (·.toNat ≤ 0x20) s = s := by
      apply (dropEndWhile_prefix_self _ s).eq_of_length_le
      rw [← congrArg List.length h]
      exact List.length_filter_le _ _
    rw [seenAtEnd, hends] at h
    exact ⟨h, hends⟩
  · rintro ⟨hbreaks, hends⟩
    rw [seenAtEnd, hends, hbreaks]

/-- A name has its segment behind the folders, with nothing after it, if it
says itself. -/
theorem named_iff (hempty : name ≠ []) (hdot : name ≠ ['.']) (hdots : name ≠ ['.', '.']) :
    ((behindFolders site folders name).query = none
      ∧ (behindFolders site folders name).fragment = none
      ∧ ∃ segment, (behindFolders site folders name).path = .segments (folders ++ [segment])
          ∧ Names segment name) ↔ IsPasteable name := by
  constructor
  · rintro ⟨-, -, segment, hpath, hnames⟩
    obtain ⟨piece, hsuffix, hfree, hlast⟩ := resolvePath_last pathSet (isSlash false) folders
      (splitTail false (seenAtEnd name)).1
    have hsegments :
        resolvePath pathSet (isSlash false) folders (splitTail false (seenAtEnd name)).1
          = folders ++ [segment] := Path.segments.inj hpath
    rw [hsegments, List.getLast?_concat, Option.some_inj, Option.some_inj] at hlast
    rcases hlast with rfl | rfl
    · exact absurd (names_nil_iff.1 hnames) hempty
    have hpathPart : (splitTail false (seenAtEnd name)).1.Sublist (seenAtEnd name) := by
      rw [splitTail_path]
      exact (List.takeWhile_prefix _).sublist
    have hbytes : decodeBytes piece = Utf8.encode name := by
      rw [← decodeBytes_encode_kept pathSet_keepsEscapes]
      exact names_iff.1 hnames
    have hlong : (Utf8.encode name).length ≤ (Utf8.encode piece).length := by
      rw [← hbytes]
      exact length_decodeBytes_le piece
    obtain rfl : piece = name :=
      eq_of_length_encode (hsuffix.sublist.trans (hpathPart.trans (seenAtEnd_sublist name))) hlong
    -- nothing of the name is lost on the way to the segment
    have hcut : (splitTail false (seenAtEnd piece)).1 = piece :=
      (hpathPart.trans (seenAtEnd_sublist piece)).antisymm hsuffix.sublist
    have hseen : seenAtEnd piece = piece :=
      (seenAtEnd_sublist piece).antisymm (hsuffix.sublist.trans hpathPart)
    rw [hseen, splitTail_path] at hcut
    obtain ⟨hlines, hclosing⟩ := seenAtEnd_eq_self_iff.1 hseen
    refine ⟨fun c hc => ⟨?_, ?_⟩, hlines, hclosing, decodeBytes_eq_encode_iff.1 hbytes⟩
    · simpa [isSlash] using hfree c hc
    · simpa using List.takeWhile_eq_self_iff.1 hcut c hc
  · rintro ⟨hundivided, hlines, hclosing, hplain⟩
    have hfree : ∀ c ∈ name, isSlash false c = false := by
      intro c hc
      rw [isSlash, decide_eq_false (hundivided c hc).1]
      rfl
    have hbytes : decodeBytes (encode pathSet name) = Utf8.encode name := by
      rw [decodeBytes_encode_kept pathSet_keepsEscapes, decodeBytes_of_not_holds hplain]
    have hone : isSingleDot (encode pathSet name) = false := by
      by_contra h
      have hdecoded := decodeBytes_of_isSingleDot (Bool.not_eq_false _ ▸ h)
      exact hdot (Utf8.encode_injective (hbytes.symm.trans hdecoded))
    have htwo : isDoubleDot (encode pathSet name) = false := by
      by_contra h
      have hdecoded := decodeBytes_of_isDoubleDot (Bool.not_eq_false _ ▸ h)
      exact hdots (Utf8.encode_injective (hbytes.symm.trans hdecoded))
    have hurl : behindFolders site folders name = { site with
        path := .segments (folders ++ [encode pathSet name]), query := none,
        fragment := none } := by
      rw [behindFolders, seenAtEnd_eq_self_iff.2 ⟨hlines, hclosing⟩,
        splitTail_plain fun c hc => (hundivided c hc).2]
      dsimp only
      rw [resolvePath_piece hfree, pushSegment_plain hone htwo]
    rw [hurl]
    exact ⟨rfl, rfl, _, rfl, names_iff.2 hbytes⟩

-- =============================================================== the theorem

/-- What a stream is played from, by engine. The restream's address is that of
the site and the folders of the template, with what the name means behind
them: it has no query and no fragment and ends in a segment of the name
exactly when the name can be pasted. The manifest has a segment of every plain
name. -/
theorem sources_name_streams (authority : List Char) (site : Url) (folders : List (List Char))
    (c : Client) (stream : String) (stamp : Int) (hauthority : IsAuthority authority site)
    (hfolders : ∀ folder ∈ folders, IsFolder folder) (hempty : stream ≠ "") (hdot : stream ≠ ".")
    (hdots : stream ≠ "..") :
    (∃ u, sourceUrl (some .restream) (some (templateOf authority folders)) c stream stamp = .ok u
      ∧ u = { site with path := u.path, query := u.query, fragment := u.fragment }
      ∧ ((u.query = none ∧ u.fragment = none
          ∧ ∃ segment, u.path = .segments (folders ++ [segment]) ∧ Names segment stream.toList)
        ↔ IsPasteable stream.toList))
      ∧ ∀ config, Client.ofConfig config = .ok c → c.folders ≠ [[]] → IsPlainName stream.toList →
          ∃ u, sourceUrl (some .segments) (some (templateOf authority folders)) c stream stamp
            = .ok u
            ∧ Continues c.folders ["hls".toList, stream.toList, "index.m3u8".toList]
              u.segments := by
  constructor
  · refine ⟨behindFolders site folders stream.toList, ?_, rfl, named_iff ?_ ?_ ?_⟩
    · have hparse : parse (fillTemplate (templateOf authority folders) stream).toList
          = .ok (behindFolders site folders stream.toList) := by
        rw [fillTemplate_templateOf hauthority.unbraced hfolders]
        exact parse_streaming hauthority.undivided hauthority.oneLine hfolders
          hauthority.reads stream.toList
      simp only [sourceUrl, hparse, Except.mapError]
    · exact fun h => hempty (String.toList_inj.1 h)
    · exact fun h => hdot (String.toList_inj.1 h)
    · exact fun h => hdots (String.toList_inj.1 h)
  · intro config hc hroot hplain
    exact ⟨_, rfl, Client.continues_manifest hc hroot hplain stamp⟩

/-- The site of `rtsp://nvr.local:8554`. -/
def nvrSite : Url where
  scheme := "rtsp".toList
  host := some (.domain "nvr.local".toList)
  port := some 8554
  path := .segments [[]]

theorem isAuthority_nvrSite : IsAuthority "nvr.local:8554".toList nvrSite where
  undivided := by
    have hall : "nvr.local:8554".toList.all (!endsAuthority true ·) = true := rfl
    simpa [Undivided] using hall
  oneLine := rfl
  unbraced := by decide
  reads := rfl

private theorem isFolder_live : IsFolder "live".toList where
  plain := by
    have hall : "live".toList.all (fun c => !pathSet c && c ≠ '/') = true := rfl
    simp only [List.all_eq_true, Bool.and_eq_true, Bool.not_eq_true', decide_eq_true_iff] at hall
    exact hall
  not_dot := rfl
  not_dots := rfl

private theorem isPasteable_frontDoor : IsPasteable "front door".toList where
  undivided := by simp
  oneLine := withoutBreaks_eq_iff.1 rfl
  closing := by
    rintro c ⟨⟩
    decide
  unescaped := rfl

/-- A name with a space has a segment behind the folder of its template. -/
theorem sources_name_streams_of_frontDoor :
    templateOf "nvr.local:8554".toList ["live".toList]
        = "rtsp://nvr.local:8554/live/\x7bstream\x7d"
      ∧ ∃ u, sourceUrl (some .restream)
          (some (templateOf "nvr.local:8554".toList ["live".toList])) Client.nvrClient
          "front door" 0 = .ok u
        ∧ u.query = none ∧ u.fragment = none
        ∧ ∃ segment, u.path = .segments ["live".toList, segment]
            ∧ Names segment "front door".toList := by
  refine ⟨rfl, ?_⟩
  obtain ⟨⟨u, hsource, -, hnamed⟩, -⟩ :=
    sources_name_streams "nvr.local:8554".toList nvrSite ["live".toList] Client.nvrClient
      "front door" 0 isAuthority_nvrSite (by rintro _ (_ | ⟨_, ⟨⟩⟩); exact isFolder_live)
      (by decide) (by decide) (by decide)
  exact ⟨u, hsource, hnamed.2 isPasteable_frontDoor⟩

/-- What stands behind a number sign in a name is taken for a fragment: the
address is that of another stream. -/
theorem numberSign_opens_fragment :
    IsAuthority "nvr.local:8554".toList nvrSite
      ∧ sourceUrl (some .restream) (some (templateOf "nvr.local:8554".toList [])) Client.nvrClient
          "Cam #1" 0
        = .ok { nvrSite with path := .segments ["Cam%20".toList], fragment := some ['1'] }
      ∧ ¬ Names "Cam%20".toList "Cam #1".toList :=
  ⟨isAuthority_nvrSite, rfl, by decide⟩

end VideoWall.Playback
