/-
Addresses whose text goes on behind the authority.

None of the readers of an authority looks past the slash behind it: what it
reads is the same for every text that follows (`afterSlashes_slash`). So an
address with a slash behind its authority is that site, whatever is put
behind the slash, with the path, the query and the fragment that the text
behind it says (`parse_streaming`).

The path in turn is read folder by folder (`resolvePath_folders`), and its
last segment is what stands behind the last slash (`resolvePath_last`).
-/
import Mathlib.Data.List.Flatten
import VideoWall.Proofs.Text.Lines
import VideoWall.Proofs.Url.Segments

namespace VideoWall.Url

open Text

variable {special : Bool} {scheme authority host digits s front piece : List Char} {c d : Char}
variable {set : EncodeSet} {slash : Char → Bool} {path folders : List (List Char)} {site : Url}

-- ================================================================ authorities

/-- A text without anything that ends an authority. -/
def Undivided (s : List Char) : Prop := ∀ c ∈ s, endsAuthority true c = false

theorem Undivided.of_cons (h : Undivided (c :: s)) : Undivided s := fun d hd =>
  h d (List.mem_cons_of_mem c hd)

/-- What ends no authority of a special address ends none. -/
theorem endsAuthority_of_special (h : endsAuthority true c = false) (special : Bool) :
    endsAuthority special c = false := by
  cases special with
  | true => exact h
  | false =>
      rw [endsAuthority, Bool.or_eq_false_iff] at h
      rw [endsAuthority, h.1]
      rfl

theorem endsAuthority_slash (special : Bool) : endsAuthority special '/' = true := by
  cases special <;> rfl

/-- An undivided authority is taken up to its slash. -/
private theorem Undivided.takeWhile (h : Undivided s) (special : Bool) (tail : List Char) :
    (s ++ '/' :: tail).takeWhile (!endsAuthority special ·) = s := by
  rw [List.takeWhile_append_of_pos, List.takeWhile_cons_of_neg, List.append_nil]
  · rw [endsAuthority_slash]
    exact Bool.false_ne_true
  · intro c hc
    rw [endsAuthority_of_special (h c hc)]
    rfl

/-- An undivided authority is dropped up to its slash. -/
private theorem Undivided.dropWhile (h : Undivided s) (special : Bool) (tail : List Char) :
    (s ++ '/' :: tail).dropWhile (!endsAuthority special ·) = '/' :: tail := by
  rw [List.dropWhile_append_of_pos, List.dropWhile_cons_of_neg]
  · rw [endsAuthority_slash]
    exact Bool.false_ne_true
  · intro c hc
    rw [endsAuthority_of_special (h c hc)]
    rfl

/-- What is behind the slash does not bear on the login. -/
private theorem splitUserinfo_slash (special : Bool) (h : Undivided authority) :
    ∃ info host, Undivided host
      ∧ ∀ tail, splitUserinfo special (authority ++ '/' :: tail) = (info, host ++ '/' :: tail) := by
  cases hcut : splitOnce? '@' authority.reverse with
  | none =>
      refine ⟨none, authority, h, fun tail => ?_⟩
      rw [splitUserinfo, h.takeWhile, hcut]
  | some parts =>
      obtain ⟨host, info⟩ := parts
      refine ⟨some info.reverse, host.reverse, fun c hc => h c ?_, fun tail => ?_⟩
      · rw [← List.mem_reverse, eq_append_of_splitOnce? hcut]
        exact List.mem_append_left _ (List.mem_reverse.1 hc)
      · rw [splitUserinfo, h.takeWhile, h.dropWhile, hcut]

/-- A host ends at a colon or at the slash. -/
private theorem splitHost_slash (special inBrackets : Bool) (h : Undivided host) :
    ∃ name after, Undivided after ∧ (after = [] ∨ ∃ digits, after = ':' :: digits)
      ∧ ∀ tail, splitHost special inBrackets (host ++ '/' :: tail)
        = (name, after ++ '/' :: tail) := by
  induction host generalizing inBrackets with
  | nil =>
      refine ⟨[], [], h, .inl rfl, fun tail => ?_⟩
      rw [List.nil_append, splitHost, endsAuthority_slash]
      rfl
  | cons c host ih =>
      have hc : endsAuthority special c = false :=
        endsAuthority_of_special (h c (List.mem_cons_self ..)) special
      by_cases hcolon : c = ':' ∧ inBrackets = false
      · obtain ⟨rfl, rfl⟩ := hcolon
        refine ⟨[], ':' :: host, h, .inr ⟨host, rfl⟩, fun tail => ?_⟩
        rw [List.cons_append, splitHost]
        exact if_pos (by simp)
      · obtain ⟨name, after, hafter, hends, hsplit⟩ :=
          ih (if c = '[' then true else if c = ']' then false else inBrackets) h.of_cons
        refine ⟨c :: name, after, hafter, hends, fun tail => ?_⟩
        rw [List.cons_append, splitHost, if_neg (by simpa [hc] using hcolon)]
        dsimp only
        rw [hsplit]

/-- What is behind the slash does not bear on the port. -/
private theorem readPort_slash (acc : Option Nat) (h : Undivided digits) :
    ∃ read : Except ParseError (Option Nat),
      ∀ tail, readPort acc (digits ++ '/' :: tail) = read.map (·, '/' :: tail) := by
  induction digits generalizing acc with
  | nil => exact ⟨.ok acc, fun tail => rfl⟩
  | cons c digits ih =>
      have hc := h c (List.mem_cons_self ..)
      simp only [endsAuthority, Bool.or_eq_false_iff, Bool.true_and, decide_eq_false_iff_not] at hc
      obtain ⟨⟨⟨hslash, hquestion⟩, hnumber⟩, hback⟩ := hc
      cases hdigit : Numeral.digit? c with
      | none =>
          refine ⟨.error .invalidPort, fun tail => ?_⟩
          rw [List.cons_append, readPort, hdigit]
          exact if_neg (by simp [hslash, hquestion, hnumber, hback])
      | some d =>
          by_cases hlarge : acc.getD 0 * 10 + d > 65535
          · refine ⟨.error .invalidPort, fun tail => ?_⟩
            rw [List.cons_append, readPort, hdigit]
            exact if_pos hlarge
          · obtain ⟨read, hread⟩ := ih (some (acc.getD 0 * 10 + d)) h.of_cons
            refine ⟨read, fun tail => ?_⟩
            rw [List.cons_append, readPort, hdigit]
            exact (if_neg hlarge).trans (hread tail)

/-- A port is read behind a colon, if there is one. -/
private theorem portAfter_slash (scheme : List Char) (h : Undivided s)
    (hends : s = [] ∨ ∃ digits, s = ':' :: digits) :
    ∃ read : Except ParseError (Option Nat),
      ∀ tail, portAfter scheme (s ++ '/' :: tail) = read.map (·, '/' :: tail) := by
  rcases hends with rfl | ⟨digits, rfl⟩
  · exact ⟨.ok none, fun tail => rfl⟩
  obtain ⟨read, hread⟩ := readPort_slash none h.of_cons
  cases read with
  | error e =>
      refine ⟨.error e, fun tail => ?_⟩
      rw [List.cons_append, portAfter, hread]
      rfl
  | ok port =>
      refine ⟨.ok (if port = defaultPort? scheme then none else port), fun tail => ?_⟩
      rw [List.cons_append, portAfter, hread]
      rfl

theorem hostAndPort_eq {name rest : List Char}
    (hsplit : splitHost (isSpecialScheme scheme) false s = (name, rest)) :
    hostAndPort scheme s =
      if isSpecialScheme scheme && name = [] then .error .emptyHost
      else
        (if isSpecialScheme scheme then webHost name else opaqueHost name).bind fun host =>
          if host = .domain [] ∧ rest.head? = some ':' then .error .emptyHost
          else (portAfter scheme rest).map fun (port, rest) => (host, port, rest) := by
  rw [hostAndPort, hsplit]
  dsimp only
  by_cases hempty : (isSpecialScheme scheme && name = []) = true
  · rw [if_pos hempty, if_pos hempty]
    rfl
  rw [if_neg hempty, if_neg hempty]
  split_ifs with hspecial
  all_goals
    apply bind_congr
    intro host
    by_cases hnoHost : host = .domain [] ∧ rest.head? = some ':'
    · rw [if_pos hnoHost, if_pos hnoHost]
      rfl
    · rw [if_neg hnoHost, if_neg hnoHost]
      cases portAfter scheme rest <;> rfl

/-- What is behind the slash does not bear on the host. -/
private theorem hostAndPort_slash (scheme : List Char) (h : Undivided host) :
    ∃ read : Except ParseError (Host × Option Nat),
      ∀ tail, hostAndPort scheme (host ++ '/' :: tail)
        = read.map fun (host, port) => (host, port, '/' :: tail) := by
  obtain ⟨name, after, hafter, hends, hsplit⟩ :=
    splitHost_slash (isSpecialScheme scheme) false h
  obtain ⟨port, hport⟩ := portAfter_slash scheme hafter hends
  have hcolon : ∀ tail, (after ++ '/' :: tail).head? = some ':' ↔ after ≠ [] := by
    intro tail
    rcases hends with rfl | ⟨digits, rfl⟩ <;> simp
  simp only [hostAndPort_eq (hsplit _), hport, hcolon]
  by_cases hempty : (isSpecialScheme scheme && name = []) = true
  · exact ⟨.error .emptyHost, fun tail => if_pos hempty⟩
  cases hhost : (if isSpecialScheme scheme then webHost name else opaqueHost name) with
  | error e => exact ⟨.error e, fun tail => if_neg hempty⟩
  | ok host =>
      by_cases hnoHost : host = .domain [] ∧ after ≠ []
      · exact ⟨.error .emptyHost, fun tail => (if_neg hempty).trans (if_pos hnoHost)⟩
      · refine ⟨port.map (host, ·), fun tail => ?_⟩
        refine (if_neg hempty).trans ((if_neg hnoHost).trans ?_)
        cases port <;> rfl

-- ================================================================ whole addresses

/-- The address of a site with what a text behind its authority says. -/
def withTail (special : Bool) (site : Url) (s : List Char) : Url :=
  let (path, query, fragment) := splitTail special s
  { site with path := .segments (pathAfterHost special path), query, fragment }

/-- An address is its site with what stands behind its authority. -/
private theorem afterSlashes_slash (scheme : List Char) (h : Undivided authority) :
    ∃ read : Except ParseError Url,
      ∀ tail, afterSlashes scheme (authority ++ '/' :: tail)
        = read.map (withTail (isSpecialScheme scheme) · ('/' :: tail)) := by
  obtain ⟨info, host, hhost, hsplit⟩ := splitUserinfo_slash (isSpecialScheme scheme) h
  obtain ⟨read, hread⟩ := hostAndPort_slash scheme hhost
  -- what is behind the slash does not bear on whether the host is empty
  have hends : ∀ tail,
      (host ++ '/' :: tail).head?.any (endsAuthority (isSpecialScheme scheme)) = true
        ↔ host = [] := by
    intro tail
    cases host with
    | nil => simp [endsAuthority_slash]
    | cons c host => simp [endsAuthority_of_special (hhost c (List.mem_cons_self ..))]
  by_cases hempty : info = some [] ∧ host = []
  -- each branch gives what is read, and then shows that every tail comes to it
  · refine ⟨.error .emptyHost, fun tail => ?_⟩
    rw [afterSlashes, hsplit]
    dsimp only
    rw [if_pos (by rwa [hends])]
    rfl
  cases read with
  | error e =>
      refine ⟨.error e, fun tail => ?_⟩
      rw [afterSlashes, hsplit]
      dsimp only
      rw [if_neg (by rwa [hends]), hread]
      rfl
  | ok found =>
      obtain ⟨name, port⟩ := found
      rcases hlogin : userinfo (info.getD []) with ⟨username, password⟩
      by_cases hnoHost : name = .domain [] ∧ (username ≠ [] ∨ password ≠ [])
      · refine ⟨.error .emptyHost, fun tail => ?_⟩
        rw [afterSlashes, hsplit]
        dsimp only
        rw [if_neg (by rwa [hends]), hread, hlogin]
        exact if_pos hnoHost
      · refine ⟨.ok { scheme, username, password, host := some name, port }, fun tail => ?_⟩
        rw [afterSlashes, hsplit]
        dsimp only
        rw [if_neg (by rwa [hends]), hread, hlogin]
        exact if_neg hnoHost

private theorem withTail_withTail (special : Bool) (site : Url) (s t : List Char) :
    withTail special (withTail special site s) t = withTail special site t := rfl

/-- An address is its site with the tail put on. -/
private theorem afterSlashes_of_site (h : Undivided authority)
    (hsite : afterSlashes scheme (authority ++ ['/']) = .ok site) (tail : List Char) :
    afterSlashes scheme (authority ++ '/' :: tail)
      = .ok (withTail (isSpecialScheme scheme) site ('/' :: tail)) := by
  obtain ⟨read, hread⟩ := afterSlashes_slash scheme h
  rw [hread []] at hsite
  cases read with
  | error e => cases hsite
  | ok bare =>
      obtain rfl : withTail (isSpecialScheme scheme) bare ['/'] = site := Except.ok.inj hsite
      rw [hread, withTail_withTail]
      rfl

/-- What is read of the end of an address: control characters and spaces
behind it do not count, and tabs and line breaks nowhere. -/
def seenAtEnd (s : List Char) : List Char := withoutBreaks (dropEndWhile (·.toNat ≤ 0x20) s)

theorem dropEndWhile_prefix_self (p : Char → Bool) (s : List Char) : dropEndWhile p s <+: s := by
  rw [dropEndWhile, ← List.reverse_suffix, List.reverse_reverse]
  exact List.dropWhile_suffix p

/-- What is seen of a text is part of it. -/
theorem seenAtEnd_sublist (s : List Char) : (seenAtEnd s).Sublist s :=
  List.filter_sublist.trans (dropEndWhile_prefix_self _ s).sublist

/-- The front of an address is kept when it is cleaned. -/
theorem clean_append (hc : 0x20 < c.toNat) (hfront : withoutBreaks (c :: front) = c :: front)
    (s : List Char) : clean (c :: front ++ '/' :: s) = c :: front ++ '/' :: seenAtEnd s := by
  have hfirst : (c :: (front ++ '/' :: s)).dropWhile (fun d => decide (d.toNat ≤ 0x20))
      = c :: (front ++ '/' :: s) := List.dropWhile_cons_of_neg (by simpa using hc)
  rw [clean, List.cons_append, hfirst, ← List.cons_append, dropEndWhile_append_cons rfl,
    List.filter_append]
  exact congrArg (· ++ '/' :: seenAtEnd s) hfront

-- ==================================================================== folders

/-- Folders as they are written, each with a slash behind it. -/
def folderText (folders : List (List Char)) : List Char := folders.flatMap (· ++ ['/'])

/-- A folder that is read as it is written. -/
structure IsFolder (folder : List Char) : Prop where
  plain : ∀ c ∈ folder, pathSet c = false ∧ c ≠ '/'
  not_dot : isSingleDot folder = false
  not_dots : isDoubleDot folder = false

/-- The slashes between folders can be taken for those before them. -/
private theorem cons_folderText (folders : List (List Char)) (s : List Char) :
    '/' :: (folderText folders ++ s) = folders.flatMap ('/' :: ·) ++ '/' :: s := by
  induction folders with
  | nil => rfl
  | cons folder folders ih =>
      rw [List.flatMap_cons, List.append_assoc, ← ih]
      simp [folderText]

/-- What can stand in a path stands for itself. -/
private theorem encode_of_plain (h : ∀ c ∈ s, set c = false) : encode set s = s := by
  induction s with
  | nil => rfl
  | cons c s ih =>
      rw [List.forall_mem_cons] at h
      rw [encode_cons, ih h.2, encodeChar, h.1]
      rfl

/-- A slash ends a segment. -/
theorem splitSegments_append (hpiece : ∀ d ∈ piece, slash d = false) (hc : slash c = true) :
    splitSegments slash (piece ++ c :: s) = (piece, true) :: splitSegments slash s := by
  induction piece with
  | nil => exact if_pos hc
  | cons d piece ih =>
      rw [List.forall_mem_cons] at hpiece
      rw [List.cons_append, splitSegments, hpiece.1, if_neg Bool.false_ne_true, ih hpiece.2]

/-- The last piece of a path stands behind its last slash. -/
private theorem splitSegments_last (slash : Char → Bool) (s : List Char) :
    ∃ before piece, splitSegments slash s = before ++ [(piece, false)]
      ∧ piece <:+ s ∧ (before = [] → piece = s) ∧ ∀ c ∈ piece, slash c = false := by
  induction s with
  | nil => exact ⟨[], [], rfl, List.suffix_rfl, fun _ => rfl, by simp⟩
  | cons c s ih =>
      obtain ⟨before, piece, hsplit, hsuffix, hwhole, hfree⟩ := ih
      have hsuffix' : piece <:+ c :: s := hsuffix.trans (List.suffix_cons c s)
      rw [splitSegments, hsplit]
      by_cases hc : slash c = true
      · rw [if_pos hc]
        exact ⟨([], true) :: before, piece, rfl, hsuffix', by simp, hfree⟩
      · rw [if_neg hc]
        rcases before with _ | ⟨⟨first, ended⟩, before⟩
        · obtain rfl := hwhole rfl
          rw [Bool.not_eq_true] at hc
          exact ⟨[], c :: piece, rfl, List.suffix_rfl, fun _ => rfl,
            List.forall_mem_cons.2 ⟨hc, hfree⟩⟩
        · exact ⟨(c :: first, ended) :: before, piece, rfl, hsuffix', by simp, hfree⟩

/-- A folder in front is pushed first. -/
private theorem resolvePath_folder (hpiece : ∀ d ∈ piece, slash d = false) (hc : slash c = true) :
    resolvePath set slash path (piece ++ c :: s)
      = resolvePath set slash (pushSegment path (encode set piece) true) s := by
  rw [resolvePath, splitSegments_append hpiece hc, List.foldl_cons]
  rfl

theorem pushSegment_plain {ended : Bool} (hdot : isSingleDot s = false)
    (hdots : isDoubleDot s = false) : pushSegment path s ended = path ++ [s] := by
  rw [pushSegment, hdots, hdot]
  rfl

/-- Folders are read as they are written. -/
private theorem resolvePath_folders (hfolders : ∀ folder ∈ folders, IsFolder folder)
    (path : List (List Char)) (s : List Char) :
    resolvePath pathSet (isSlash false) path (folderText folders ++ s)
      = resolvePath pathSet (isSlash false) (path ++ folders) s := by
  induction folders generalizing path with
  | nil => rw [List.append_nil]; rfl
  | cons folder folders ih =>
      rw [List.forall_mem_cons] at hfolders
      obtain ⟨⟨hplain, hdot, hdots⟩, hrest⟩ := hfolders
      have hfree : ∀ c ∈ folder, isSlash false c = false := by
        intro c hc
        rw [isSlash, decide_eq_false (hplain c hc).2]
        rfl
      have htext : folderText (folder :: folders) ++ s
          = folder ++ '/' :: (folderText folders ++ s) := by
        simp [folderText]
      rw [htext, resolvePath_folder hfree rfl, encode_of_plain fun c hc => (hplain c hc).1,
        pushSegment_plain hdot hdots, ih hrest, List.append_assoc]
      rfl

/-- The last segment of a path is empty, or it is the text behind the last
slash. -/
theorem resolvePath_last (set : EncodeSet) (slash : Char → Bool) (path : List (List Char))
    (s : List Char) :
    ∃ piece, piece <:+ s ∧ (∀ c ∈ piece, slash c = false)
      ∧ ((resolvePath set slash path s).getLast? = some []
        ∨ (resolvePath set slash path s).getLast? = some (encode set piece)) := by
  obtain ⟨before, piece, hsplit, hsuffix, -, hfree⟩ := splitSegments_last slash s
  refine ⟨piece, hsuffix, hfree, ?_⟩
  rw [resolvePath, hsplit, List.foldl_append]
  simp only [List.foldl_cons, List.foldl_nil, pushSegment, Bool.false_eq_true, if_false]
  split_ifs
  · exact .inl List.getLast?_concat
  · exact .inl List.getLast?_concat
  · exact .inr List.getLast?_concat

/-- A text without slashes is one segment. -/
theorem resolvePath_piece (hfree : ∀ c ∈ s, slash c = false) :
    resolvePath set slash path s = pushSegment path (encode set s) false := by
  have hsplit : splitSegments slash s = [(s, false)] := by
    induction s with
    | nil => rfl
    | cons c s ih =>
        rw [List.forall_mem_cons] at hfree
        rw [splitSegments, hfree.1, if_neg Bool.false_ne_true, ih hfree.2]
  rw [resolvePath, hsplit]
  rfl

/-- A front without query and fragment stays in front. -/
theorem splitTail_append (special : Bool) (hfront : ∀ c ∈ front, c ≠ '?' ∧ c ≠ '#')
    (s : List Char) :
    splitTail special (front ++ s)
      = (front ++ (splitTail special s).1, (splitTail special s).2) := by
  have hpass : ∀ c ∈ front, (c ≠ '?' && c ≠ '#') = true := fun c hc => by simpa using hfront c hc
  rw [splitTail, splitTail, List.takeWhile_append_of_pos hpass, List.dropWhile_append_of_pos hpass]
  split
  · split <;> rfl
  · rfl
  · rfl

/-- The path before a query and a fragment. -/
theorem splitTail_path (special : Bool) (s : List Char) :
    (splitTail special s).1 = s.takeWhile fun c => c ≠ '?' && c ≠ '#' := by
  unfold splitTail
  dsimp only
  split
  · split <;> rfl
  · rfl
  · rfl

/-- A text without their marks has no query and no fragment. -/
theorem splitTail_plain (h : ∀ c ∈ s, c ≠ '?' ∧ c ≠ '#') :
    splitTail special s = (s, none, none) := by
  have := splitTail_append special h []
  rwa [List.append_nil, show splitTail special [] = ([], none, none) from rfl,
    List.append_nil] at this

-- ================================================================== streaming

theorem mem_folderText (hfolders : ∀ folder ∈ folders, IsFolder folder)
    (hd : d ∈ folderText folders) : pathSet d = false := by
  obtain ⟨text, htext, hd⟩ := List.mem_flatMap.1 hd
  rcases List.mem_append.1 hd with hd | hd
  · exact ((hfolders text htext).plain d hd).1
  · obtain rfl := List.mem_singleton.1 hd
    rfl

theorem ne_of_pathSet (h : pathSet c = false) (hd : pathSet d = true) : c ≠ d := by
  rintro rfl
  rw [h] at hd
  cases hd

theorem withoutBreaks_append (s t : List Char) :
    withoutBreaks (s ++ t) = withoutBreaks s ++ withoutBreaks t := List.filter_append ..

private theorem lines_folders (hfolders : ∀ folder ∈ folders, IsFolder folder) :
    withoutBreaks (folders.flatMap ('/' :: ·)) = folders.flatMap ('/' :: ·) := by
  rw [withoutBreaks_eq_iff]
  intro c hc
  obtain ⟨folder, hfolder, hc⟩ := List.mem_flatMap.1 hc
  rcases List.mem_cons.1 hc with rfl | hc
  · decide
  · have hplain := ((hfolders folder hfolder).plain c hc).1
    exact ⟨ne_of_pathSet hplain rfl, ne_of_pathSet hplain rfl, ne_of_pathSet hplain rfl⟩

/-- A streaming address is kept when it is cleaned, but for its end. -/
private theorem clean_streaming (hlines : withoutBreaks authority = authority)
    (hfolders : ∀ folder ∈ folders, IsFolder folder) (s : List Char) :
    clean ("rtsp://".toList ++ authority ++ '/' :: (folderText folders ++ s))
      = "rtsp://".toList ++ (authority ++ '/' :: (folderText folders ++ seenAtEnd s)) := by
  have hfront : withoutBreaks ('r' :: ("tsp://".toList ++ authority ++ folders.flatMap ('/' :: ·)))
      = 'r' :: ("tsp://".toList ++ authority ++ folders.flatMap ('/' :: ·)) := by
    rw [← List.cons_append, ← List.cons_append, withoutBreaks_append, withoutBreaks_append, hlines,
      lines_folders hfolders]
    rfl
  rw [cons_folderText, ← List.append_assoc]
  refine (clean_append (by decide) hfront s).trans ?_
  simp only [cons_folderText, List.append_assoc, List.cons_append]
  rfl

/-- The address of a site with folders, and behind them what is seen of a
text that the address ends in. -/
def behindFolders (site : Url) (folders : List (List Char)) (s : List Char) : Url :=
  let (path, query, fragment) := splitTail false (seenAtEnd s)
  { site with
    path := .segments (resolvePath pathSet (isSlash false) folders path), query, fragment }

/-- An address of a stream is the site of its authority with the folders of
its path and what is behind them. -/
theorem parse_streaming (h : Undivided authority) (hlines : withoutBreaks authority = authority)
    (hfolders : ∀ folder ∈ folders, IsFolder folder)
    (hsite : parse ("rtsp://".toList ++ authority ++ ['/']) = .ok site) (s : List Char) :
    parse ("rtsp://".toList ++ authority ++ '/' :: (folderText folders ++ s))
      = .ok (behindFolders site folders s) := by
  have hread : ∀ text rest, clean text = "rtsp://".toList ++ rest →
      parse text = afterSlashes "rtsp".toList rest := by
    intro text rest hclean
    rw [parse, parseFrom, hclean]
    rfl
  have hsite' : afterSlashes "rtsp".toList (authority ++ ['/']) = .ok site :=
    (hread _ _ (clean_streaming hlines (List.forall_mem_nil IsFolder) [])).symm.trans hsite
  have hpath : ∀ c ∈ '/' :: folderText folders, c ≠ '?' ∧ c ≠ '#' := by
    intro c hc
    rcases List.mem_cons.1 hc with rfl | hc
    · decide
    · have hplain := mem_folderText hfolders hc
      exact ⟨ne_of_pathSet hplain rfl, ne_of_pathSet hplain rfl⟩
  have hspecial : isSpecialScheme "rtsp".toList = false := rfl
  rw [hread _ _ (clean_streaming hlines hfolders s), afterSlashes_of_site h hsite', hspecial,
    withTail, ← List.cons_append, splitTail_append false hpath, behindFolders]
  dsimp only
  have hbehind := resolvePath_folders hfolders [] (splitTail false (seenAtEnd s)).1
  rw [List.nil_append] at hbehind
  rw [← hbehind]
  rfl

end VideoWall.Url
