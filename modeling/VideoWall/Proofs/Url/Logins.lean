/-
User names and passwords before a host.

# What stands before the host

A text before a host is a user name and, behind the first colon, a password
(`loginParts`). Either can be missing. Both are held encoded, and the last
`@` of the authority ends them, so an address with a login is the address
without it and the two parts of the login (`parse_login`).

# Which addresses have one

Only what stands behind two slashes has an authority. What is read there has
a host, and one that is empty has no login (`afterSlashes_ok`); the scheme of
files has a reader of its own that looks for none. So each address with a
login is one that can have it (`takesCredentials_of_parse`).
-/
import VideoWall.Proofs.Url.Authorities
import VideoWall.Url.Edit

namespace VideoWall.Url

open Text

variable {special : Bool} {scheme s info rest : List Char} {u plain : Url}

-- ===================================================================== logins

/-- The user name and the password that are written before a host. -/
def loginParts (info : List Char) : List Char × List Char :=
  (splitOnce? ':' info).getD (info, [])

/-- A login's parts are encoded one by one. -/
theorem userinfo_eq (info : List Char) :
    userinfo info
      = (encode userinfoSet (loginParts info).1, encode userinfoSet (loginParts info).2) := by
  rw [userinfo, loginParts]
  cases splitOnce? ':' info <;> rfl

/-- A text is empty if it is when it is encoded. -/
theorem encode_eq_nil_iff {set : EncodeSet} : encode set s = [] ↔ s = [] := by
  cases s with
  | nil => exact ⟨fun _ => rfl, fun _ => rfl⟩
  | cons c s =>
      refine ⟨fun h => absurd h ?_, fun h => nomatch h⟩
      rw [encode_cons, encodeChar]
      obtain ⟨more, hmore⟩ := escapeChar_eq c
      split_ifs
      · rw [hmore]
        exact List.cons_ne_nil _ _
      · exact List.cons_ne_nil _ _

/-- The address of a host, with the login before it. -/
def signedSite (scheme info : List Char) (host : Host) (port : Option Nat) : Url :=
  { scheme, username := (userinfo info).1, password := (userinfo info).2, host := some host, port }

/-- An authority is a login, a host and a port. Without a host there is no
login. -/
theorem afterSlashes_eq {login : Option (List Char)}
    (hsplit : splitUserinfo (isSpecialScheme scheme) s = (login, rest)) :
    afterSlashes scheme s =
      if login = some [] ∧ rest.head?.any (endsAuthority (isSpecialScheme scheme)) then
        .error .emptyHost
      else
        (hostAndPort scheme rest).bind fun (host, port, rest) =>
          if host = .domain [] ∧ userinfo (login.getD []) ≠ ([], []) then .error .emptyHost
          else .ok (withTail (isSpecialScheme scheme)
            (signedSite scheme (login.getD []) host port) rest) := by
  rw [afterSlashes, hsplit]
  dsimp only
  by_cases hempty : login = some [] ∧ rest.head?.any (endsAuthority (isSpecialScheme scheme))
  · rw [if_pos hempty, if_pos hempty]
    rfl
  rw [if_neg hempty, if_neg hempty]
  rcases hlogin : userinfo (login.getD []) with ⟨username, password⟩
  have hparts : (username, password) ≠ ([], []) ↔ username ≠ [] ∨ password ≠ [] := by
    rw [ne_eq, Prod.mk.injEq, not_and_or]
  apply bind_congr
  rintro ⟨host, port, rest⟩
  simp only [hparts]
  by_cases hnoHost : host = .domain [] ∧ (username ≠ [] ∨ password ≠ [])
  · rw [if_pos hnoHost, if_pos hnoHost]
    rfl
  · rw [if_neg hnoHost, if_neg hnoHost, signedSite, hlogin]
    rfl

-- ==================================================== addresses with a login

/-- Only an address without a login is left as it is. -/
theorem withoutCredentials_eq_self_iff :
    u.withoutCredentials = u ↔ u.username = [] ∧ u.password = [] := by
  cases u
  simp [withoutCredentials, eq_comm]

/-- What is read behind two slashes has a host, and no login if that is
empty. -/
private theorem afterSlashes_ok (h : afterSlashes scheme s = .ok u) :
    u.scheme = scheme ∧ ∃ host, u.host = some host
      ∧ (host = .domain [] → u.username = [] ∧ u.password = []) := by
  rcases hsplit : splitUserinfo (isSpecialScheme scheme) s with ⟨login, rest⟩
  rw [afterSlashes_eq hsplit] at h
  split_ifs at h with hempty
  cases hhost : hostAndPort scheme rest with
  | error e =>
      rw [hhost] at h
      cases h
  | ok found =>
      obtain ⟨host, port, tail⟩ := found
      rw [hhost] at h
      dsimp only [Except.bind] at h
      split_ifs at h with hnoHost
      obtain rfl := Except.ok.inj h
      refine ⟨rfl, host, rfl, fun hdomain => ?_⟩
      have hnone : userinfo (login.getD []) = ([], []) :=
        not_not.1 fun hsome => hnoHost ⟨hdomain, hsome⟩
      exact Prod.mk.injEq .. ▸ hnone

/-- A file's address has no login. -/
private theorem fileAddress_ok (h : fileAddress s = .ok u) : u.username = [] ∧ u.password = [] := by
  unfold fileAddress at h
  dsimp only at h
  cases hfound : fileHostAndPath (splitTail true s).1 with
  | error e =>
      rw [hfound] at h
      cases h
  | ok found =>
      rw [hfound] at h
      obtain rfl := Except.ok.inj h
      exact ⟨rfl, rfl⟩

/-- An address with a login has an authority behind its slashes. -/
private theorem plainAddress_ok (h : plainAddress scheme s = .ok u)
    (hlogin : u.username ≠ [] ∨ u.password ≠ []) : ∃ rest, afterSlashes scheme rest = .ok u := by
  unfold plainAddress at h
  split at h
  case h_1 rest => exact ⟨rest, h⟩
  all_goals
    obtain rfl := Except.ok.inj h
    exact absurd hlogin (by simp)

/-- An address with a login can have one. -/
theorem takesCredentials_of_parse (h : parse s = .ok u)
    (hlogin : u.username ≠ [] ∨ u.password ≠ []) : u.takesCredentials = true := by
  have hslashes : ∀ scheme rest, isFileScheme scheme = false → afterSlashes scheme rest = .ok u →
      u.takesCredentials = true := by
    intro scheme rest hfile hread
    obtain ⟨hscheme, host, hhost, hempty⟩ := afterSlashes_ok hread
    have hne : host ≠ .domain [] := by
      intro hdomain
      obtain ⟨hname, hword⟩ := hempty hdomain
      exact hlogin.elim (· hname) (· hword)
    rw [takesCredentials, hscheme, hfile, hhost]
    simpa using hne
  rw [parse, parseFrom] at h
  cases hscheme : splitScheme? (clean s) with
  | none =>
      rw [hscheme] at h
      cases h
  | some parts =>
      obtain ⟨scheme, rest⟩ := parts
      rw [hscheme] at h
      dsimp only [withScheme] at h
      split_ifs at h with hfile hspecial
      · obtain ⟨hname, hword⟩ := fileAddress_ok h
        exact absurd hlogin (by simp [hname, hword])
      · exact hslashes scheme _ (Bool.eq_false_iff.2 hfile) h
      · obtain ⟨rest, hrest⟩ := plainAddress_ok h hlogin
        exact hslashes scheme rest (Bool.eq_false_iff.2 hfile) hrest

-- ============================================== addresses that begin with one

/-- Nothing in a text ends the authority it stands in, is a line break or a
tab. -/
structure IsLogin (info : List Char) : Prop where
  undivided : ∀ c ∈ info, endsAuthority false c = false
  oneLine : withoutBreaks info = info

/-- The last `@` ends a login. -/
private theorem splitUserinfo_login (hinfo : ∀ c ∈ info, endsAuthority false c = false)
    (hrest : '@' ∉ rest.takeWhile (!endsAuthority false ·)) :
    splitUserinfo false rest = (none, rest)
      ∧ splitUserinfo false (info ++ '@' :: rest) = (some info, rest) := by
  have hkeep : ∀ c ∈ info ++ ['@'], (!endsAuthority false c) = true := by
    intro c hc
    rcases List.mem_append.1 hc with hc | hc
    · rw [hinfo c hc]
      rfl
    · obtain rfl := List.mem_singleton.1 hc
      rfl
  have hlast : '@' ∉ (rest.takeWhile (!endsAuthority false ·)).reverse := by
    rwa [List.mem_reverse]
  have hbefore : info ++ '@' :: rest = (info ++ ['@']) ++ rest := by simp
  constructor
  · rw [splitUserinfo, splitOnce?_of_not_mem hlast]
  · rw [hbefore, splitUserinfo, List.takeWhile_append_of_pos hkeep,
      List.dropWhile_append_of_pos hkeep, List.reverse_append, List.reverse_append,
      List.reverse_singleton, List.singleton_append, splitOnce?_append_cons hlast]
    dsimp only
    rw [List.reverse_reverse, List.reverse_reverse, List.takeWhile_append_dropWhile]

/-- An authority that ends at once has an empty host. -/
private theorem host_of_ended {host : Host} {port : Option Nat} {tail : List Char}
    (hscheme : isSpecialScheme scheme = false) (hends : rest.head?.any (endsAuthority false) = true)
    (hread : hostAndPort scheme rest = .ok (host, port, tail)) : host = .domain [] := by
  cases rest with
  | nil => cases hends
  | cons c rest =>
      have hsplit : splitHost (isSpecialScheme scheme) false (c :: rest) = ([], c :: rest) := by
        rw [hscheme, splitHost, if_pos]
        exact Bool.or_eq_true_iff.2 (.inl hends)
      rw [hostAndPort_eq hsplit, hscheme, Bool.false_and, if_neg Bool.false_ne_true,
        if_neg Bool.false_ne_true] at hread
      have hempty : opaqueHost [] = .ok (.domain []) := rfl
      rw [hempty] at hread
      dsimp only [Except.bind] at hread
      split_ifs at hread
      cases hport : portAfter scheme (c :: rest) with
      | error e =>
          rw [hport] at hread
          cases hread
      | ok found =>
          rw [hport] at hread
          exact (congrArg Prod.fst (Except.ok.inj hread)).symm

/-- An authority with a login is the one without it, and the login. -/
private theorem afterSlashes_login (hscheme : isSpecialScheme scheme = false)
    (hinfo : ∀ c ∈ info, endsAuthority false c = false)
    (hrest : '@' ∉ rest.takeWhile (!endsAuthority false ·))
    (hplain : afterSlashes scheme rest = .ok plain) (hhost : plain.host ≠ some (.domain [])) :
    plain.withoutCredentials = plain
      ∧ afterSlashes scheme (info ++ '@' :: rest)
        = .ok { plain with username := (userinfo info).1, password := (userinfo info).2 } := by
  obtain ⟨hbare, hsigned⟩ := splitUserinfo_login hinfo hrest
  rw [← hscheme] at hbare hsigned
  rw [afterSlashes_eq hbare, if_neg (fun h => nomatch h.1)] at hplain
  rw [afterSlashes_eq hsigned]
  cases hread : hostAndPort scheme rest with
  | error e =>
      rw [hread] at hplain
      cases hplain
  | ok found =>
      obtain ⟨host, port, tail⟩ := found
      rw [hread] at hplain
      dsimp only [Except.bind] at hplain
      rw [if_neg (fun h => h.2 rfl)] at hplain
      obtain rfl := Except.ok.inj hplain
      have hnamed : host ≠ .domain [] := fun h => hhost (congrArg some h)
      refine ⟨rfl, ?_⟩
      rw [if_neg]
      · dsimp only [Except.bind]
        rw [if_neg (fun h => hnamed h.1)]
        rfl
      · rintro ⟨-, hends⟩
        exact hnamed (host_of_ended hscheme (hscheme ▸ hends) hread)

/-- No line break and no tab ends an authority, so what is seen of it is part
of it. -/
theorem mem_takeWhile_seenAtEnd {c : Char} (s : List Char)
    (h : c ∈ (seenAtEnd s).takeWhile (!endsAuthority false ·)) :
    c ∈ s.takeWhile (!endsAuthority false ·) := by
  obtain ⟨tail, htail⟩ := dropEndWhile_prefix_self (·.toNat ≤ 0x20) s
  have hbreaks : ∀ d : Char, (!(d ≠ '\t' && d ≠ '\n' && d ≠ '\r') || !endsAuthority false d)
      = !endsAuthority false d := by
    intro d
    by_cases hd : (d ≠ '\t' && d ≠ '\n' && d ≠ '\r') = true
    · rw [hd]
      rfl
    · have hbreak : d = '\t' ∨ d = '\n' ∨ d = '\r' := by
        simp only [Bool.and_eq_true, decide_eq_true_eq, not_and, not_not] at hd
        tauto
      rcases hbreak with rfl | rfl | rfl <;> rfl
  rw [seenAtEnd, withoutBreaks, List.takeWhile_filter] at h
  simp only [hbreaks] at h
  have hkept := List.mem_of_mem_filter h
  rw [← htail, List.takeWhile_append]
  split_ifs
  · exact List.mem_append_left _ ((List.takeWhile_prefix _).subset hkept)
  · exact hkept

/-- An address of a stream is read behind its two slashes. -/
private theorem parse_stream (s : List Char) :
    parse ("rtsp://".toList ++ s) = afterSlashes "rtsp".toList (seenAtEnd s) := by
  have hlow : 0x20 < 'r'.toNat := by decide
  have hlines : withoutBreaks ('r' :: "tsp:/".toList) = 'r' :: "tsp:/".toList := rfl
  have hclean : clean ("rtsp://".toList ++ s) = "rtsp://".toList ++ seenAtEnd s :=
    clean_append hlow hlines s
  rw [parse, parseFrom, hclean]
  rfl

private theorem seenAtEnd_login (h : withoutBreaks info = info) (s : List Char) :
    seenAtEnd (info ++ '@' :: s) = info ++ '@' :: seenAtEnd s := by
  rw [seenAtEnd, dropEndWhile_append_cons rfl, withoutBreaks_append, h]
  rfl

/-- An address of a stream with a login is the one without it, and the login. -/
theorem parse_login (hinfo : IsLogin info) (hrest : '@' ∉ rest.takeWhile (!endsAuthority false ·))
    (hplain : parse ("rtsp://".toList ++ rest) = .ok plain)
    (hhost : plain.host ≠ some (.domain [])) :
    plain.withoutCredentials = plain
      ∧ parse ("rtsp://".toList ++ (info ++ '@' :: rest))
        = .ok { plain with username := (userinfo info).1, password := (userinfo info).2 } := by
  rw [parse_stream] at hplain
  rw [parse_stream, seenAtEnd_login hinfo.oneLine]
  exact afterSlashes_login rfl hinfo.undivided (fun h => hrest (mem_takeWhile_seenAtEnd rest h))
    hplain hhost

end VideoWall.Url
