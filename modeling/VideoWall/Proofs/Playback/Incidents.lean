/-
What happens to the segments of a stream while a loop plays it.

# Incidents

A loop attempts segments one at a time. An attempt ends with the segment
played, with a failure, or with the loop itself (`dropped`). In between
playlists are read. `FetchLoop.incidents` tells what happens in a step,
and `FetchLoop.chronicle` what happens in a whole run, beginning with the
playlist that the loop starts from.

# Standings

All that matters of a loop for the order of its segments is its
`Standing`: no playlist with segments has been there yet, or a number is
wanted and the loop is between segments or at one. `Standing.Goes` says
what may happen in each standing and what the standing is then, and
`Path` follows a list of incidents.

The number that is wanted is always the next one in the window, or the
window has not come to it yet (`FetchLoop.Sound`): it is the live edge at
first, the next number after a segment, and the live edge again when the
window has gone past it. So whatever a loop comes to attempt is the
number that it wants, and the chronicle of a run is a path
(`FetchLoop.path_chronicle`).
-/
import VideoWall.Playback.FetchLoop
import VideoWall.Proofs.Playlist.Windows

namespace VideoWall.Playback

open Playlist Recorder Transport

-- ============================================================= incidents

/-- What happens to the segments of a stream, by their numbers. -/
inductive Incident where
  | playlist (p : Media)
  | attempt (number : Nat)
  | played (number : Nat)
  | failed (number : Nat)
  | dropped (number : Nat)

namespace FetchLoop

variable {cfg : FetchSettings} {l : FetchLoop} {s : Segment} {left : List Segment}

/-- The segments of a round that are not passed over. -/
def ahead (l : FetchLoop) (left : List Segment) : List Segment :=
  match l.next with
  | none => []
  | some next => left.dropWhile (·.sequence < next)

/-- To go on with a round is to attempt the first segment ahead. One without
an address fails at once. -/
def begins (l : FetchLoop) (left : List Segment) : List Incident :=
  match l.ahead left with
  | [] => []
  | s :: _ =>
      match Url.join l.address s.uri.toList with
      | .ok _ => [.attempt s.sequence]
      | .error _ => [.attempt s.sequence, .failed s.sequence]

/-- A segment is through, and the round goes on. -/
def completes (l : FetchLoop) (s : Segment) (left : List Segment) : List Incident :=
  .played s.sequence :: { l with next := some (s.sequence + 1) }.begins left

/-- The bytes of a segment are there, or are not to be had. -/
def fetched (l : FetchLoop) (s : Segment) (left : List Segment)
    (bytes : Except Failure (List UInt8)) : List Incident :=
  match bytes with
  | .error _ => [.failed s.sequence]
  | .ok bytes =>
      match demux bytes with
      | .error _ => [.failed s.sequence]
      | .ok [] => l.completes s left
      | .ok (u :: units) =>
          match s.spacing? (u :: units).length with
          | none => [.dropped s.sequence]
          | some _ => []

/-- A playlist is there, and its segments are gone through. -/
def takes (l : FetchLoop) (p : Media) : List Incident :=
  .playlist p :: { l with playlist := p, next := nextIn l.next p }.begins p.segments

/-- The playlist has been read again, or could not be. -/
def reloaded (l : FetchLoop) (text : Except Failure (List Char)) : List Incident :=
  match text with
  | .error _ => []
  | .ok text =>
      match parse text with
      | .ok (.media p) => l.takes p
      | _ => []

/-- What happens when the outside gives something. -/
def incidents (l : FetchLoop) (g : Given) : List Incident :=
  match l.point, g with
  | .fetching s _ _, .cancelled | .feeding s _ _ _ _, .cancelled
  | .spacing s _ _ _, .cancelled => [.dropped s.sequence]
  | .fetching s _ left, .segment bytes => l.fetched s left bytes
  | .feeding s _ _ _ _, .taken (.gone true) => [.dropped s.sequence]
  | .feeding s _ _ _ _, .taken (.gone false) => [.failed s.sequence]
  | .spacing s _ [] left, .timePassed => l.completes s left
  | .pausing _ .round, .timePassed => l.begins l.playlist.segments
  | .reloading, .playlist text => l.reloaded text
  | _, _ => []

/-- What happens from a loop on. -/
def incidentsOf (cfg : FetchSettings) (l : FetchLoop) : List Given → List Incident
  | [] => []
  | g :: later => l.incidents g ++ (l.step cfg g).incidentsOf cfg later

/-- A loop that has not read anything yet. -/
def blank (address : Url) (p : Media) : FetchLoop := { address, playlist := p, next := none }

/-- What happens in a whole run: the loop has its first playlist, and is
given one thing after the other. -/
def chronicle (cfg : FetchSettings) (address : Url) (initial : Media) (given : List Given) :
    List Incident :=
  (blank address initial).takes initial ++ (start cfg address initial).incidentsOf cfg given

end FetchLoop

-- ============================================================= standings

/-- How a loop stands to the segments of its stream. `opening` is the moment
between the first playlist with segments and its first attempt. -/
inductive Standing where
  | unopened
  | opening (edge : Nat)
  | between (next : Nat)
  | trying (number : Nat)
  deriving DecidableEq

namespace Standing

/-- What may happen in a standing, and the standing after it. -/
inductive Goes : Standing → Incident → Standing → Prop where
  | silent {p : Media} (hp : p.segments = []) : Goes .unopened (.playlist p) .unopened
  | opens {p : Media} {edge : Nat} (hedge : p.liveEdge? = some edge) :
      Goes .unopened (.playlist p) (.opening edge)
  | first (edge : Nat) : Goes (.opening edge) (.attempt edge) (.trying edge)
  | attempt (n : Nat) : Goes (.between n) (.attempt n) (.trying n)
  | reads {p : Media} (n : Nat) (hp : Numbered p.segments) :
      Goes (.between n) (.playlist p) (.between (p.wanted n))
  | played (n : Nat) : Goes (.trying n) (.played n) (.between (n + 1))
  | failed (n : Nat) : Goes (.trying n) (.failed n) (.between n)
  | dropped (n : Nat) : Goes (.trying n) (.dropped n) (.between n)

/-- Incidents that may happen one after the other. -/
inductive Path : Standing → List Incident → Standing → Prop where
  | stay (a : Standing) : Path a [] a
  | step {a b c : Standing} {i : Incident} {later : List Incident} (h : a.Goes i b)
      (hlater : Path b later c) : Path a (i :: later) c

variable {a b c : Standing} {t u : List Incident}

theorem Goes.path {i : Incident} (h : a.Goes i b) : Path a [i] b := .step h (.stay b)

/-- A path may be followed by another one. -/
theorem Path.append (h : Path a t b) (h' : Path b u c) : Path a (t ++ u) c := by
  induction h with
  | stay a => exact h'
  | step hgoes _ ih => exact .step hgoes (ih h')

/-- A path has a standing after each of its parts. -/
theorem Path.split (h : Path a (t ++ u) c) : ∃ b, Path a t b ∧ Path b u c := by
  induction t generalizing a with
  | nil => exact ⟨a, .stay a, h⟩
  | cons i later ih =>
      obtain ⟨hgoes, hlater⟩ : ∃ b, a.Goes i b ∧ Path b (later ++ u) c := by
        cases h with
        | step hgoes hlater => exact ⟨_, hgoes, hlater⟩
      obtain ⟨b, hleft, hright⟩ := ih hlater.2
      exact ⟨b, .step hlater.1 hleft, hright⟩

end Standing

-- ================================================================= loops

/-- The segment that a loop is at, and the ones after it in the round. -/
def Point.work? : Point → Option (Segment × List Segment)
  | .fetching s _ left | .feeding s _ _ _ left | .spacing s _ _ left => some (s, left)
  | _ => none

/-- Every playlist that the outside gives has numbered segments. -/
def Given.Numbers : Given → Prop
  | .playlist (.ok text) => ∀ p, parse text = .ok (.media p) → Numbered p.segments
  | _ => True

namespace FetchLoop

variable {cfg : FetchSettings} {l l' : FetchLoop} {s : Segment} {left : List Segment} {n : Nat}

/-- How a loop stands where it waits. -/
def standing (l : FetchLoop) : Standing :=
  match l.next with
  | none => .unopened
  | some n => if l.point.work?.isSome then .trying n else .between n

/-- The number wanted is in the window or has not come to it yet, and nothing
is wanted before there are segments. -/
structure Steady (l : FetchLoop) : Prop where
  numbered : Numbered l.playlist.segments
  within : ∀ n, l.next = some n → startsPast l.playlist.segments n = false
  unopened : l.next = none → l.playlist.segments = []

/-- The loop is at the segment that it wants. -/
structure Sound (l : FetchLoop) : Prop extends Steady l where
  work : ∀ s left, l.point.work? = some (s, left) →
    l.next = some s.sequence ∧ Numbered (s :: left)

-- ------------------------------------------------------ between segments

/-- A loop that goes on waiting, at no segment. -/
def Idles (l l' : FetchLoop) : Prop :=
  ∃ failures point, l' = { l with failures, point } ∧ point.work? = none

/-- A loop at rest idles. -/
theorem idles_rest (l : FetchLoop) : l.Idles l.rest := by
  unfold rest
  split
  · exact ⟨l.failures, _, rfl, rfl⟩
  · exact ⟨l.failures, _, rfl, rfl⟩

/-- A loop that pauses after a failure idles. -/
theorem idles_fail (cfg : FetchSettings) (l : FetchLoop) (t : Trouble) (next : AfterPause) :
    l.Idles (l.fail cfg t next) := by
  refine ⟨l.failures + 1, _, rfl, ?_⟩
  split
  · rfl
  · split
    · rfl
    · rfl

theorem idles_ended (l : FetchLoop) : l.Idles { l with point := .ended none } :=
  ⟨l.failures, _, rfl, rfl⟩

/-- A steady loop that comes to idle is sound. -/
theorem Steady.sound_of_idles (h : l.Steady) (hidle : l.Idles l') : l'.Sound := by
  obtain ⟨failures, point, rfl, hpoint⟩ := hidle
  refine ⟨⟨h.numbered, h.within, h.unopened⟩, fun s left hwork => ?_⟩
  rw [hpoint] at hwork
  cases hwork

theorem standing_of_idles (hidle : l.Idles l') (hn : l.next = some n) :
    l'.standing = .between n := by
  obtain ⟨failures, point, rfl, hpoint⟩ := hidle
  unfold standing
  dsimp only
  rw [hn, hpoint]
  rfl

-- ----------------------------------------------------------------- rounds

/-- Attempts the first of some segments. -/
def tries (cfg : FetchSettings) (l : FetchLoop) : List Segment → FetchLoop
  | [] => l.rest
  | s :: left =>
      match Url.join l.address s.uri.toList with
      | .error cause => l.fail cfg (.segmentAddress s.uri cause) .reload
      | .ok address => { l with point := .fetching s address left }

/-- A round goes on with the first segment ahead. -/
theorem play_eq (cfg : FetchSettings) (l : FetchLoop) (left : List Segment) :
    l.play cfg left = l.tries cfg (l.ahead left) := by
  obtain ⟨address, playlist, next, failures, point⟩ := l
  cases next with
  | none =>
      cases left with
      | nil => rfl
      | cons s left => rfl
  | some next =>
      induction left with
      | nil => rfl
      | cons s left ih =>
          unfold ahead at ih ⊢
          unfold play
          dsimp only at ih ⊢
          by_cases hs : s.sequence < next
          · rw [if_pos hs, ih, List.dropWhile_cons_of_pos (by simpa using hs)]
          · rw [if_neg hs, List.dropWhile_cons_of_neg (by simpa using hs)]
            rfl

/-- A path of a loop to where it waits next. -/
def Leads (a : Standing) (t : List Incident) (l : FetchLoop) : Prop :=
  Standing.Path a t l.standing ∧ l.Sound

/-- A round attempts the number that is wanted, if it has it. -/
theorem leads_begins (cfg : FetchSettings) (h : l.Steady) (hn : l.next = some n)
    (hleft : Numbered left) (hstart : startsPast left n = false) :
    Leads (.between n) (l.begins left) (l.play cfg left) := by
  rw [play_eq]
  unfold begins
  cases hahead : l.ahead left with
  | nil =>
      have hidle := idles_rest l
      refine ⟨?_, h.sound_of_idles hidle⟩
      show Standing.Path _ [] l.rest.standing
      rw [standing_of_idles hidle hn]
      exact .stay _
  | cons s rest =>
      rw [ahead, hn] at hahead
      -- the first segment that is not behind is the one that is wanted
      obtain ⟨rfl, hrest⟩ := hleft.dropWhile hstart hahead
      unfold tries
      dsimp only
      cases Url.join l.address s.uri.toList with
      | error cause =>
          have hidle := idles_fail cfg l (.segmentAddress s.uri cause) .reload
          refine ⟨?_, h.sound_of_idles hidle⟩
          dsimp only
          rw [standing_of_idles hidle hn]
          exact .step (.attempt _) (Standing.Goes.failed _).path
      | ok address =>
          refine ⟨?_, ⟨⟨h.numbered, h.within, h.unopened⟩, ?_⟩⟩
          · have hstanding : ({ l with point := .fetching s address rest } : FetchLoop).standing
                = .trying s.sequence := by
              unfold standing
              dsimp only
              rw [hn]
              rfl
            dsimp only
            rw [hstanding]
            exact (Standing.Goes.attempt _).path
          · intro s' left' hwork
            cases hwork
            exact ⟨hn, hrest⟩

/-- A segment that is through leads to the next number. -/
private theorem leads_completes (cfg : FetchSettings) (h : l.Steady) (hn : l.next = some s.sequence)
    (hleft : Numbered (s :: left)) :
    Leads (.trying s.sequence) (l.completes s left) (l.played cfg s left) := by
  have hsteady : Steady { l with failures := 0, next := some (s.sequence + 1) } := by
    refine ⟨h.numbered, ?_, fun hnone => by cases hnone⟩
    intro n hn'
    cases hn'
    exact not_startsPast_succ (h.within _ hn)
  obtain ⟨hpath, hsound⟩ := leads_begins cfg hsteady rfl hleft.tail
    hleft.not_startsPast_tail
  exact ⟨.step (.played _) hpath, hsound⟩

/-- A number that is wanted stays wanted, unless the playlist begins after
it. -/
theorem nextIn_some (n : Nat) (p : Media) : nextIn (some n) p = some (p.wanted n) := by
  unfold nextIn
  cases hp : p.segments with
  | nil => simp [Media.wanted, startsPast, hp]
  | cons s left =>
      dsimp only [List.head?_cons]
      split
      case isTrue hlt =>
        have hpast : startsPast p.segments n = true := by
          rw [hp]
          exact startsPast_cons.2 hlt
        exact liveEdge?_of_startsPast hpast
      case isFalse hnot =>
        rw [wanted_of_not_startsPast]
        rw [hp, ← Bool.not_eq_true, startsPast_cons]
        exact hnot

/-- A segment that is wanted and there is tried first. -/
theorem begins_of_ahead {rest : List Segment} (hahead : l.ahead left = s :: rest) :
    ∃ later, l.begins left = .attempt s.sequence :: later := by
  unfold begins
  rw [hahead]
  dsimp only
  cases Url.join l.address s.uri.toList with
  | ok address => exact ⟨_, rfl⟩
  | error cause => exact ⟨_, rfl⟩

/-- The first segments there are open the stream at their live edge. -/
private theorem leads_opens (cfg : FetchSettings) {p : Media} {edge : Nat}
    (hp : Numbered p.segments)
    (hedge : p.liveEdge? = some edge) (hplaylist : l.playlist = p) (hn : l.next = some edge) :
    Leads (.opening edge) (l.begins p.segments) (l.play cfg p.segments) := by
  have hpast := hp.not_startsPast_liveEdge hedge
  have hsteady : l.Steady := by
    rw [← hplaylist] at hp hpast
    refine ⟨hp, ?_, fun hnone => ?_⟩
    · intro n hn'
      rw [hn] at hn'
      cases hn'
      exact hpast
    · rw [hn] at hnone
      cases hnone
  obtain ⟨hpath, hsound⟩ := leads_begins cfg hsteady hn hp hpast
  refine ⟨?_, hsound⟩
  have hne : l.ahead p.segments ≠ [] := by
    rw [ahead, hn]
    exact dropWhile_liveEdge hedge
  -- the round attempts the edge, which is what an opening waits for
  obtain ⟨s, rest, hahead⟩ := List.exists_cons_of_ne_nil hne
  have hnumber : s.sequence = edge := by
    rw [ahead, hn] at hahead
    exact (hp.dropWhile hpast hahead).1
  obtain ⟨later, hbegins⟩ := begins_of_ahead hahead
  rw [hbegins, hnumber] at hpath ⊢
  cases hpath with
  | step hgoes hlater =>
      cases hgoes
      exact .step (.first edge) hlater

/-- Before there are segments, a loop waits for the first ones. -/
theorem leads_silent (cfg : FetchSettings) (hn : l.next = none)
    (hsegments : l.playlist.segments = []) : Leads .unopened [] (l.play cfg []) := by
  have hsteady : l.Steady := by
    refine ⟨?_, ?_, fun _ => hsegments⟩
    · rw [hsegments]
      exact .nil
    · intro n hn'
      rw [hn] at hn'
      cases hn'
  have hidle := idles_rest l
  refine ⟨?_, hsteady.sound_of_idles hidle⟩
  obtain ⟨failures, point, hrest, -⟩ := hidle
  have hstanding : l.rest.standing = .unopened := by
    rw [hrest]
    unfold standing
    dsimp only
    rw [hn]
  show Standing.Path .unopened [] l.rest.standing
  rw [hstanding]
  exact .stay _

/-- A playlist that is read leads to the number wanted then. -/
theorem leads_takes (cfg : FetchSettings) (hidle : l.point.work? = none) {p : Media}
    (hp : Numbered p.segments) :
    Leads l.standing (l.takes p)
      ({ l with playlist := p, next := nextIn l.next p }.play cfg p.segments) := by
  unfold takes standing
  cases hn : l.next with
  | none =>
      dsimp only
      cases hedge : p.liveEdge? with
      | none =>
          have hsegments : p.segments = [] :=
            List.getLast?_eq_none_iff.1 (Option.map_eq_none_iff.1 hedge)
          have hnext : nextIn none p = none := hedge
          obtain ⟨hpath, hsound⟩ := leads_silent cfg
            (l := { l with playlist := p, next := none }) rfl hsegments
          rw [hnext, hsegments]
          exact ⟨.step (.silent hsegments) hpath, hsound⟩
      | some edge =>
          have hnext : nextIn none p = some edge := hedge
          obtain ⟨hpath, hsound⟩ := leads_opens cfg
            (l := { l with playlist := p, next := some edge }) hp hedge rfl rfl
          rw [hnext]
          exact ⟨.step (.opens hedge) hpath, hsound⟩
  | some n =>
      have hpast := not_startsPast_wanted hp n
      have hsteady : Steady { l with playlist := p, next := some (p.wanted n) } := by
        refine ⟨hp, ?_, fun hnone => by cases hnone⟩
        intro m hm
        cases hm
        exact hpast
      obtain ⟨hpath, hsound⟩ := leads_begins cfg hsteady rfl hp hpast
      rw [nextIn_some, hidle]
      exact ⟨.step (.reads n hp) hpath, hsound⟩

-- ----------------------------------------------------------- at a segment

theorem leads_stays (h : l.Sound) : Leads l.standing [] l := ⟨.stay _, h⟩

theorem Sound.standing_of_work (h : l.Sound) (hwork : l.point.work? = some (s, left)) :
    l.standing = .trying s.sequence := by
  unfold standing
  rw [(h.work s left hwork).1, hwork]
  rfl

/-- The loop gets on with its segment. -/
theorem leads_works (h : l.Sound) (hwork : l.point.work? = some (s, left)) {point : Point}
    (hpoint : point.work? = some (s, left)) : Leads l.standing [] { l with point } := by
  have hnext := h.work s left hwork
  have hsound : Sound { l with point } := by
    refine ⟨⟨h.numbered, h.within, h.unopened⟩, fun s' left' hwork' => ?_⟩
    rw [hpoint] at hwork'
    cases hwork'
    exact hnext
  rw [h.standing_of_work hwork, ← hsound.standing_of_work hpoint]
  exact leads_stays hsound

/-- The attempt is over, and the number is still wanted. -/
theorem leads_leaves (h : l.Sound) (hwork : l.point.work? = some (s, left)) {i : Incident}
    (hgoes : Standing.Goes (.trying s.sequence) i (.between s.sequence)) (hidle : l.Idles l') :
    Leads l.standing [i] l' := by
  refine ⟨?_, h.toSteady.sound_of_idles hidle⟩
  rw [h.standing_of_work hwork, standing_of_idles hidle (h.work s left hwork).1]
  exact hgoes.path

/-- A loop that is left in a segment drops it. -/
private theorem leads_drops (h : l.Sound) (hwork : l.point.work? = some (s, left)) :
    Leads l.standing [.dropped s.sequence] { l with point := .ended none } :=
  leads_leaves h hwork (.dropped _) ⟨l.failures, _, rfl, rfl⟩

/-- A loop that fails in a segment has failed that segment. -/
theorem leads_fails (cfg : FetchSettings) (h : l.Sound) (hwork : l.point.work? = some (s, left))
    (t : Trouble) : Leads l.standing [.failed s.sequence] (l.fail cfg t .reload) :=
  leads_leaves h hwork (.failed _) (idles_fail cfg l t .reload)

/-- A loop that has played a segment has completed it. -/
theorem leads_played (cfg : FetchSettings) (h : l.Sound) (hwork : l.point.work? = some (s, left)) :
    Leads l.standing (l.completes s left) (l.played cfg s left) := by
  obtain ⟨hn, hleft⟩ := h.work s left hwork
  rw [h.standing_of_work hwork]
  exact leads_completes cfg h.toSteady hn hleft

/-- A loop that has fetched a segment plays it or fails in it. -/
private theorem leads_fetched (cfg : FetchSettings) (h : l.Sound)
    (hwork : l.point.work? = some (s, left)) (bytes : Except Failure (List UInt8)) :
    Leads l.standing (l.fetched s left bytes) (l.takeSegment cfg s left bytes) := by
  unfold fetched takeSegment
  cases bytes with
  | error f => exact leads_fails cfg h hwork _
  | ok bytes =>
      dsimp only
      cases demux bytes with
      | error e => exact leads_fails cfg h hwork _
      | ok units =>
          cases units with
          | nil => exact leads_played cfg h hwork
          | cons u units =>
              dsimp only
              cases s.spacing? (u :: units).length with
              | none => exact leads_leaves h hwork (.dropped _) ⟨l.failures, _, rfl, rfl⟩
              | some spacing => exact leads_works h hwork rfl

/-- All units are with the decoder, or the next one is for it. -/
private theorem leads_feeds (cfg : FetchSettings) (h : l.Sound) {spacing : Nat}
    {units : List AccessUnit} (hpoint : l.point = .spacing s spacing units left) :
    Leads l.standing (l.incidents .timePassed) (l.feed cfg s spacing units left) := by
  have hwork : l.point.work? = some (s, left) := by
    rw [hpoint]
    rfl
  unfold incidents feed
  rw [hpoint]
  cases units with
  | nil => exact leads_played cfg h hwork
  | cons u units => exact leads_works h hwork rfl

-- ------------------------------------------------------- between segments

theorem standing_of_idle (hidle : l.point.work? = none) :
    l.standing = l.next.elim .unopened .between := by
  unfold standing
  rw [hidle]
  cases l.next with
  | none => rfl
  | some n => rfl

/-- A loop that only comes to idle has no incident to tell. -/
theorem leads_idles (h : l.Sound) (hidle : l.point.work? = none) (hidles : l.Idles l') :
    Leads l.standing [] l' := by
  have hsound := h.toSteady.sound_of_idles hidles
  obtain ⟨failures, point, rfl, hpoint⟩ := hidles
  refine ⟨?_, hsound⟩
  rw [standing_of_idle hidle, standing_of_idle hpoint]
  exact .stay _

/-- Another round over the playlist that is there. -/
private theorem leads_round (cfg : FetchSettings) (h : l.Sound) (hidle : l.point.work? = none) :
    Leads l.standing (l.begins l.playlist.segments) (l.play cfg l.playlist.segments) := by
  rw [standing_of_idle hidle]
  cases hn : l.next with
  | none =>
      have hsegments := h.unopened hn
      have hbegins : l.begins [] = [] := by rw [begins, ahead, hn]
      rw [hsegments, hbegins]
      exact leads_silent cfg hn hsegments
  | some n => exact leads_begins cfg h.toSteady hn h.numbered (h.within n hn)

/-- A loop that has read its playlist again begins with what it wants. -/
private theorem leads_reloaded (cfg : FetchSettings) (h : l.Sound) (hidle : l.point.work? = none)
    (text : Except Failure (List Char)) (hg : (Given.playlist text).Numbers) :
    Leads l.standing (l.reloaded text) (l.takePlaylist cfg text) := by
  unfold reloaded takePlaylist
  cases text with
  | error f => exact leads_idles h hidle (idles_fail cfg l _ _)
  | ok text =>
      dsimp only
      cases hparse : parse text with
      | error e => exact leads_idles h hidle (idles_fail cfg l _ _)
      | ok playlist =>
          cases playlist with
          | master variants => exact leads_idles h hidle (idles_fail cfg l _ _)
          | media p => exact leads_takes cfg hidle (hg p hparse)

-- ------------------------------------------------------------------- runs

/-- Whatever the outside gives, what happens then is a path. -/
theorem leads_step (cfg : FetchSettings) (h : l.Sound) (g : Given) (hg : g.Numbers) :
    Leads l.standing (l.incidents g) (l.step cfg g) := by
  -- by the point where the loop stands: in a segment, between two, or at its end
  cases hpoint : l.point with
  | fetching s address left =>
      have hwork : l.point.work? = some (s, left) := by
        rw [hpoint]
        rfl
      unfold incidents step
      rw [hpoint]
      cases g with
      | segment bytes => exact leads_fetched cfg h hwork bytes
      | cancelled => exact leads_drops h hwork
      | _ => exact leads_stays h
  | feeding s spacing u units left =>
      have hwork : l.point.work? = some (s, left) := by
        rw [hpoint]
        rfl
      unfold incidents step
      rw [hpoint]
      cases g with
      | taken t =>
          rcases t with _ | _ | _
          · exact leads_works h hwork rfl
          · exact leads_fails cfg h hwork _
          · exact leads_drops h hwork
      | cancelled => exact leads_drops h hwork
      | _ => exact leads_stays h
  | spacing s spacing units left =>
      have hwork : l.point.work? = some (s, left) := by
        rw [hpoint]
        rfl
      have hstep : l.step cfg .timePassed = l.feed cfg s spacing units left := by
        unfold step
        rw [hpoint]
      cases g with
      | timePassed =>
          rw [hstep]
          exact leads_feeds cfg h hpoint
      | cancelled =>
          unfold incidents step
          rw [hpoint]
          exact leads_drops h hwork
      | _ =>
          unfold incidents step
          rw [hpoint]
          exact leads_stays h
  -- no segment is under way, and a pause only says where it goes on
  | pausing duration after =>
      have hidle : l.point.work? = none := by
        rw [hpoint]
        rfl
      unfold incidents step
      rw [hpoint]
      cases after with
      | reload =>
          cases g with
          | timePassed => exact leads_idles h hidle ⟨l.failures, _, rfl, rfl⟩
          | cancelled => exact leads_idles h hidle (idles_ended l)
          | _ => exact leads_stays h
      | round =>
          cases g with
          | timePassed => exact leads_round cfg h hidle
          | cancelled => exact leads_idles h hidle (idles_ended l)
          | _ => exact leads_stays h
  | reloading =>
      have hidle : l.point.work? = none := by
        rw [hpoint]
        rfl
      unfold incidents step
      rw [hpoint]
      cases g with
      | playlist text => exact leads_reloaded cfg h hidle text hg
      | cancelled => exact leads_idles h hidle (idles_ended l)
      | _ => exact leads_stays h
  | crashed =>
      unfold incidents step
      rw [hpoint]
      exact leads_stays h
  | ended fatal =>
      unfold incidents step
      rw [hpoint]
      exact leads_stays h

/-- The incidents of a run are a path. -/
private theorem path_incidentsOf (cfg : FetchSettings) (h : l.Sound) (given : List Given)
    (hgiven : ∀ g ∈ given, g.Numbers) :
    ∃ after : FetchLoop, Standing.Path l.standing (l.incidentsOf cfg given) after.standing := by
  induction given generalizing l with
  | nil => exact ⟨l, .stay _⟩
  | cons g later ih =>
      obtain ⟨hpath, hsound⟩ := leads_step cfg h g (hgiven g List.mem_cons_self)
      obtain ⟨after, hlater⟩ := ih hsound fun g' hg' => hgiven g' (List.mem_cons_of_mem g hg')
      exact ⟨after, hpath.append hlater⟩

/-- What happens in a whole run is a path. -/
theorem path_chronicle (cfg : FetchSettings) (address : Url) {initial : Media}
    (hinitial : Numbered initial.segments) {given : List Given}
    (hgiven : ∀ g ∈ given, g.Numbers) :
    ∃ after : FetchLoop,
      Standing.Path .unopened (chronicle cfg address initial given) after.standing := by
  obtain ⟨hpath, hsound⟩ := leads_takes cfg (l := blank address initial) rfl hinitial
  obtain ⟨after, hlater⟩ := path_incidentsOf cfg hsound given hgiven
  exact ⟨after, hpath.append hlater⟩

end FetchLoop

end VideoWall.Playback
