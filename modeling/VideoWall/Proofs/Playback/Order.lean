/-
The order in which the segments of a stream are played.

# Semantics

`FetchLoop.chronicle` tells what happens to segments in a run, and what
playlists are read. `InOrder` is what is promised of it: where a stream
opens, that numbers only rise, what follows a segment that was played,
and what becomes of one that failed.

# Main statement

`FetchLoop.segments_in_order`: whatever the outside gives, as long as each
playlist numbers its segments one after the other, the chronicle of the
run is in order. Each promise is read off the path that the chronicle is
(`FetchLoop.path_chronicle`); along a path, the number that is wanted
changes only with a segment that was played and with a playlist
(`Standing.Path.wants`).
-/
import VideoWall.Proofs.Playback.Incidents
import VideoWall.Proofs.Transport.Muxing

namespace VideoWall.Playback

open Playlist Recorder Transport

-- ============================================================== accounts

/-- The segments that were attempted. -/
def attempts (t : List Incident) : List Nat :=
  t.filterMap fun
    | .attempt n => some n
    | _ => none

/-- The segments that were played. -/
def playedNumbers (t : List Incident) : List Nat :=
  t.filterMap fun
    | .played n => some n
    | _ => none

/-- The playlists that were read. -/
def playlists (t : List Incident) : List Media :=
  t.filterMap fun
    | .playlist p => some p
    | _ => none

/-- Segments are taken in order.

- `opens`: the first attempt is at the live edge of the first playlist that
  has segments.
- `increases`: what is played has rising numbers.
- `goesOn`: after segment `a` the next one played is `a + 1`, and no playlist
  in between begins after it; or some playlist in between begins after the
  number wanted by then, and the last such one leads to its live edge.
- `retries`: a segment that failed is attempted again before any later one,
  unless a playlist in between begins after it. -/
structure InOrder (t : List Incident) : Prop where
  opens : (attempts t).head?
    = ((playlists t).find? fun p => !p.segments.isEmpty).bind Media.liveEdge?
  increases : (playedNumbers t).Pairwise (· < ·)
  goesOn : ∀ before mid after a b,
    t = before ++ .played a :: (mid ++ .played b :: after) → playedNumbers mid = [] →
    (b = a + 1 ∧ ∀ p ∈ playlists mid, startsPast p.segments (a + 1) = false)
      ∨ ∃ earlier p later, playlists mid = earlier ++ p :: later
          ∧ startsPast p.segments (wantedAfter (a + 1) earlier) = true
          ∧ p.liveEdge? = some b
          ∧ ∀ q ∈ later, startsPast q.segments b = false
  retries : ∀ before mid after n k,
    t = before ++ .failed n :: (mid ++ .attempt k :: after) → n < k →
    Incident.attempt n ∈ mid ∨ ∃ p ∈ playlists mid, startsPast p.segments n = true

-- ================================================================= paths

namespace Standing

variable {a b c : Standing} {t : List Incident} {i : Incident} {n : Nat}

/-- The number that is wanted. -/
def wants? : Standing → Option Nat
  | .unopened => none
  | .opening n | .between n | .trying n => some n

/-- The number that is wanted stays, but for a segment that was played and
for playlists. -/
private theorem Path.wants (h : Path a t b) (hn : a.wants? = some n)
    (hplayed : playedNumbers t = []) : b.wants? = some (wantedAfter n (playlists t)) := by
  induction h generalizing n with
  | stay a => exact hn
  | step hgoes _ ih =>
      cases hgoes with
      | silent hp => cases hn
      | opens hedge => cases hn
      | first edge => exact ih hn hplayed
      | attempt m => exact ih hn hplayed
      | reads m hp =>
          cases hn
          exact ih rfl hplayed
      | played m => cases hplayed
      | failed m => exact ih hn hplayed
      | dropped m => exact ih hn hplayed

/-- The number that is wanted never falls. -/
private theorem Goes.wants_le (h : a.Goes i b) : a.wants?.getD 0 ≤ b.wants?.getD 0 := by
  cases h with
  | silent hp => exact Nat.le_refl _
  | opens hedge => exact Nat.zero_le _
  | first edge => exact Nat.le_refl _
  | attempt m => exact Nat.le_refl _
  | reads m hp => exact le_wanted hp m
  | played m => exact Nat.le_succ m
  | failed m => exact Nat.le_refl _
  | dropped m => exact Nat.le_refl _

/-- What is played has rising numbers, from the one that is wanted. -/
private theorem Path.increases (h : Path a t b) :
    (∀ n ∈ playedNumbers t, a.wants?.getD 0 ≤ n) ∧ (playedNumbers t).Pairwise (· < ·) := by
  induction h with
  | stay a => exact ⟨by simp [playedNumbers], List.Pairwise.nil⟩
  | @step a b c i later hgoes _ ih =>
      obtain ⟨hfloor, hrising⟩ := ih
      have hle := hgoes.wants_le
      have hrest : ∀ n ∈ playedNumbers later, a.wants?.getD 0 ≤ n :=
        fun n hn => Nat.le_trans hle (hfloor n hn)
      cases hgoes with
      | played m =>
          refine ⟨?_, List.Pairwise.cons hfloor hrising⟩
          intro n hn
          rcases List.mem_cons.1 hn with rfl | hn
          · exact Nat.le_refl _
          · exact hrest n hn
      | _ => exact ⟨hrest, hrising⟩

/-- The first attempt is at the live edge of the first playlist that has
segments. -/
private theorem Path.opens (h : Path a t b) (ha : a = .unopened) (hb : ∀ edge, b ≠ .opening edge) :
    (attempts t).head?
      = ((playlists t).find? fun p => !p.segments.isEmpty).bind Media.liveEdge? := by
  induction h with
  | stay a => rfl
  | @step a b c i later hgoes hlater ih =>
      subst ha
      cases hgoes with
      | @silent p hp =>
          have hskip : (playlists (.playlist p :: later)).find? (fun p => !p.segments.isEmpty)
              = (playlists later).find? fun p => !p.segments.isEmpty := by
            show List.find? _ (p :: playlists later) = _
            rw [List.find?_cons_of_neg (by simp [hp])]
          rw [hskip]
          exact ih rfl hb
      | @opens p edge hedge =>
          have hne : p.segments ≠ [] := by
            intro hnil
            rw [Media.liveEdge?, hnil] at hedge
            cases hedge
          have hfirst : (playlists (.playlist p :: later)).find? (fun p => !p.segments.isEmpty)
              = some p := by
            show List.find? _ (p :: playlists later) = _
            rw [List.find?_cons_of_pos (by simp [hne])]
          rw [hfirst, Option.bind_some, hedge]
          -- only the attempt at the edge follows an opening
          cases hlater with
          | stay => exact absurd rfl (hb edge)
          | step hattempt _ =>
              cases hattempt
              rfl

/-- Unless a segment is attempted or the window goes past it, it stays the
one to attempt next. -/
private theorem Path.retries (h : Path a t b) (ha : a = .between n)
    (hattempt : Incident.attempt n ∉ t)
    (hwindow : ∀ p ∈ playlists t, startsPast p.segments n = false) : b = .between n := by
  induction h with
  | stay a => exact ha
  | @step a b c i later hgoes _ ih =>
      subst ha
      cases hgoes with
      | attempt m => exact absurd List.mem_cons_self hattempt
      | @reads p m hp =>
          have hkept := wanted_of_not_startsPast (hwindow p List.mem_cons_self)
          refine ih (by rw [hkept]) (fun hmem => hattempt (List.mem_cons_of_mem _ hmem)) ?_
          exact fun q hq => hwindow q (List.mem_cons_of_mem _ hq)

/-- A path to where no stream is just opening is in order. -/
private theorem Path.inOrder (h : Path .unopened t b) (hb : ∀ edge, b ≠ .opening edge) :
    InOrder t where
  opens := h.opens rfl hb
  increases := h.increases.2
  goesOn := by
    rintro before mid after m k rfl hmid
    obtain ⟨s, -, hm⟩ := h.split
    cases hm with
    | step hplayed hrest =>
        cases hplayed
        obtain ⟨s', hpath, hk⟩ := hrest.split
        -- between the two attempts the position follows the playlists read
        have hwants := hpath.wants rfl hmid
        cases hk with
        | step hgoes _ =>
            cases hgoes
            cases hwants
            exact wantedAfter_cases (m + 1) (playlists mid)
  retries := by
    rintro before mid after m k rfl hlt
    obtain ⟨s, -, hm⟩ := h.split
    cases hm with
    | step hfailed hrest =>
        cases hfailed
        obtain ⟨s', hpath, hk⟩ := hrest.split
        by_cases hattempt : Incident.attempt m ∈ mid
        · exact Or.inl hattempt
        -- had no window started past `m`, the loop would still stand at `m`
        · refine Or.inr (Classical.byContradiction fun hnone => ?_)
          have hwindow : ∀ p ∈ playlists mid, startsPast p.segments m = false :=
            fun p hp => Bool.eq_false_iff.2 fun hpast => hnone ⟨p, hp, hpast⟩
          obtain rfl := hpath.retries rfl hattempt hwindow
          cases hk with
          | step hgoes _ =>
              cases hgoes
              exact Nat.lt_irrefl _ hlt

end Standing

-- ================================================================== runs

namespace FetchLoop

/-- A loop that waits is past its opening. -/
private theorem standing_ne_opening (l : FetchLoop) (edge : Nat) : l.standing ≠ .opening edge := by
  unfold standing
  cases l.next with
  | none => intro h; cases h
  | some n =>
      dsimp only
      split
      · intro h; cases h
      · intro h; cases h

/-- Whatever becomes of the segments and of the playlist, segments are taken
in order, if each playlist numbers them one after the other. -/
theorem segments_in_order (cfg : FetchSettings) (address : Url) (initial : Media)
    (given : List Given) (hinitial : Numbered initial.segments)
    (hgiven : ∀ g ∈ given, g.Numbers) : InOrder (chronicle cfg address initial given) := by
  obtain ⟨after, hpath⟩ := path_chronicle cfg address hinitial hgiven
  exact hpath.inOrder after.standing_ne_opening

/-- Two segments to begin with, and the address of the stream. -/
def yard : Media := ⟨2, 5, [⟨"e.ts", 2, 5⟩, ⟨"f.ts", 2, 6⟩], false⟩

/-- The address of the playlist of the yard. -/
def yardAddress : Url :=
  { scheme := "http".toList, host := some (.domain "nvr".toList), path := .segments [[]] }

/-- A window that has moved on. -/
def yardLater : List Char :=
  "#EXTM3U\n#EXT-X-MEDIA-SEQUENCE:8\n#EXTINF:2,\nh.ts\n#EXTINF:2,\ni.ts".toList

/-- The first segment is not to be had, and by then the window has moved on. -/
def yardRun : List Given :=
  [.segment (.error (.timeout "f.ts")), .timePassed, .playlist (.ok yardLater),
    .segment (.ok (mux ⟨256, by decide⟩ ⟨257, by decide⟩ []))]

private theorem numbers_yardRun : ∀ g ∈ yardRun, g.Numbers := by
  intro g hg
  simp only [yardRun, List.mem_cons, List.not_mem_nil, or_false] at hg
  rcases hg with rfl | rfl | rfl | rfl
  · trivial
  · trivial
  · intro p hp
    obtain ⟨x, y, a, b, hparse⟩ : ∃ x y a b, parse yardLater
        = .ok (.media ⟨x, y, [⟨"h.ts", a, 8⟩, ⟨"i.ts", b, 9⟩], false⟩) := ⟨_, _, _, _, rfl⟩
    rw [hparse] at hp
    cases hp
    exact List.isChain_pair.2 rfl
  · trivial

theorem segments_in_order_of_jump :
    attempts (chronicle {} yardAddress yard yardRun) = [6, 9]
      ∧ playedNumbers (chronicle {} yardAddress yard yardRun) = [9]
      ∧ InOrder (chronicle {} yardAddress yard yardRun) := by
  refine ⟨by decide +kernel, by decide +kernel, ?_⟩
  exact segments_in_order {} yardAddress yard yardRun (List.isChain_pair.2 rfl) numbers_yardRun

end FetchLoop

end VideoWall.Playback
