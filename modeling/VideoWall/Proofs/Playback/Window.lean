/-
Where a loop stands in the window of its stream.

# Semantics

The window is what the newest playlist lists, from its first segment to its
live edge. A loop that has read a playlist goes on with the number that it
wants: it attempts that segment if the window has it, and waits if the
window ends before it.

# Main statement

`FetchLoop.position_of_reload`: whenever a playlist with segments has been
read again, the number wanted is not before the window; if it is in the
window its segment is attempted at once; and it is at most the next one
behind the window, as long as no playlist so far has gone further than this
one. A window that starts again at lower numbers is not noticed
(`FetchLoop.left_behind`): a loop looks at the lower end of the window only
and waits for the numbers to come up to the one that it wants.

# The invariant

`FetchLoop.Bounded top`: no segment that the loop knows of is beyond `top`,
and the number wanted is at most the next one. Each step keeps it
(`bounded_step`) unless it reads a playlist that goes beyond.
-/
import VideoWall.Proofs.Playback.Account
import VideoWall.Proofs.Playback.Order

namespace VideoWall.Playback

open Playlist Recorder Transport

variable {top edge n : Nat} {p : Media} {s : Segment} {left : List Segment}

-- =============================================================== live edges

/-- No segment of a playlist is beyond a number. -/
def EndsBy (top : Nat) (segments : List Segment) : Prop := ∀ s ∈ segments, s.sequence ≤ top

theorem EndsBy.tail (h : EndsBy top (s :: left)) : EndsBy top left :=
  fun t ht => h t (List.mem_cons_of_mem s ht)

/-- Numbered segments end by the last one. -/
private theorem endsBy_getLast {segments : List Segment} (h : Numbered segments)
    (hne : segments ≠ []) : EndsBy (segments.getLast hne).sequence segments := by
  induction segments with
  | nil => exact absurd rfl hne
  | cons s left ih =>
      intro t ht
      rcases List.mem_cons.1 ht with rfl | ht
      · exact h.le_getLast hne
      · have hleft : left ≠ [] := List.ne_nil_of_mem ht
        rw [List.getLast_cons hleft]
        exact ih h.tail hleft t ht

/-- Numbered segments end by the live edge. -/
private theorem endsBy_liveEdge (h : Numbered p.segments) (hedge : p.liveEdge? = some edge) :
    EndsBy edge p.segments := by
  obtain ⟨last, hlast, rfl⟩ := Option.map_eq_some_iff.1 hedge
  obtain ⟨hne, rfl⟩ := List.mem_getLast?_eq_getLast hlast
  exact endsBy_getLast h hne

/-- The live edge is not past the end. -/
theorem liveEdge?_le (h : EndsBy top p.segments) (hedge : p.liveEdge? = some edge) :
    edge ≤ top := by
  obtain ⟨last, hlast, rfl⟩ := Option.map_eq_some_iff.1 hedge
  exact h last (List.mem_of_getLast? hlast)

namespace FetchLoop

variable {cfg : FetchSettings} {l l' : FetchLoop} {address : Url} {initial : Media}
  {given : List Given} {text : List Char}

-- =============================================================== invariant

/-- All that a loop knows of is within a number, and it wants at most the
next one. -/
structure Bounded (top : Nat) (l : FetchLoop) : Prop where
  next : ∀ n, l.next = some n → n ≤ top + 1
  listed : EndsBy top l.playlist.segments
  work : ∀ s left, l.point.work? = some (s, left) → EndsBy top (s :: left)

/-- A loop that comes to idle stays bounded. -/
theorem Bounded.of_idles (h : l.Bounded top) (hidle : l.Idles l') : l'.Bounded top := by
  obtain ⟨failures, point, rfl, hpoint⟩ := hidle
  refine ⟨h.next, h.listed, fun s left hwork => ?_⟩
  rw [hpoint] at hwork
  cases hwork

/-- The loop gets on with its segment. -/
theorem Bounded.of_work (h : l.Bounded top) (hwork : l.point.work? = some (s, left)) {point : Point}
    (hpoint : point.work? = some (s, left)) : Bounded top { l with point } := by
  refine ⟨h.next, h.listed, fun s' left' hwork' => ?_⟩
  rw [hpoint] at hwork'
  cases hwork'
  exact h.work s left hwork

/-- A loop that plays stays bounded. -/
theorem Bounded.play (cfg : FetchSettings) (h : l.Bounded top) (hleft : EndsBy top left) :
    (l.play cfg left).Bounded top := by
  have hahead : EndsBy top (l.ahead left) := by
    unfold ahead
    split
    · nofun
    · exact fun s hs => hleft s ((List.dropWhile_sublist _).subset hs)
  rw [play_eq]
  generalize l.ahead left = rest at hahead
  cases rest with
  | nil => exact h.of_idles (idles_rest l)
  | cons s rest =>
      unfold tries
      dsimp only
      split
      · exact h.of_idles (idles_fail cfg l _ _)
      · refine ⟨h.next, h.listed, fun s' left' hwork => ?_⟩
        cases hwork
        exact hahead

/-- After a segment the next number is at most the one behind the bound. -/
theorem Bounded.played (cfg : FetchSettings) (h : l.Bounded top)
    (hwork : l.point.work? = some (s, left)) : (l.played cfg s left).Bounded top := by
  have hends := h.work s left hwork
  have hbounded : Bounded top { l with failures := 0, next := some (s.sequence + 1) } := by
    refine ⟨?_, h.listed, h.work⟩
    rintro n ⟨⟩
    exact Nat.succ_le_succ (hends s List.mem_cons_self)
  exact hbounded.play cfg hends.tail

/-- A loop that takes a segment stays bounded. -/
private theorem Bounded.takeSegment (cfg : FetchSettings) (h : l.Bounded top)
    (hwork : l.point.work? = some (s, left)) (bytes : Except Failure (List UInt8)) :
    (l.takeSegment cfg s left bytes).Bounded top := by
  unfold FetchLoop.takeSegment
  split
  · exact h.of_idles (idles_fail cfg l _ _)
  · split
    · exact h.of_idles (idles_fail cfg l _ _)
    · exact h.played cfg hwork
    case h_3 units hne _ =>
      split
      · exact h.of_idles ⟨l.failures, _, rfl, rfl⟩
      · unfold feed
        split
        · exact h.played cfg hwork
        · exact h.of_work hwork rfl

/-- What a playlist makes of the number that is wanted is at most the one
behind the bound. -/
theorem nextIn_le (hp : EndsBy top p.segments) {next : Option Nat}
    (hnext : ∀ n, next = some n → n ≤ top + 1) (hn : nextIn next p = some n) : n ≤ top + 1 := by
  have hedge : p.liveEdge? = some n → n ≤ top + 1 :=
    fun h => Nat.le_succ_of_le (liveEdge?_le hp h)
  unfold nextIn at hn
  split at hn
  · split at hn
    · exact hedge hn
    · exact hnext n hn
  · exact hnext n hn
  · exact hedge hn

/-- A loop that takes a playlist stays bounded when the playlist ends by the
bound. -/
private theorem Bounded.takePlaylist (cfg : FetchSettings) (h : l.Bounded top)
    (text : Except Failure (List Char))
    (htext : ∀ q ∈ playlists (l.reloaded text), EndsBy top q.segments) :
    (l.takePlaylist cfg text).Bounded top := by
  unfold reloaded at htext
  unfold FetchLoop.takePlaylist
  cases text with
  | error f => exact h.of_idles (idles_fail cfg l _ _)
  | ok text =>
      dsimp only at htext ⊢
      cases hparse : parse text with
      | error e => exact h.of_idles (idles_fail cfg l _ _)
      | ok playlist =>
          cases playlist with
          | master variants => exact h.of_idles (idles_fail cfg l _ _)
          | media p =>
              rw [hparse] at htext
              have hp : EndsBy top p.segments := htext p List.mem_cons_self
              have hbounded : Bounded top { l with playlist := p, next := nextIn l.next p } :=
                ⟨fun n hn => nextIn_le hp h.next hn, hp, h.work⟩
              exact hbounded.play cfg hp

/-- A step keeps the bound, unless it reads a playlist that goes beyond. -/
theorem Bounded.step (cfg : FetchSettings) (h : l.Bounded top) (g : Given)
    (hg : ∀ q ∈ playlists (l.incidents g), EndsBy top q.segments) :
    (l.step cfg g).Bounded top := by
  -- whatever ends the loop leaves its playlist and number alone
  have hended : Bounded top { l with point := .ended none } := h.of_idles (idles_ended l)
  unfold incidents at hg
  unfold FetchLoop.step
  cases hpoint : l.point with
  | fetching s address left =>
      have hwork : l.point.work? = some (s, left) := by
        rw [hpoint]
        rfl
      cases g with
      | segment bytes => exact h.takeSegment cfg hwork bytes
      | cancelled => exact hended
      | _ => exact h
  | feeding s spacing u units left =>
      have hwork : l.point.work? = some (s, left) := by
        rw [hpoint]
        rfl
      cases g with
      | taken t =>
          rcases t with _ | _ | _
          · exact h.of_work hwork rfl
          · exact h.of_idles (idles_fail cfg l _ _)
          · exact hended
      | cancelled => exact hended
      | _ => exact h
  | spacing s spacing units left =>
      have hwork : l.point.work? = some (s, left) := by
        rw [hpoint]
        rfl
      cases g with
      | timePassed =>
          cases units with
          | nil => exact h.played cfg hwork
          | cons u units => exact h.of_work hwork rfl
      | cancelled => exact hended
      | _ => exact h
  | pausing duration next =>
      cases g with
      | timePassed =>
          cases next with
          | reload => exact h.of_idles ⟨l.failures, _, rfl, rfl⟩
          | round => exact h.play cfg h.listed
      | cancelled => cases next <;> exact hended
      | _ => cases next <;> exact h
  | reloading =>
      rw [hpoint] at hg
      cases g with
      | playlist text => exact h.takePlaylist cfg text hg
      | cancelled => exact hended
      | _ => exact h
  | crashed | ended fatal => exact h

/-- A loop stays bounded as long as all its playlists end by the bound. -/
theorem Bounded.after (cfg : FetchSettings) (h : l.Bounded top) (given : List Given)
    (hgiven : ∀ q ∈ playlists (l.incidentsOf cfg given), EndsBy top q.segments) :
    (l.after cfg given).Bounded top := by
  induction given generalizing l with
  | nil => exact h
  | cons g later ih =>
      rw [incidentsOf, playlists, List.filterMap_append] at hgiven
      have hstep := h.step cfg g fun q hq => hgiven q (List.mem_append_left _ hq)
      exact ih hstep fun q hq => hgiven q (List.mem_append_right _ hq)

/-- A whole run stays within what bounds all playlists that it has read. -/
theorem bounded_run (cfg : FetchSettings) (address : Url) (initial : Media) (given : List Given)
    (htop : ∀ q ∈ playlists (chronicle cfg address initial given), EndsBy top q.segments) :
    ((start cfg address initial).after cfg given).Bounded top := by
  have hinitial : EndsBy top initial.segments := htop initial List.mem_cons_self
  have hfresh : (fresh address initial).Bounded top :=
    ⟨fun n hn => Nat.le_succ_of_le (liveEdge?_le hinitial hn), hinitial, nofun⟩
  have hstart : (start cfg address initial).Bounded top := hfresh.play cfg hinitial
  refine hstart.after cfg given fun q hq => htop q ?_
  rw [chronicle, playlists, List.filterMap_append]
  exact List.mem_append_right _ hq

-- ================================================================ reloads

/-- A loop that comes to idle wants what it wanted. -/
private theorem Idles.next_eq (hidle : l.Idles l') : l'.next = l.next := by
  obtain ⟨failures, point, rfl, -⟩ := hidle
  rfl

/-- To go on with a round does not change what is wanted. -/
private theorem play_next (cfg : FetchSettings) (l : FetchLoop) (left : List Segment) :
    (l.play cfg left).next = l.next := by
  rw [play_eq]
  cases l.ahead left with
  | nil => exact (idles_rest l).next_eq
  | cons s rest =>
      unfold tries
      dsimp only
      split
      · exact (idles_fail cfg l _ _).next_eq
      · rfl

/-- A round over a window that has the number wanted attempts it. -/
private theorem begins_within (hn : l.next = some n) (hp : Numbered p.segments)
    (hstart : startsPast p.segments n = false) (hedge : p.liveEdge? = some edge) (hle : n ≤ edge) :
    ∃ later, l.begins p.segments = .attempt n :: later := by
  obtain ⟨last, hlast, rfl⟩ := Option.map_eq_some_iff.1 hedge
  have hne : l.ahead p.segments ≠ [] := by
    rw [ahead, hn]
    intro hnil
    have hpassed := List.dropWhile_eq_nil_iff.1 hnil last (List.mem_of_getLast? hlast)
    exact absurd hle (Nat.not_le.2 (of_decide_eq_true hpassed))
  obtain ⟨s, rest, hahead⟩ := List.exists_cons_of_ne_nil hne
  have hnumber : s.sequence = n := by
    rw [ahead, hn] at hahead
    exact (hp.dropWhile hstart hahead).1
  exact hnumber ▸ begins_of_ahead hahead

/-- A round over a window that ends before the number wanted attempts
nothing. -/
private theorem begins_beyond (hn : l.next = some n) (hends : EndsBy edge left) (hlt : edge < n) :
    l.begins left = [] := by
  have hahead : l.ahead left = [] := by
    rw [ahead, hn]
    exact List.dropWhile_eq_nil_iff.2 fun s hs =>
      decide_eq_true (Nat.lt_of_le_of_lt (hends s hs) hlt)
  rw [begins, hahead]

/-- A playlist with segments leaves a number wanted: one that its window does
not begin after, and either its live edge or what was wanted before. -/
private theorem nextIn_window (next : Option Nat) (hp : Numbered p.segments)
    (hedge : p.liveEdge? = some edge) :
    ∃ n, nextIn next p = some n ∧ startsPast p.segments n = false ∧ (n = edge ∨ next = some n) := by
  cases next with
  | none => exact ⟨edge, hedge, hp.not_startsPast_liveEdge hedge, Or.inl rfl⟩
  | some m =>
      refine ⟨p.wanted m, nextIn_some m p, not_startsPast_wanted hp m, ?_⟩
      cases hpast : startsPast p.segments m with
      | true =>
          have hwanted := liveEdge?_of_startsPast hpast
          rw [hedge] at hwanted
          exact Or.inl (Option.some.inj hwanted).symm
      | false => exact Or.inr (by rw [wanted_of_not_startsPast hpast])

/-- Where a loop stands when it has read a playlist with segments again. The
number that it wants is not before the window. If the window has it, its
segment is attempted at once, and if not, the loop waits for it. It is at
most the next one behind the window if no playlist so far has gone further;
beyond that the loop holds on to what it wanted before. -/
theorem position_of_reload (cfg : FetchSettings) (address : Url) (initial : Media)
    (given : List Given) {text : List Char}
    (hpoint : ((start cfg address initial).after cfg given).point = .reloading)
    (hparse : parse text = .ok (.media p)) (hp : Numbered p.segments)
    (hedge : p.liveEdge? = some edge) :
    ∃ n, (((start cfg address initial).after cfg given).step cfg (.playlist (.ok text))).next
        = some n
      ∧ (∀ s, p.segments.head? = some s → s.sequence ≤ n)
      ∧ (n ≤ edge → ∃ later,
        ((start cfg address initial).after cfg given).incidents (.playlist (.ok text))
          = .playlist p :: .attempt n :: later)
      ∧ (edge < n →
        ((start cfg address initial).after cfg given).incidents (.playlist (.ok text))
          = [.playlist p])
      ∧ ((∀ q ∈ playlists (chronicle cfg address initial given),
          ∀ s ∈ q.segments, s.sequence ≤ edge) → n ≤ edge + 1)
      ∧ (edge + 1 < n → ((start cfg address initial).after cfg given).next = some n) := by
  have hbounded : (∀ q ∈ playlists (chronicle cfg address initial given), EndsBy edge q.segments) →
      ((start cfg address initial).after cfg given).Bounded edge :=
    bounded_run cfg address initial given
  generalize (start cfg address initial).after cfg given = l at hpoint hbounded
  -- the new position depends on the old one and the playlist alone
  obtain ⟨n, hn, hstart, hwanted⟩ := nextIn_window l.next hp hedge
  have hstep : (l.step cfg (.playlist (.ok text))).next = some n := by
    unfold FetchLoop.step FetchLoop.takePlaylist
    rw [hpoint]
    dsimp only
    rw [hparse]
    exact (play_next cfg _ p.segments).trans hn
  have hincidents : l.incidents (.playlist (.ok text))
      = .playlist p :: { l with playlist := p, next := nextIn l.next p }.begins p.segments := by
    unfold incidents reloaded
    rw [hpoint]
    dsimp only
    rw [hparse]
    rfl
  refine ⟨n, hstep, ?_, ?_, ?_, ?_, ?_⟩
  · intro s hs
    simpa [startsPast, hs] using hstart
  · intro hle
    obtain ⟨later, hlater⟩ := begins_within (l := { l with playlist := p, next := nextIn l.next p })
      hn hp hstart hedge hle
    exact ⟨later, by rw [hincidents, hlater]⟩
  · intro hlt
    rw [hincidents, begins_beyond hn (endsBy_liveEdge hp hedge) hlt]
  · intro hall
    exact nextIn_le (endsBy_liveEdge hp hedge) (hbounded hall).next hn
  · intro hlt
    rcases hwanted with rfl | hwanted
    · omega
    · exact hwanted

/-- The newest segment of the yard is not to be had, and it is time to read
the playlist again. -/
def yardMissed : List Given := [.segment (.error (.timeout "f.ts")), .timePassed]

/-- The window of the yard when it has moved on, and one that starts again. -/
def yardNext : List Char := "#EXTM3U\n#EXT-X-MEDIA-SEQUENCE:6\n#EXTINF:2,\nf\n#EXTINF:2,\ng".toList

/-- The playlist of the yard, which has begun anew. -/
def yardAgain : List Char := "#EXTM3U\n#EXTINF:2,\na\n#EXTINF:2,\nb".toList

/-- The segment that was missed is still in the window and is attempted. -/
theorem position_of_reload_of_yard :
    ∃ p n, parse yardNext = .ok (.media p)
      ∧ (((start {} yardAddress yard).after {} yardMissed).step {} (.playlist (.ok yardNext))).next
        = some n
      ∧ n ≤ 8 ∧ ∃ later,
        ((start {} yardAddress yard).after {} yardMissed).incidents (.playlist (.ok yardNext))
          = .playlist p :: .attempt n :: later := by
  obtain ⟨x, y, a, b, hparse⟩ : ∃ x y a b, parse yardNext
      = .ok (.media ⟨x, y, [⟨"f", a, 6⟩, ⟨"g", b, 7⟩], false⟩) := ⟨_, _, _, _, rfl⟩
  have hread : (playlists (chronicle {} yardAddress yard yardMissed)).all
      (fun q => q.segments.all (·.sequence ≤ 7)) = true := by decide +kernel
  obtain ⟨n, hnext, -, hwithin, -, hbound, -⟩ := position_of_reload {} yardAddress yard yardMissed
    rfl hparse (List.isChain_pair.2 rfl) rfl
  have hle : n ≤ 8 := hbound fun q hq s hs => by
    have hall := List.all_eq_true.1 (List.all_eq_true.1 hread q hq) s hs
    exact of_decide_eq_true hall
  have hwanted : (((start {} yardAddress yard).after {} yardMissed).step {}
      (.playlist (.ok yardNext))).next = some 6 := by decide +kernel
  obtain rfl : n = 6 := Option.some.inj (hnext.symm.trans hwanted)
  exact ⟨_, 6, hparse, hnext, hle, hwithin (show 6 ≤ 7 by decide)⟩

/-- A window that starts again is not noticed: the number wanted is far
behind it, and nothing is attempted. -/
theorem left_behind :
    ∃ p, parse yardAgain = .ok (.media p) ∧ Numbered p.segments ∧ p.liveEdge? = some 1
      ∧ (((start {} yardAddress yard).after {} yardMissed).step {} (.playlist (.ok yardAgain))).next
        = some 6
      ∧ attempts (((start {} yardAddress yard).after {} yardMissed).incidents
          (.playlist (.ok yardAgain))) = [] :=
  ⟨_, rfl, List.isChain_pair.2 rfl, rfl, by decide +kernel, by decide +kernel⟩

end FetchLoop

end VideoWall.Playback
