/-
Live windows: the segments that a playlist lists, numbered one after the
other, seen from a number that somebody wants to go on with.
-/
import Mathlib.Data.List.Chain
import Mathlib.Data.List.TakeWhile
import VideoWall.Playlist.Basic

namespace VideoWall.Playlist

/-- Segments numbered one after the other. -/
def Numbered (segments : List Segment) : Prop :=
  segments.IsChain fun s t => t.sequence = s.sequence + 1

/-- Whether segments begin after a number, so that the segment of that
number is among them no more. -/
def startsPast (segments : List Segment) (n : Nat) : Bool :=
  segments.head?.any (n < ·.sequence)

/-- The number to go on with when `n` was wanted and a playlist is read. -/
def Media.wanted (p : Media) (n : Nat) : Nat :=
  if startsPast p.segments n then p.liveEdge?.getD n else n

/-- The number to go on with after several playlists. -/
def wantedAfter (n : Nat) (playlists : List Media) : Nat :=
  playlists.foldl (fun n p => p.wanted n) n

variable {segments left : List Segment} {s : Segment} {p : Media} {n : Nat}

/-- What follows numbered segments is numbered. -/
theorem Numbered.tail (h : Numbered (s :: left)) : Numbered left :=
  List.IsChain.of_cons h

/-- A window starts past a number when its first segment does. -/
theorem startsPast_cons : startsPast (s :: left) n = true ↔ n < s.sequence := by
  simp [startsPast]

theorem not_startsPast_succ (h : startsPast segments n = false) :
    startsPast segments (n + 1) = false := by
  cases segments with
  | nil => rfl
  | cons s left =>
      have hle : s.sequence ≤ n := by simpa [startsPast] using h
      simpa [startsPast] using Nat.le_succ_of_le hle

/-- After a segment the next one is the next number. -/
theorem Numbered.not_startsPast_tail (h : Numbered (s :: left)) :
    startsPast left (s.sequence + 1) = false := by
  cases left with
  | nil => rfl
  | cons t rest =>
      have hnext : t.sequence = s.sequence + 1 := (List.isChain_cons_cons.1 h).1
      simp [startsPast, hnext]

/-- Among numbered segments that do not begin after a number, the first one
that is not before it is the segment of that number. -/
theorem Numbered.dropWhile (h : Numbered segments) (hn : startsPast segments n = false)
    (hdrop : segments.dropWhile (·.sequence < n) = s :: left) :
    s.sequence = n ∧ Numbered (s :: left) := by
  induction segments with
  | nil => cases hdrop
  | cons t rest ih =>
      have hle : t.sequence ≤ n := by simpa [startsPast] using hn
      by_cases hlt : t.sequence < n
      · rw [List.dropWhile_cons_of_pos (by simpa using hlt)] at hdrop
        refine ih h.tail ?_ hdrop
        cases rest with
        | nil => rfl
        | cons u rest =>
            have hnext : u.sequence = t.sequence + 1 := (List.isChain_cons_cons.1 h).1
            have hule : u.sequence ≤ n := by omega
            simpa [startsPast] using hule
      · rw [List.dropWhile_cons_of_neg (by simpa using hlt)] at hdrop
        cases hdrop
        exact ⟨Nat.le_antisymm hle (Nat.le_of_not_lt hlt), h⟩

/-- The newest of numbered segments has no smaller number than the oldest. -/
theorem Numbered.le_getLast (h : Numbered (s :: left)) (hne : s :: left ≠ []) :
    s.sequence ≤ ((s :: left).getLast hne).sequence := by
  induction left generalizing s with
  | nil => exact Nat.le_refl _
  | cons t rest ih =>
      have hnext : t.sequence = s.sequence + 1 := (List.isChain_cons_cons.1 h).1
      have hlast := ih h.tail (by simp)
      rw [List.getLast_cons (by simp)]
      omega

/-- A playlist with segments has a live edge, the number of the last one. -/
theorem liveEdge?_eq (hp : p.segments = s :: left) :
    p.liveEdge? = some ((s :: left).getLast (by simp)).sequence := by
  rw [Media.liveEdge?, hp, List.getLast?_eq_some_getLast (by simp), Option.map_some]

/-- A playlist does not begin after its live edge. -/
theorem Numbered.not_startsPast_liveEdge (h : Numbered p.segments) {edge : Nat}
    (hedge : p.liveEdge? = some edge) : startsPast p.segments edge = false := by
  cases hp : p.segments with
  | nil => rfl
  | cons s left =>
      rw [hp] at h
      rw [liveEdge?_eq hp] at hedge
      cases hedge
      simpa [startsPast] using h.le_getLast (by simp)

/-- A round up to the live edge finds it. -/
theorem dropWhile_liveEdge {edge : Nat} (hedge : p.liveEdge? = some edge) :
    p.segments.dropWhile (·.sequence < edge) ≠ [] := by
  cases hp : p.segments with
  | nil =>
      rw [Media.liveEdge?, hp] at hedge
      cases hedge
  | cons s left =>
      rw [liveEdge?_eq hp] at hedge
      cases hedge
      intro hnil
      rw [List.dropWhile_eq_nil_iff] at hnil
      have hlast := hnil _ (List.getLast_mem (by simp))
      simp at hlast

/-- To read a playlist never leads back. -/
theorem le_wanted (h : Numbered p.segments) (n : Nat) : n ≤ p.wanted n := by
  unfold Media.wanted
  split
  case isFalse => exact Nat.le_refl n
  case isTrue hpast =>
      cases hp : p.segments with
      | nil =>
          rw [hp] at hpast
          cases hpast
      | cons s left =>
          rw [hp] at h hpast
          have hlast := h.le_getLast (by simp)
          rw [startsPast_cons] at hpast
          rw [liveEdge?_eq hp, Option.getD_some]
          omega

/-- A playlist that begins after the number wanted leads to its live edge. -/
theorem liveEdge?_of_startsPast (hpast : startsPast p.segments n = true) :
    p.liveEdge? = some (p.wanted n) := by
  cases hp : p.segments with
  | nil =>
      rw [hp] at hpast
      cases hpast
  | cons s left =>
      rw [Media.wanted, if_pos hpast, liveEdge?_eq hp, Option.getD_some]

/-- A number that has not been left behind is wanted as it is. -/
theorem wanted_of_not_startsPast (h : startsPast p.segments n = false) : p.wanted n = n := by
  rw [Media.wanted, if_neg (by simp [h])]

/-- Whatever was wanted, a playlist does not begin after what is wanted then. -/
theorem not_startsPast_wanted (h : Numbered p.segments) (n : Nat) :
    startsPast p.segments (p.wanted n) = false := by
  cases hpast : startsPast p.segments n with
  | false => rw [wanted_of_not_startsPast hpast, hpast]
  | true =>
      have hedge := liveEdge?_of_startsPast hpast
      exact h.not_startsPast_liveEdge hedge

/-- Either no playlist begins after the number wanted, and it stays; or the
last one that begins after the number wanted by then leads to its live
edge, and that stays. -/
theorem wantedAfter_cases (n : Nat) (playlists : List Media) :
    (wantedAfter n playlists = n ∧ ∀ p ∈ playlists, startsPast p.segments n = false)
      ∨ ∃ earlier p later, playlists = earlier ++ p :: later
          ∧ startsPast p.segments (wantedAfter n earlier) = true
          ∧ p.liveEdge? = some (wantedAfter n playlists)
          ∧ ∀ q ∈ later, startsPast q.segments (wantedAfter n playlists) = false := by
  induction playlists generalizing n with
  | nil => exact Or.inl ⟨rfl, by simp⟩
  | cons p rest ih =>
      have hrest : wantedAfter n (p :: rest) = wantedAfter (p.wanted n) rest := rfl
      rcases ih (p.wanted n) with ⟨hsame, hnone⟩ | ⟨earlier, q, later, hsplit, hpast, hedge, hlater⟩
      · cases hp : startsPast p.segments n with
        | true =>
            refine Or.inr ⟨[], p, rest, rfl, hp, ?_, ?_⟩
            · rw [hrest, hsame]
              exact liveEdge?_of_startsPast hp
            · rw [hrest, hsame]
              exact hnone
        | false =>
            have hwanted := wanted_of_not_startsPast hp
            rw [hwanted] at hsame hnone
            refine Or.inl ⟨?_, ?_⟩
            · rw [hrest, hwanted, hsame]
            · intro q hq
              rcases List.mem_cons.1 hq with rfl | hq
              · exact hp
              · exact hnone q hq
      · refine Or.inr ⟨p :: earlier, q, later, ?_, hpast, ?_, ?_⟩
        · rw [hsplit, List.cons_append]
        · rw [hrest]
          exact hedge
        · rw [hrest]
          exact hlater

end VideoWall.Playlist
