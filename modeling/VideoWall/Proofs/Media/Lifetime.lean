/-
The life of a media element: everything that its holders do to it, in
any order, each with whatever epoch it believes in.

# What can happen

A holder points the element at a source, re-issues the source, detaches
the element, or writes to it for some epoch (`Deed`). A list of deeds is
a life of the element that nothing has happened to (`idle.live`). In a
life one counts the deeds of some kind, each as the element stood when
it came (`tally`): those that began a new epoch (`begins`) and those
that showed a frame (`shows`).

# Main statement

`epoch_discipline`: whatever the life was, the epoch is the number of
epochs begun, and a write is taken just when it is for that epoch; what
is refused changes nothing. Nothing lies over an element that plays. A
frame that is on screen has the number of the last frame shown, and it
stayed there through refreshes of the source alone
(`OnlyRefreshed`).

# Why it holds

Each deed keeps what an element shows well formed (`Composed`), adds to
the counts what it changes (`epoch_perform`, `frameSeq_perform`), and
either leaves the frame on screen alone or replaces it or takes it away
(`frame_perform`). The rest is induction on the life, the last deed
last.
-/
import Mathlib.Data.List.Induction
import VideoWall.Proofs.Media.Epochs

namespace VideoWall.Media.Element

-- =============================================================== deeds

/-- What a holder of an element does to it. -/
inductive Deed where
  | setSource (url : Url)
  | refreshSource (url : Url)
  | detach
  | write (epoch : Nat) (w : Write)

/-- A write that shows a frame. -/
def Write.isFrame : Write → Bool
  | .frame _ _ _ => true
  | _ => false

variable {e : Element} {d : Deed} {deeds later : List Deed} {f : Frame}

/-- The element after a deed. -/
def perform (e : Element) : Deed → Element
  | .setSource url => e.setSource url
  | .refreshSource url => e.refreshSource url
  | .detach => e.detach
  | .write k w => e.after k w

/-- The element after several deeds. -/
def live (e : Element) (deeds : List Deed) : Element := deeds.foldl perform e

/-- Whether a deed begins a new epoch. To detach an element begins one
unless there is nothing to drop. -/
def begins (e : Element) : Deed → Bool
  | .setSource _ | .refreshSource _ => true
  | .detach => !e.isDetached
  | .write _ _ => false

/-- Whether a deed shows a frame. -/
def shows (e : Element) : Deed → Bool
  | .write k w => w.isFrame && e.accepts k w
  | _ => false

/-- How many deeds are of a kind, each judged when it comes. -/
def tally (kind : Element → Deed → Bool) (e : Element) : List Deed → Nat
  | [] => 0
  | d :: later => (kind e d).toNat + tally kind (e.perform d) later

/-- No epoch begins but by a refresh of the source. -/
def OnlyRefreshed (e : Element) : List Deed → Prop
  | [] => True
  | d :: later =>
      (e.begins d = true → ∃ url, d = .refreshSource url) ∧ (e.perform d).OnlyRefreshed later

@[simp]
theorem live_append (e : Element) (deeds later : List Deed) :
    e.live (deeds ++ later) = (e.live deeds).live later :=
  List.foldl_append ..

/-- What two lives in a row count is counted in each. -/
theorem tally_append (kind : Element → Deed → Bool) (e : Element) (deeds later : List Deed) :
    e.tally kind (deeds ++ later) = e.tally kind deeds + (e.live deeds).tally kind later := by
  induction deeds generalizing e with
  | nil => exact (Nat.zero_add _).symm
  | cons d rest ih =>
      show (kind e d).toNat + tally kind (e.perform d) (rest ++ later) = _
      rw [ih, ← Nat.add_assoc]
      rfl

theorem OnlyRefreshed.append (h : e.OnlyRefreshed deeds)
    (hlater : (e.live deeds).OnlyRefreshed later) : e.OnlyRefreshed (deeds ++ later) := by
  induction deeds generalizing e with
  | nil => exact hlater
  | cons d rest ih => exact ⟨h.1, ih h.2 hlater⟩

-- ============================================================== writes

/-- A write is taken just for the present epoch, and a frame needs a
source to belong to. -/
theorem write_taken_iff (e : Element) (k : Nat) (w : Write) :
    (e.write k w).2 = true
      ↔ k = e.epoch ∧ (w.isFrame = true → e.source.isSome = true) := by
  unfold write
  cases w with
  | frame width height rgb =>
      by_cases hk : e.epoch = k
      · cases hs : e.source with
        | none => simp [accepts, Write.isFrame, hs]
        | some url => simp [accepts, Write.isFrame, hk, hs]
      · simp [accepts, hk, Ne.symm hk]
  | _ =>
      by_cases hk : e.epoch = k
      · simp [accepts, Write.isFrame, hk]
      · simp [accepts, hk, Ne.symm hk]

/-- A write that is refused changes nothing. -/
private theorem write_refused {k : Nat} {w : Write} (h : (e.write k w).2 = false) :
    (e.write k w).1 = e := by
  unfold write at h ⊢
  split
  case isTrue htaken =>
    rw [if_pos htaken] at h
    cases h
  case isFalse => rfl

-- ============================================================ detaching

/-- A detach finds nothing to drop, or drops it all. -/
theorem detach_cases (e : Element) :
    (e.isDetached = true ∧ e.detach = e)
      ∨ (e.isDetached = false ∧ e.detach
          = { epoch := e.epoch + 1, frameSeq := e.frameSeq, muted := e.muted }) := by
  unfold detach
  cases h : e.isDetached with
  | true => exact Or.inl ⟨rfl, if_pos rfl⟩
  | false => exact Or.inr ⟨rfl, if_neg (by simp)⟩

/-- To detach an element once more does nothing. -/
private theorem detach_detach (e : Element) : e.detach.detach = e.detach := by
  have hdetached : e.detach.isDetached = true := by
    rcases detach_cases e with ⟨hd, hsame⟩ | ⟨-, hdropped⟩
    · rw [hsame, hd]
    · rw [hdropped]
      rfl
  rcases detach_cases e.detach with ⟨-, hsame⟩ | ⟨hnot, -⟩
  · exact hsame
  · rw [hdetached] at hnot
    cases hnot

/-- A detach changes an element just when it begins a new epoch. -/
theorem begins_detach_iff (e : Element) : e.begins .detach = true ↔ e.detach ≠ e := by
  unfold begins
  rcases detach_cases e with ⟨hd, hsame⟩ | ⟨hd, hdropped⟩
  · simp [hd, hsame]
  · have hepoch : e.detach.epoch = e.epoch + 1 := by rw [hdropped]
    refine ⟨fun _ hsame => ?_, fun _ => by simp [hd]⟩
    rw [hsame] at hepoch
    omega

-- ============================================================ one deed

/-- A write is taken, or leaves the element as it was. -/
theorem after_cases (e : Element) (k : Nat) (w : Write) :
    (e.accepts k w = true ∧ e.after k w = e.apply w)
      ∨ (e.accepts k w = false ∧ e.after k w = e) := by
  unfold after write
  cases h : e.accepts k w with
  | true => exact Or.inl ⟨rfl, rfl⟩
  | false => exact Or.inr ⟨rfl, rfl⟩

/-- The epoch is counted up by the deeds that begin one. -/
theorem epoch_perform (e : Element) (d : Deed) :
    (e.perform d).epoch = e.epoch + (e.begins d).toNat := by
  cases d with
  | setSource url => rfl
  | refreshSource url => rfl
  | detach =>
      show e.detach.epoch = e.epoch + (!e.isDetached).toNat
      rcases detach_cases e with ⟨hd, hsame⟩ | ⟨hd, hdropped⟩
      · rw [hsame, hd]
        rfl
      · rw [hdropped, hd]
        rfl
  | write k w => exact epoch_after e k w

/-- Frames are counted up as they are shown. -/
theorem frameSeq_perform (e : Element) (d : Deed) :
    (e.perform d).frameSeq = e.frameSeq + (e.shows d).toNat := by
  cases d with
  | setSource url => rfl
  | refreshSource url => rfl
  | detach =>
      show e.detach.frameSeq = e.frameSeq
      rcases detach_cases e with ⟨-, hsame⟩ | ⟨-, hdropped⟩
      · rw [hsame]
      · rw [hdropped]
  | write k w =>
      show (e.after k w).frameSeq = e.frameSeq + (w.isFrame && e.accepts k w).toNat
      rcases after_cases e k w with ⟨htaken, happlied⟩ | ⟨hrefused, hsame⟩
      · rw [htaken, happlied]
        cases w with
        | _ => rfl
      · rw [hrefused, hsame, Bool.and_false]
        rfl

/-- What is on screen after a deed: the frame that was there before, if every
epoch that begins is a refresh; or a frame that was shown just now. -/
theorem frame_perform (h : (e.perform d).frame = some f) :
    (e.frame = some f ∧ e.shows d = false
        ∧ (e.begins d = true → ∃ url, d = .refreshSource url))
      ∨ (d = .write f.epoch (.frame f.width f.height f.rgb) ∧ e.shows d = true
        ∧ f.epoch = e.epoch ∧ f.seq = e.frameSeq + 1) := by
  cases d with
  | setSource url => cases h
  | refreshSource url => exact Or.inl ⟨h, rfl, fun _ => ⟨url, rfl⟩⟩
  | detach =>
      have hframe : e.detach.frame = some f := h
      rcases detach_cases e with ⟨hd, hsame⟩ | ⟨-, hdropped⟩
      · rw [hsame] at hframe
        exact Or.inl ⟨hframe, rfl, fun hbegins => by simp [begins, hd] at hbegins⟩
      · rw [hdropped] at hframe
        cases hframe
  | write k w =>
      have hframe : (e.after k w).frame = some f := h
      rcases after_cases e k w with ⟨htaken, happlied⟩ | ⟨hrefused, hsame⟩
      · rw [happlied] at hframe
        cases w with
        | frame width height rgb =>
            cases hframe
            have hk : e.epoch = k := by
              simp only [accepts, Bool.and_eq_true, decide_eq_true_eq] at htaken
              exact htaken.1
            refine Or.inr ⟨?_, ?_, rfl, rfl⟩
            · rw [hk]
            · rw [shows, htaken]
              rfl
        | _ => exact Or.inl ⟨hframe, rfl, fun hbegins => by cases hbegins⟩
      · rw [hsame] at hframe
        exact Or.inl ⟨hframe, by simp [shows, hrefused], fun hbegins => by cases hbegins⟩

/-- What is shown fits together: nothing lies over what plays, and a frame has
a source and the latest number. -/
structure Composed (e : Element) : Prop where
  playing : e.playing = true → e.overlay = .none
  frame : ∀ f, e.frame = some f →
    e.source.isSome = true ∧ f.epoch ≤ e.epoch ∧ f.seq = e.frameSeq

/-- A fresh element is composed. -/
theorem composed_idle : idle.Composed := by
  refine ⟨fun h => ?_, fun f h => ?_⟩
  · cases h
  · cases h

/-- No deed leaves an element that plays under an overlay. -/
theorem playing_perform (h : e.playing = true → e.overlay = .none) (d : Deed) :
    (e.perform d).playing = true → (e.perform d).overlay = .none := by
  cases d with
  | setSource url => exact fun _ => rfl
  | refreshSource url => exact h
  | detach =>
      show e.detach.playing = true → e.detach.overlay = .none
      rcases detach_cases e with ⟨-, hsame⟩ | ⟨-, hdropped⟩
      · rw [hsame]
        exact h
      · rw [hdropped]
        exact fun _ => rfl
  | write k w =>
      show (e.after k w).playing = true → (e.after k w).overlay = .none
      rcases after_cases e k w with ⟨-, happlied⟩ | ⟨-, hsame⟩
      · rw [happlied]
        cases w with
        | playing muted => exact fun _ => rfl
        | error message =>
            intro hp
            cases hp
        | playPrompt =>
            intro hp
            cases hp
        | status text => exact h
        | frame width height rgb => exact h
      · rw [hsame]
        exact h

/-- A source goes only together with the frame. -/
theorem source_perform (hs : e.source.isSome = true) (hf : (e.perform d).frame = some f) :
    (e.perform d).source.isSome = true := by
  cases d with
  | setSource url => rfl
  | refreshSource url => rfl
  | detach =>
      have hframe : e.detach.frame = some f := hf
      show e.detach.source.isSome = true
      rcases detach_cases e with ⟨-, hsame⟩ | ⟨-, hdropped⟩
      · rw [hsame]
        exact hs
      · rw [hdropped] at hframe
        cases hframe
  | write k w =>
      show (e.after k w).source.isSome = true
      rw [source_after]
      exact hs

/-- Every deed leaves what is shown fitting together. -/
theorem Composed.perform (h : e.Composed) (d : Deed) : (e.perform d).Composed := by
  refine ⟨playing_perform h.playing d, fun f hf => ?_⟩
  rw [epoch_perform, frameSeq_perform]
  rcases frame_perform hf with ⟨hold, hshows, -⟩ | ⟨rfl, hshows, hepoch, hseq⟩
  · obtain ⟨hs, hle, hseq⟩ := h.frame f hold
    refine ⟨source_perform hs hf, by omega, ?_⟩
    rw [hshows, hseq]
    rfl
  · have hs : e.source.isSome = true := by
      have htaken : e.accepts f.epoch (.frame f.width f.height f.rgb) = true := hshows
      simp only [accepts, Bool.and_eq_true] at htaken
      exact htaken.2
    refine ⟨source_perform hs hf, by omega, ?_⟩
    rw [hshows, hseq]
    rfl

-- ================================================================ lives

/-- An element lives through its deeds one by one. -/
private theorem live_append_singleton (e : Element) (deeds : List Deed) (d : Deed) :
    e.live (deeds ++ [d]) = (e.live deeds).perform d := live_append e deeds [d]

/-- The epoch counts the beginnings. -/
theorem epoch_live (e : Element) (deeds : List Deed) :
    (e.live deeds).epoch = e.epoch + e.tally begins deeds := by
  induction deeds generalizing e with
  | nil => rfl
  | cons d rest ih =>
      show ((e.perform d).live rest).epoch = _
      rw [ih, epoch_perform, Nat.add_assoc]
      rfl

/-- The frame number counts the frames shown. -/
private theorem frameSeq_live (e : Element) (deeds : List Deed) :
    (e.live deeds).frameSeq = e.frameSeq + e.tally shows deeds := by
  induction deeds generalizing e with
  | nil => rfl
  | cons d rest ih =>
      show ((e.perform d).live rest).frameSeq = _
      rw [ih, frameSeq_perform, Nat.add_assoc]
      rfl

/-- An element stays composed through all that is done with it. -/
theorem Composed.live (h : e.Composed) (deeds : List Deed) : (e.live deeds).Composed := by
  induction deeds generalizing e with
  | nil => exact h
  | cons d rest ih => exact ih (h.perform d)

/-- A frame on screen was shown by one of the deeds, no frame was shown after
it, and since then the source was only refreshed. -/
private theorem shown_before (hf : (idle.live deeds).frame = some f) :
    ∃ before later, deeds = before ++ .write f.epoch (.frame f.width f.height f.rgb) :: later
      ∧ (idle.live before).shows (.write f.epoch (.frame f.width f.height f.rgb)) = true
      ∧ ((idle.live before).perform (.write f.epoch (.frame f.width f.height f.rgb))).tally
          shows later = 0
      ∧ ((idle.live before).perform
          (.write f.epoch (.frame f.width f.height f.rgb))).OnlyRefreshed later := by
  induction deeds using List.reverseRecOn with
  | nil => cases hf
  | append_singleton deeds d ih =>
      rw [live_append_singleton] at hf
      rcases frame_perform hf with ⟨hold, hshows, honly⟩ | ⟨rfl, hshows, -, -⟩
      · obtain ⟨before, later, rfl, hshown, hnone, hkept⟩ := ih hold
        -- the deed comes after all of `later`
        have hhere : idle.live (before ++ .write f.epoch (.frame f.width f.height f.rgb) :: later)
            = ((idle.live before).perform
                (.write f.epoch (.frame f.width f.height f.rgb))).live later := by
          rw [live_append]
          rfl
        rw [hhere] at hshows honly
        refine ⟨before, later ++ [d], by simp, hshown, ?_, hkept.append ⟨honly, trivial⟩⟩
        rw [tally_append, hnone, tally, hshows]
        rfl
      · exact ⟨deeds, [], rfl, hshows, rfl, trivial⟩

-- ======================================================= the discipline

/-- What is promised of an element `e` that has lived through some deeds.

- `epoch`: its epoch is the number of epochs begun.
- `taken`, `refused`: a write is taken just when it is for that epoch, and
  there is a source if it shows a frame; otherwise nothing changes.
- `composed`: nothing lies over what plays, and a frame has a source, an epoch
  that was, and the latest number.
- `shown`, `rises`: that number counts the frames shown, and never falls.
- `kept`: since a frame was shown, no other was, and every epoch that began
  was a refresh of the source.
- `detach`, `detached`: to detach twice is to detach once, and a detach that
  begins no epoch changes nothing. -/
structure Disciplined (deeds : List Deed) (e : Element) : Prop where
  epoch : e.epoch = idle.tally begins deeds
  taken : ∀ k w, (e.write k w).2 = true
    ↔ k = idle.tally begins deeds ∧ (w.isFrame = true → e.source.isSome = true)
  refused : ∀ k w, (e.write k w).2 = false → (e.write k w).1 = e
  composed : e.Composed
  shown : e.frameSeq = idle.tally shows deeds
  rises : ∀ later, e.frameSeq ≤ (e.live later).frameSeq
  kept : ∀ f, e.frame = some f →
    ∃ before later, deeds = before ++ .write f.epoch (.frame f.width f.height f.rgb) :: later
      ∧ (idle.live before).shows (.write f.epoch (.frame f.width f.height f.rgb)) = true
      ∧ ((idle.live before).perform (.write f.epoch (.frame f.width f.height f.rgb))).tally
          shows later = 0
      ∧ ((idle.live before).perform
          (.write f.epoch (.frame f.width f.height f.rgb))).OnlyRefreshed later
  detach : e.detach.detach = e.detach
  detached : e.begins .detach = true ↔ e.detach ≠ e

/-- Whatever the holders of an element do to it, in whatever order and for
whatever epochs, it keeps the discipline of epochs. -/
theorem epoch_discipline (deeds : List Deed) : Disciplined deeds (idle.live deeds) := by
  -- the element began with epoch nought, so the epoch is the count
  have hepoch : (idle.live deeds).epoch = idle.tally begins deeds :=
    (epoch_live idle deeds).trans (Nat.zero_add _)
  refine
    { epoch := hepoch
      taken := fun k w => ?_
      refused := fun k w => write_refused
      composed := composed_idle.live deeds
      shown := (frameSeq_live idle deeds).trans (Nat.zero_add _)
      rises := fun later => ?_
      kept := fun f hf => shown_before hf
      detach := detach_detach _
      detached := begins_detach_iff _ }
  · rw [write_taken_iff, hepoch]
  · rw [frameSeq_live (idle.live deeds)]
    exact Nat.le_add_right _ _

/-- A frame stays on screen through a refresh, and what comes late for its
epoch is refused. -/
example :
    (idle.live [.setSource default, .write 1 (.frame 1 1 #[]), .refreshSource default]).frame
        = some ⟨1, 1, 1, 1, #[]⟩
      ∧ ((idle.live [.setSource default, .write 1 (.frame 1 1 #[]),
          .refreshSource default]).write 1 (.playing true)).2 = false := by
  decide

end VideoWall.Media.Element
