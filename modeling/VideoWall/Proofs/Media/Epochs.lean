/-
Epochs of a media element: which writes it can still take, and what an
element without a source looks like.

# Two facts about elements

- `Knows e k`: the element had a source at epoch `k`. That stays so
  whatever happens to the element, and it is what an engine or a decoder
  that was attached at `k` can rely on. An element that has no source at
  its present epoch knows that epoch no more, so whoever was attached
  before finds his writes refused.
- `Clean e`: an element without a source has no frame, does not play, and
  says so. Every change of an element keeps it clean, except that who
  writes that video plays, or how it is doing, has to know his epoch: the
  writes of an element that never had a source are not checked by the
  epoch alone, as it is nought on both sides.

Together they give the law of detached elements: a detached element of a
clean past is off (`off_detach`), and stays as it is whoever of the past
writes to it (`Off.after_eq`).
-/
import VideoWall.Media.Element

namespace VideoWall.Media.Element

variable {e : Element} {k : Nat} {w : Write}

-- ======================================================== the predicates

/-- The element had a source at epoch `k`. -/
structure Knows (e : Element) (k : Nat) : Prop where
  le : k ≤ e.epoch
  source : k = e.epoch → e.source.isSome = true

/-- What lies about when there is no source: nothing of an old one. -/
structure Clean (e : Element) : Prop where
  frame : e.source = none → e.frame = none
  playing : e.source = none → e.playing = false
  status : e.source = none → e.overlay = .none → e.status = "idle"

/-- Nothing is shown and nothing plays. -/
structure Off (e : Element) : Prop where
  source : e.source = none
  frame : e.frame = none
  playing : e.playing = false
  overlay : e.overlay = .none
  status : e.status = "idle"

/-- The writes that do not speak of video that is there. -/
def Write.isNotice : Write → Bool
  | .error _ | .playPrompt => true
  | _ => false

-- ============================================================== writes

/-- A write never changes the epoch. -/
@[simp]
theorem epoch_after (e : Element) (k : Nat) (w : Write) : (e.after k w).epoch = e.epoch := by
  unfold after write
  split
  · cases w <;> rfl
  · rfl

/-- A write never changes the source. -/
@[simp]
theorem source_after (e : Element) (k : Nat) (w : Write) : (e.after k w).source = e.source := by
  unfold after write
  split
  · cases w <;> rfl
  · rfl

/-- A write for another epoch changes nothing. -/
theorem after_of_ne (h : e.epoch ≠ k) : e.after k w = e := by
  have hrefused : e.accepts k w = false := by
    cases w <;> simp [accepts, h]
  unfold after write
  rw [hrefused]
  rfl

/-- A write for the present epoch is taken, unless it is a frame. -/
theorem after_of_eq (h : e.epoch = k) (hw : ∀ width height rgb, w ≠ .frame width height rgb) :
    e.after k w = e.apply w := by
  have htaken : e.accepts k w = true := by
    cases w with
    | frame width height rgb => exact absurd rfl (hw width height rgb)
    | _ => simp [accepts, h]
  unfold after write
  rw [htaken]
  rfl

/-- A frame changes neither what plays nor what lies over it. -/
theorem after_frame (e : Element) (k width height : Nat) (rgb : Array UInt8) :
    (e.after k (.frame width height rgb)).playing = e.playing
      ∧ (e.after k (.frame width height rgb)).overlay = e.overlay := by
  unfold after write
  split
  · exact ⟨rfl, rfl⟩
  · exact ⟨rfl, rfl⟩

-- =============================================== epochs once with source

/-- A writer's knowledge of its epoch outlives every write. -/
theorem Knows.after (h : e.Knows k) (j : Nat) (w : Write) : (e.after j w).Knows k := by
  refine ⟨?_, ?_⟩
  · rw [epoch_after]
    exact h.le
  · rw [epoch_after, source_after]
    exact h.source

theorem Knows.setSource (h : e.Knows k) (url : Url) : (e.setSource url).Knows k :=
  ⟨Nat.le_succ_of_le h.le, fun _ => rfl⟩

theorem Knows.refreshSource (h : e.Knows k) (url : Url) : (e.refreshSource url).Knows k :=
  ⟨Nat.le_succ_of_le h.le, fun _ => rfl⟩

/-- A detach takes the source away only with a new epoch, so what was
known stays known. -/
theorem Knows.detach (h : e.Knows k) : e.detach.Knows k := by
  unfold Element.detach
  split
  · exact h
  · have hlt : k < e.epoch + 1 := Nat.lt_succ_of_le h.le
    exact ⟨Nat.le_of_lt hlt, fun heq => absurd heq (Nat.ne_of_lt hlt)⟩

-- ======================================================= clean elements

theorem clean_idle : idle.Clean := ⟨fun _ => rfl, fun _ => rfl, fun _ _ => rfl⟩

/-- With a source there is nothing to ask for. -/
theorem clean_of_source (h : e.source.isSome = true) : e.Clean := by
  have hne : e.source ≠ none := Option.isSome_iff_ne_none.1 h
  exact ⟨fun hs => absurd hs hne, fun hs => absurd hs hne, fun hs => absurd hs hne⟩

/-- A notice leaves an element clean, whoever writes it. -/
theorem Clean.notice (h : e.Clean) (k : Nat) (hw : w.isNotice = true) : (e.after k w).Clean := by
  by_cases hk : e.epoch = k
  · cases w with
    | error message =>
        rw [after_of_eq hk (fun _ _ _ => by simp)]
        exact ⟨h.frame, fun _ => rfl, fun _ ho => by cases ho⟩
    | playPrompt =>
        rw [after_of_eq hk (fun _ _ _ => by simp)]
        exact ⟨h.frame, fun _ => rfl, fun _ ho => by cases ho⟩
    | playing _ | status _ | frame _ _ _ => cases hw
  · rw [after_of_ne hk]
    exact h

/-- Who knows his epoch may write anything: either he is late, or there
is a source. -/
theorem Clean.after (h : e.Clean) (hk : e.Knows k) (w : Write) : (e.after k w).Clean := by
  by_cases he : e.epoch = k
  · refine clean_of_source ?_
    rw [source_after]
    exact hk.source he.symm
  · rw [after_of_ne he]
    exact h

-- ===================================================== detached elements

private theorem Off.isDetached (h : e.Off) : e.isDetached = true := by
  simp [Element.isDetached, h.source, h.frame, h.overlay, h.playing]

private theorem Off.clean (h : e.Off) : e.Clean :=
  ⟨fun _ => h.frame, fun _ => h.playing, fun _ _ => h.status⟩

/-- A detached element of a clean past is off: if the detach found nothing
to do, the status was idle already. -/
theorem off_detach (h : e.Clean) : e.detach.Off := by
  unfold detach
  split
  case isTrue hd =>
    simp only [isDetached, Bool.and_eq_true, Option.isNone_iff_eq_none, decide_eq_true_eq,
      Bool.not_eq_true'] at hd
    obtain ⟨⟨⟨hs, hf⟩, ho⟩, hp⟩ := hd
    exact ⟨hs, hf, hp, ho, h.status hs ho⟩
  case isFalse => exact ⟨rfl, rfl, rfl, rfl, rfl⟩

theorem Clean.detach (h : e.Clean) : e.detach.Clean := (off_detach h).clean

/-- To detach an element that is off does nothing. -/
theorem Off.detach_eq (h : e.Off) : e.detach = e := by
  unfold Element.detach
  rw [if_pos h.isDetached]

/-- Whoever wrote for an epoch with a source writes in vain to an element
that is off. -/
theorem Off.after_eq (h : e.Off) (hk : e.Knows k) (w : Write) : e.after k w = e := by
  refine after_of_ne fun he => ?_
  have hs := hk.source he.symm
  rw [h.source] at hs
  cases hs

end VideoWall.Media.Element
