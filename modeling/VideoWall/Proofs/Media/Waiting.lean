/-
Waiting for a frame, while others have their hands on the element.

# The steps of a wait

Somebody who waits subscribes to announcements, looks at the element, and
then listens: for an announcement, after which he looks again, or for his
deadline, at which he gives up (`FrameWait.Stage.step`). To start to wait
and to poll a wait is to take these steps with nothing in between
(`stage_start`, `stage_poll`).

# What comes in between

Between two steps anything may happen (`Scene.Event`): deeds of other
holders of the element, and time. To show a frame takes two deeds, for the
frame is written first and announced later, by a holder who can be held up
in between; so a look may find a frame that nobody has heard of, and an
announcement may be of a frame that is there no more.

# Why no frame is missed

He subscribes before he looks. So a frame that a look does not find is
written after that look and announced after that, which leaves him with an
announcement that he has not heard (`Roused`): he does not give up then,
he looks. And while the epoch lasts, so does its frame
(`Element.HasFrameOf.perform`).
-/
import Mathlib.Data.List.Induction
import VideoWall.Proofs.Media.Lifetime

namespace VideoWall.Media

open Element (Deed)

-- ==================================================== frames of an epoch

namespace Element

variable {e : Element} {d : Deed} {k : Nat}

/-- The element is in an epoch and shows a frame of it. -/
def HasFrameOf (e : Element) (k : Nat) : Prop :=
  e.epoch = k ∧ ∃ f, e.frame = some f ∧ f.epoch = k

/-- A look finds the frame exactly when one of the epoch has been shown. -/
theorem checkFrame_arrived_iff : e.checkFrame k = .arrived ↔ e.HasFrameOf k := by
  unfold checkFrame HasFrameOf
  split
  case isTrue hepoch => simp [hepoch]
  case isFalse hepoch =>
    have hsame : e.epoch = k := by simpa using hepoch
    cases hf : e.frame with
    | none => simp
    | some f => simp [hsame]

/-- A frame that is taken is there. -/
theorem hasFrameOf_shown {width height : Nat} {rgb : Array UInt8}
    (h : e.accepts k (.frame width height rgb) = true) :
    (e.perform (.write k (.frame width height rgb))).HasFrameOf k := by
  have hepoch : e.epoch = k := by
    simp only [accepts, Bool.and_eq_true, decide_eq_true_eq] at h
    exact h.1
  show (e.after k _).HasFrameOf k
  rcases after_cases e k (.frame width height rgb) with ⟨-, happlied⟩ | ⟨hrefused, -⟩
  · rw [happlied]
    exact ⟨hepoch, _, rfl, hepoch⟩
  · rw [h] at hrefused
    cases hrefused

/-- While the epoch lasts, there is a frame of it. -/
theorem HasFrameOf.perform (h : e.HasFrameOf k) (hepoch : (e.perform d).epoch = k) :
    (e.perform d).HasFrameOf k := by
  refine ⟨hepoch, ?_⟩
  obtain ⟨hsame, f, hf, hk⟩ := h
  rw [epoch_perform, hsame] at hepoch
  cases d with
  | setSource url => simp [begins] at hepoch
  | refreshSource url => simp [begins] at hepoch
  | detach =>
      show ∃ f, e.detach.frame = some f ∧ f.epoch = k
      rcases detach_cases e with ⟨-, hleft⟩ | ⟨hdrops, -⟩
      · rw [hleft]
        exact ⟨f, hf, hk⟩
      · simp [begins, hdrops] at hepoch
  | write n w =>
      show ∃ f, (e.after n w).frame = some f ∧ f.epoch = k
      rcases after_cases e n w with ⟨-, happlied⟩ | ⟨-, hleft⟩
      · rw [happlied]
        cases w with
        | frame width height rgb => exact ⟨_, rfl, hsame⟩
        | _ => exact ⟨f, hf, hk⟩
      · rw [hleft]
        exact ⟨f, hf, hk⟩

/-- A frame of the epoch comes only by being shown. -/
theorem HasFrameOf.shown (h : (e.perform d).HasFrameOf k) (hnot : ¬ e.HasFrameOf k)
    (hcomposed : e.Composed) :
    ∃ width height rgb, d = .write k (.frame width height rgb)
      ∧ e.accepts k (.frame width height rgb) = true := by
  obtain ⟨hepoch, f, hf, rfl⟩ := h
  rcases frame_perform hf with ⟨hold, -, -⟩ | ⟨hd, hshows, -, -⟩
  · -- an older frame of this epoch would be ahead of the element
    have hpast := (hcomposed.frame f hold).2.1
    rw [epoch_perform] at hepoch
    exact absurd ⟨by omega, f, hold, rfl⟩ hnot
  · refine ⟨_, _, _, hd, ?_⟩
    rw [hd] at hshows
    exact hshows

end Element

-- ================================================================ steps

namespace FrameWait

/-- What has been heard is heard once. -/
theorem notified_seen (w : FrameWait) (announced : Nat) :
    FrameWait.notified { w with seen := announced } announced = false := by
  simp [notified]

/-- How far a wait has come: about to look, listening, or answered at some
time. -/
inductive Stage where
  | looking (w : FrameWait)
  | listening (w : FrameWait)
  | answered (answer : Bool) (time : Nat)

namespace Stage

/-- The next step of a wait at time `now`. -/
def step (now : Nat) (e : Element) (announced : Nat) : Stage → Stage
  | looking w =>
      match e.checkFrame w.epoch with
      | .arrived => answered true now
      | .superseded => answered false now
      | .waiting => listening w
  | listening w =>
      if w.notified announced then looking { w with seen := announced }
      else if w.deadline ≤ now then answered false now
      else listening w
  | answered answer time => answered answer time

/-- Where a wait stands that has been polled. -/
def ofPoll (now : Nat) : FrameWait ⊕ Bool → Stage
  | .inl w => listening w
  | .inr answer => answered answer now

/-- Whether the waiter has not been answered yet. -/
def isOpen : Stage → Bool
  | answered _ _ => false
  | _ => true

variable {w : FrameWait} {now announced time : Nat} {e : Element} {answer : Bool}

theorem step_looking_arrived (h : e.HasFrameOf w.epoch) :
    (looking w).step now e announced = answered true now := by
  simp only [step, Element.checkFrame_arrived_iff.2 h]

theorem step_listening_heard (h : w.notified announced = true) :
    (listening w).step now e announced = looking { w with seen := announced } := if_pos h

theorem step_listening_late (h : w.notified announced = false) (hlate : w.deadline ≤ now) :
    (listening w).step now e announced = answered false now := by
  simp [step, h, hlate]

theorem step_listening_idle (h : w.notified announced = false) (hlate : ¬ w.deadline ≤ now) :
    (listening w).step now e announced = listening w := by
  simp [step, h, hlate]

/-- A step that says yes is a look that finds the frame. -/
theorem step_yes {s : Stage} (hopen : s.isOpen = true)
    (h : s.step now e announced = answered true time) :
    now = time ∧ ∃ w, s = looking w ∧ e.HasFrameOf w.epoch := by
  cases s with
  | looking w =>
      cases hlook : e.checkFrame w.epoch with
      | arrived =>
          simp only [step, hlook, answered.injEq, true_and] at h
          exact ⟨h, w, rfl, Element.checkFrame_arrived_iff.1 hlook⟩
      | superseded => simp [step, hlook] at h
      | waiting => simp [step, hlook] at h
  | listening w =>
      cases hheard : w.notified announced with
      | true => simp [step_listening_heard hheard] at h
      | false =>
          by_cases hlate : w.deadline ≤ now
          · simp [step_listening_late hheard hlate] at h
          · simp [step_listening_idle hheard hlate] at h
  | answered answer time => cases hopen

/-- He waits for the epoch and until the deadline that he began with, and has
heard of no more than was announced. -/
def KeepsTo (epoch deadline announced : Nat) : Stage → Prop
  | looking w | listening w => w.epoch = epoch ∧ w.deadline = deadline ∧ w.seen ≤ announced
  | answered _ _ => True

variable {s : Stage} {epoch deadline : Nat}

theorem KeepsTo.mono {later : Nat} (h : s.KeepsTo epoch deadline announced)
    (hlater : announced ≤ later) : s.KeepsTo epoch deadline later := by
  cases s with
  | looking w => exact ⟨h.1, h.2.1, Nat.le_trans h.2.2 hlater⟩
  | listening w => exact ⟨h.1, h.2.1, Nat.le_trans h.2.2 hlater⟩
  | answered answer time => trivial

/-- A step of the waiter keeps its epoch and its deadline. -/
theorem KeepsTo.step (h : s.KeepsTo epoch deadline announced) (now : Nat) (e : Element) :
    (s.step now e announced).KeepsTo epoch deadline announced := by
  cases s with
  | looking w =>
      cases hlook : e.checkFrame w.epoch with
      | waiting =>
          simp only [Stage.step, hlook]
          exact h
      | _ => simp [Stage.step, hlook, KeepsTo]
  | listening w =>
      cases hheard : w.notified announced with
      | true =>
          rw [step_listening_heard hheard]
          exact ⟨h.1, h.2.1, Nat.le_refl _⟩
      | false =>
          by_cases hlate : w.deadline ≤ now
          · rw [step_listening_late hheard hlate]
            trivial
          · rw [step_listening_idle hheard hlate]
            exact h
  | answered answer time => trivial

/-- He goes on towards a frame of the epoch: he looks next, or listens and has
heard of no more than `heard`, or has found it. -/
def Attends (epoch deadline heard : Nat) : Stage → Prop
  | looking w => w.epoch = epoch
  | listening w => w.epoch = epoch ∧ w.deadline = deadline ∧ w.seen ≤ heard
  | answered answer _ => answer = true

/-- How many steps it takes him to look, once there is something to hear. -/
def stepsToLook : Stage → Nat
  | looking _ => 1
  | listening _ => 2
  | answered _ _ => 0

variable {heard : Nat}

/-- An announcement not yet seen wakes the waiter. -/
theorem notified_of_lt (h : w.seen < announced) : w.notified announced = true := by
  simp only [notified, ne_eq, decide_eq_true_eq]
  omega

theorem KeepsTo.attends (h : s.KeepsTo epoch deadline announced) (hopen : s.isOpen = true) :
    s.Attends epoch deadline announced := by
  cases s with
  | looking w => exact h.1
  | listening w => exact h
  | answered answer time => cases hopen

/-- With a frame there he does not give up before the deadline, nor when there
is something to hear. -/
theorem Attends.step (h : s.Attends epoch deadline heard) (hframe : e.HasFrameOf epoch)
    (hup : heard < announced ∨ now < deadline) :
    (s.step now e announced).Attends epoch deadline heard := by
  cases s with
  | looking w =>
      rw [step_looking_arrived (by rw [show w.epoch = epoch from h]; exact hframe)]
      rfl
  | listening w =>
      obtain ⟨hepoch, hdeadline, hseen⟩ := h
      cases hheard : w.notified announced with
      | true =>
          rw [step_listening_heard hheard]
          exact hepoch
      | false =>
          have hsame : w.seen = announced := by simpa [notified] using hheard
          rw [step_listening_idle hheard (by omega)]
          exact ⟨hepoch, hdeadline, hseen⟩
  | answered answer time => exact h

/-- Each step brings the next look nearer while there is an announcement to be
heard. -/
theorem Attends.stepsToLook_step (h : s.Attends epoch deadline heard) (hframe : e.HasFrameOf epoch)
    (hup : heard < announced) :
    (s.step now e announced).stepsToLook = s.stepsToLook - 1 := by
  cases s with
  | looking w =>
      rw [step_looking_arrived (by rw [show w.epoch = epoch from h]; exact hframe)]
      rfl
  | listening w =>
      rw [step_listening_heard (notified_of_lt (Nat.lt_of_le_of_lt h.2.2 hup))]
      rfl
  | answered answer time => rfl

/-- How many steps lead to an answer once the deadline has come. -/
def stepsLeft (announced : Nat) : Stage → Nat
  | looking w => 2 + 2 * (w.notified announced).toNat
  | listening w => 1 + 2 * (w.notified announced).toNat
  | answered _ _ => 0

theorem stepsLeft_pos (h : s.isOpen = true) (announced : Nat) : 1 ≤ s.stepsLeft announced := by
  cases s with
  | answered answer time => cases h
  | _ =>
      simp only [stepsLeft]
      omega

/-- Past the deadline each step uses up one of the steps that are left. -/
theorem stepsLeft_step (h : s.KeepsTo epoch deadline announced) (hlate : deadline ≤ now) :
    (s.step now e announced).stepsLeft announced ≤ s.stepsLeft announced - 1 := by
  cases s with
  | looking w =>
      cases hlook : e.checkFrame w.epoch with
      | waiting =>
          simp only [Stage.step, hlook, stepsLeft]
          omega
      | _ => simp [Stage.step, hlook, stepsLeft]
  | listening w =>
      cases hheard : w.notified announced with
      | true =>
          rw [step_listening_heard hheard]
          simp only [stepsLeft, hheard, notified_seen, Bool.toNat_true, Bool.toNat_false]
          omega
      | false =>
          rw [step_listening_late hheard (by rw [h.2.1]; exact hlate)]
          exact Nat.zero_le _
  | answered answer time => exact Nat.zero_le _

/-- An announcement keeps him busy for two more steps. -/
theorem stepsLeft_le (s : Stage) (announced later : Nat) :
    s.stepsLeft later ≤ s.stepsLeft announced + 2 := by
  cases s with
  | answered answer time => exact Nat.zero_le _
  | looking w =>
      have hone := (w.notified later).toNat_le
      simp only [stepsLeft]
      omega
  | listening w =>
      have hone := (w.notified later).toNat_le
      simp only [stepsLeft]
      omega

/-- Four steps are always enough. -/
theorem stepsLeft_le_four (s : Stage) (announced : Nat) : s.stepsLeft announced ≤ 4 := by
  cases s with
  | answered answer time => exact Nat.zero_le _
  | looking w =>
      have hone := (w.notified announced).toNat_le
      simp only [stepsLeft]
      omega
  | listening w =>
      have hone := (w.notified announced).toNat_le
      simp only [stepsLeft]
      omega

/-- He has answered by some time, or it is not past. -/
def AnswersBy (latest now : Nat) : Stage → Prop
  | answered _ time => time ≤ latest
  | _ => now ≤ latest

theorem AnswersBy.mono {latest later : Nat} (h : s.AnswersBy latest now)
    (hlater : latest ≤ later) : s.AnswersBy later now := by
  cases s with
  | _ => exact Nat.le_trans h hlater

/-- A step of the waiter keeps the moment by which it answers. -/
theorem AnswersBy.step {latest : Nat} (h : s.AnswersBy latest now) (e : Element)
    (announced : Nat) : (s.step now e announced).AnswersBy latest now := by
  cases s with
  | looking w =>
      cases hlook : e.checkFrame w.epoch with
      | _ =>
          simp only [Stage.step, hlook]
          exact h
  | listening w =>
      cases hheard : w.notified announced with
      | true =>
          rw [step_listening_heard hheard]
          exact h
      | false =>
          by_cases hlate : w.deadline ≤ now
          · rw [step_listening_late hheard hlate]
            exact h
          · rw [step_listening_idle hheard hlate]
            exact h
  | answered answer time => exact h

end Stage

/-- To start to wait is to look once. -/
theorem stage_start (epoch deadline : Nat) (e : Element) (announced now : Nat) :
    Stage.ofPoll now (start epoch deadline e announced)
      = (Stage.looking ⟨epoch, deadline, announced⟩).step now e announced := by
  unfold start check
  cases hlook : e.checkFrame epoch with
  | _ => simp [Stage.step, Stage.ofPoll, hlook]

/-- A poll is three steps with nothing in between. -/
theorem stage_poll (w : FrameWait) (now : Nat) (e : Element) (announced : Nat) :
    Stage.ofPoll now (w.poll now e announced)
      = (((Stage.listening w).step now e announced).step now e announced).step now e announced := by
  unfold poll check
  cases hheard : w.notified announced with
  | true =>
      rw [Stage.step_listening_heard hheard]
      cases hlook : e.checkFrame w.epoch with
      | arrived => simp [Stage.step, Stage.ofPoll, hlook]
      | superseded => simp [Stage.step, Stage.ofPoll, hlook]
      | waiting =>
          have hlooked : (Stage.looking { w with seen := announced }).step now e announced
              = .listening { w with seen := announced } := by
            simp [Stage.step, hlook]
          rw [hlooked]
          by_cases hlate : w.deadline ≤ now
          · rw [Stage.step_listening_late (notified_seen w announced) hlate]
            simp [Stage.ofPoll, hlate]
          · rw [Stage.step_listening_idle (notified_seen w announced) hlate]
            simp [Stage.ofPoll, hlate]
  | false =>
      by_cases hlate : w.deadline ≤ now
      · simp [Stage.step, Stage.ofPoll, hheard, hlate]
      · simp [Stage.step, Stage.ofPoll, hheard, hlate]

end FrameWait

end VideoWall.Media
