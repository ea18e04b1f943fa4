/-
No frame is missed by somebody who waits for it.

# A wait among others

A scene is an element, the announcements that were made of its frames, the
time, and how far a wait has come (`Scene`). What happens is a list of
events in any order (`Event`): deeds of other holders, announcements,
time, and the steps of the wait. To show a frame is a deed and an
announcement that follows sooner or later; there are no more announcements
than frames.

# Main statement

`no_frame_missed`: whatever happens, the answer is yes just when a look
found a frame of the epoch, and that look was the last. A look finds one
if there was one when the wait began or one was taken since, and the epoch
is still the same. A frame that is taken, and announced before the
deadline, leads to a look, and no time has to pass for it. At the deadline
a few steps lead to an answer in any case, and somebody who does what he
has to do before time passes has answered by then (`Prompt`).

# Why it holds

A frame that is there stays as long as the epoch (`was_or_took`,
`hasFrameOf_run`). When it was taken he had heard of no more than had been
announced by then. From there on he goes towards the frame (`Due`): if he
listens and hears of something he looks, and if he looks he finds it; so
the only thing that can stop him, as long as the epoch lasts, is a
deadline that comes before the announcement (`Due.run`).
-/
import VideoWall.Proofs.Media.Waiting

namespace VideoWall.Media

open Element (Deed)

-- ================================================================ scenes

/-- An element, how many of its frames were announced, the time, and
somebody who waits. -/
structure Scene where
  element : Element
  announced : Nat
  now : Nat
  stage : FrameWait.Stage

namespace Scene

/-- What can happen next. -/
inductive Event where
  | deed (d : Deed)
  | announce
  | pass (ms : Nat)
  | step

/-- A frame is handed to the element. -/
def Event.presents (epoch width height : Nat) (rgb : Array UInt8) : Event :=
  .deed (.write epoch (.frame width height rgb))

/-- Whether the waiter takes a step. -/
def Event.isStep : Event → Bool
  | .step => true
  | _ => false

/-- Whether something is announced. -/
def Event.isAnnouncement : Event → Bool
  | .announce => true
  | _ => false

/-- The scene after an event. Only frames that were shown are announced. -/
def after (s : Scene) : Event → Scene
  | .deed d => { s with element := s.element.perform d }
  | .announce =>
      { s with
        announced := if s.announced < s.element.frameSeq then s.announced + 1 else s.announced }
  | .pass ms => { s with now := s.now + ms }
  | .step => { s with stage := s.stage.step s.now s.element s.announced }

/-- Events, one after the other. -/
def run (s : Scene) (events : List Event) : Scene := events.foldl after s

/-- Somebody begins to wait for a frame of `epoch`: he subscribes. -/
def opened (e : Element) (announced now epoch timeout : Nat) : Scene :=
  ⟨e, announced, now, .looking ⟨epoch, now + timeout, announced⟩⟩

variable {s : Scene} {ev : Event} {events before middle rest later : List Event}
  {epoch deadline time : Nat} {answer : Bool}

@[simp]
theorem run_nil (s : Scene) : s.run [] = s := rfl

@[simp]
theorem run_cons (s : Scene) (ev : Event) (later : List Event) :
    s.run (ev :: later) = (s.after ev).run later := rfl

@[simp]
theorem run_append (s : Scene) (before later : List Event) :
    s.run (before ++ later) = (s.run before).run later := List.foldl_append ..

/-- Events of a kind are counted one by one. -/
theorem countP_cons_toNat (kind : Event → Bool) (ev : Event) (later : List Event) :
    (ev :: later).countP kind = later.countP kind + (kind ev).toNat := by
  rw [List.countP_cons]
  cases kind ev with
  | true => rfl
  | false => rfl

-- ======================================================= what never falls

/-- No event takes the element back to an earlier epoch. -/
theorem epoch_le_after (s : Scene) (ev : Event) : s.element.epoch ≤ (s.after ev).element.epoch := by
  cases ev with
  | deed d =>
      show s.element.epoch ≤ (s.element.perform d).epoch
      rw [Element.epoch_perform]
      exact Nat.le_add_right _ _
  | _ => exact Nat.le_refl _

theorem epoch_le_run (s : Scene) (events : List Event) :
    s.element.epoch ≤ (s.run events).element.epoch := by
  induction events generalizing s with
  | nil => exact Nat.le_refl _
  | cons ev later ih => exact Nat.le_trans (s.epoch_le_after ev) (ih (s.after ev))

/-- Announcements only grow in number. -/
theorem announced_le_after (s : Scene) (ev : Event) : s.announced ≤ (s.after ev).announced := by
  cases ev with
  | announce =>
      show s.announced ≤ if s.announced < s.element.frameSeq then s.announced + 1 else s.announced
      split
      · omega
      · exact Nat.le_refl _
  | _ => exact Nat.le_refl _

theorem now_le_after (s : Scene) (ev : Event) : s.now ≤ (s.after ev).now := by
  cases ev with
  | pass ms => exact Nat.le_add_right _ _
  | _ => exact Nat.le_refl _

theorem now_le_run (s : Scene) (events : List Event) : s.now ≤ (s.run events).now := by
  induction events generalizing s with
  | nil => exact Nat.le_refl _
  | cons ev later ih => exact Nat.le_trans (s.now_le_after ev) (ih (s.after ev))

theorem composed_run (h : s.element.Composed) (events : List Event) :
    (s.run events).element.Composed := by
  induction events generalizing s with
  | nil => exact h
  | cons ev later ih =>
      apply ih
      cases ev with
      | deed d => exact h.perform d
      | _ => exact h

-- ============================================================ the answer

/-- Only his own steps take the wait further. -/
theorem stage_after_of_not_step (s : Scene) (h : ev.isStep = false) :
    (s.after ev).stage = s.stage := by
  cases ev with
  | step => cases h
  | _ => rfl

/-- As long as the waiter takes no step, its stage stays. -/
theorem stage_run_of_no_step (s : Scene) (h : events.countP Event.isStep = 0) :
    (s.run events).stage = s.stage := by
  induction events generalizing s with
  | nil => rfl
  | cons ev later ih =>
      have hnone := List.countP_eq_zero.1 h
      have hev : ev.isStep = false := by simpa using hnone ev (List.mem_cons_self)
      have hlater : later.countP Event.isStep = 0 :=
        List.countP_eq_zero.2 fun x hx => hnone x (List.mem_cons_of_mem ev hx)
      rw [run_cons, ih (s.after ev) hlater, stage_after_of_not_step s hev]

/-- An answer is given once and for all. -/
theorem stage_run_of_answered (h : s.stage = .answered answer time) (events : List Event) :
    (s.run events).stage = .answered answer time := by
  induction events generalizing s with
  | nil => exact h
  | cons ev later ih =>
      apply ih
      cases ev with
      | step =>
          show s.stage.step s.now s.element s.announced = _
          rw [h]
          rfl
      | _ => exact h

/-- Who is still waiting after a run was waiting before it. -/
theorem isOpen_of_run (h : (s.run events).stage.isOpen = true) : s.stage.isOpen = true := by
  cases hs : s.stage with
  | answered answer time =>
      rw [stage_run_of_answered hs] at h
      exact h
  | _ => rfl

/-- An answer was given in one of the steps. -/
theorem exists_step_of_answered (hopen : s.stage.isOpen = true)
    (h : (s.run events).stage = .answered answer time) :
    ∃ before later, events = before ++ .step :: later ∧ (s.run before).stage.isOpen = true
      ∧ ((s.run before).after .step).stage = .answered answer time := by
  induction events using List.reverseRecOn with
  | nil =>
      have hs : s.stage = .answered answer time := h
      rw [hs] at hopen
      cases hopen
  | append_singleton events ev ih =>
      have hlast : ((s.run events).after ev).stage = .answered answer time := by
        rw [run_append] at h
        exact h
      cases hs : (s.run events).stage with
      | answered answer' time' =>
          have hsame : ((s.run events).after ev).stage = .answered answer' time' :=
            stage_run_of_answered hs [ev]
          rw [hlast] at hsame
          cases hsame
          obtain ⟨before, later, rfl, hbefore, hstep⟩ := ih hs
          exact ⟨before, later ++ [ev], by simp, hbefore, hstep⟩
      | _ =>
          cases hev : ev.isStep with
          | false =>
              rw [stage_after_of_not_step _ hev, hs] at hlast
              cases hlast
          | true =>
              obtain rfl : ev = .step := by
                cases ev with
                | step => rfl
                | _ => cases hev
              exact ⟨events, [], rfl, by rw [hs]; rfl, hlast⟩

-- ======================================================= what is kept to

/-- What he waits for and until when stays as he began. -/
theorem keepsTo_after (h : s.stage.KeepsTo epoch deadline s.announced) (ev : Event) :
    (s.after ev).stage.KeepsTo epoch deadline (s.after ev).announced := by
  cases ev with
  | step => exact h.step s.now s.element
  | _ => exact h.mono (s.announced_le_after _)

/-- A waiter never changes the epoch or the deadline that it was started with.
-/
theorem keepsTo_run (h : s.stage.KeepsTo epoch deadline s.announced) (events : List Event) :
    (s.run events).stage.KeepsTo epoch deadline (s.run events).announced := by
  induction events generalizing s with
  | nil => exact h
  | cons ev later ih => exact ih (keepsTo_after h ev)

-- ============================================================== the frame

/-- While the epoch lasts, there is a frame of it. -/
theorem hasFrameOf_after (h : s.element.HasFrameOf epoch)
    (hepoch : (s.after ev).element.epoch = epoch) : (s.after ev).element.HasFrameOf epoch := by
  cases ev with
  | deed d => exact h.perform hepoch
  | _ => exact h

/-- An epoch that has come to be and lasts was there all the time. -/
theorem epoch_after_of_run (h : s.element.epoch = epoch)
    (hepoch : ((s.after ev).run later).element.epoch = epoch) :
    (s.after ev).element.epoch = epoch := by
  have hbefore := s.epoch_le_after ev
  have hbehind := (s.after ev).epoch_le_run later
  omega

/-- A frame stays shown as long as the epoch does. -/
theorem hasFrameOf_run (h : s.element.HasFrameOf epoch)
    (hepoch : (s.run events).element.epoch = epoch) : (s.run events).element.HasFrameOf epoch := by
  induction events generalizing s with
  | nil => exact h
  | cons ev later ih =>
      exact ih (hasFrameOf_after h (epoch_after_of_run h.1 hepoch)) hepoch

/-- A frame of the epoch was taken at some time. -/
def Took (epoch : Nat) (s : Scene) (events : List Event) : Prop :=
  ∃ before width height rgb later, events = before ++ .presents epoch width height rgb :: later
    ∧ (s.run before).element.accepts epoch (.frame width height rgb) = true

/-- A frame of the epoch was there, or has been taken. -/
private theorem was_or_took (hcomposed : s.element.Composed)
    (h : (s.run events).element.HasFrameOf epoch) :
    s.element.HasFrameOf epoch ∨ s.Took epoch events := by
  induction events generalizing s with
  | nil => exact Or.inl h
  | cons ev later ih =>
      rcases ih (composed_run hcomposed [ev]) h with
        hnext | ⟨before, width, height, rgb, rest, rfl, htaken⟩
      · by_cases hthere : s.element.HasFrameOf epoch
        · exact Or.inl hthere
        · -- it came with this event, so it was shown
          refine Or.inr ?_
          cases ev with
          | deed d =>
              obtain ⟨width, height, rgb, rfl, htaken⟩ := hnext.shown hthere hcomposed
              exact ⟨[], width, height, rgb, later, rfl, htaken⟩
          | _ => exact absurd hnext hthere
      · exact Or.inr ⟨ev :: before, width, height, rgb, rest, rfl, htaken⟩

/-- A frame that was taken is there while its epoch lasts. -/
private theorem Took.hasFrameOf (h : s.Took epoch events)
    (hepoch : (s.run events).element.epoch = epoch) : (s.run events).element.HasFrameOf epoch := by
  obtain ⟨before, width, height, rgb, later, rfl, htaken⟩ := h
  rw [run_append, run_cons] at hepoch ⊢
  have hshown :
      ((s.run before).after (.presents epoch width height rgb)).element.HasFrameOf epoch :=
    Element.hasFrameOf_shown htaken
  exact hasFrameOf_run hshown hepoch

-- ======================================================= no lost wake-up

/-- There is a frame of the epoch, and he goes on towards it. -/
structure Due (epoch deadline heard : Nat) (s : Scene) : Prop where
  there : s.element.HasFrameOf epoch
  stage : s.stage.Attends epoch deadline heard

variable {heard : Nat}

/-- While the epoch lasts, nothing takes him away from its frame but a
deadline that finds him with nothing to hear. -/
theorem Due.after (h : s.Due epoch deadline heard)
    (hepoch : (s.after ev).element.epoch = epoch)
    (hup : heard < s.announced ∨ (s.after ev).now < deadline) :
    (s.after ev).Due epoch deadline heard := by
  refine ⟨hasFrameOf_after h.there hepoch, ?_⟩
  cases ev with
  | step => exact h.stage.step h.there hup
  | _ => exact h.stage

/-- What is due stays due until the waiter has answered, its deadline has
passed or the epoch has moved on. -/
theorem Due.run (h : s.Due epoch deadline heard)
    (hepoch : (s.run events).element.epoch = epoch)
    (hup : heard < s.announced ∨ (s.run events).now < deadline) :
    (s.run events).Due epoch deadline heard := by
  induction events generalizing s with
  | nil => exact h
  | cons ev later ih =>
      have hmore := s.announced_le_after ev
      have htime := (s.after ev).now_le_run later
      have hnext : heard < s.announced ∨ (s.after ev).now < deadline := by
        rcases hup with hup | hup
        · exact Or.inl hup
        · exact Or.inr (Nat.lt_of_le_of_lt htime hup)
      refine ih (h.after (epoch_after_of_run h.there.1 hepoch) hnext) hepoch ?_
      rcases hup with hup | hup
      · exact Or.inl (Nat.lt_of_lt_of_le hup hmore)
      · exact Or.inr hup

/-- With something to hear, each of his steps takes him nearer to the frame. -/
theorem Due.stepsToLook_run (h : s.Due epoch deadline heard) (hup : heard < s.announced)
    (hepoch : (s.run events).element.epoch = epoch) :
    (s.run events).stage.stepsToLook = s.stage.stepsToLook - events.countP Event.isStep := by
  induction events generalizing s with
  | nil => rfl
  | cons ev later ih =>
      have hnext := h.after (epoch_after_of_run h.there.1 hepoch) (Or.inl hup)
      have hstep : (s.after ev).stage.stepsToLook = s.stage.stepsToLook - ev.isStep.toNat := by
        cases ev with
        | step => exact h.stage.stepsToLook_step h.there hup
        | _ => rfl
      rw [run_cons, ih hnext (Nat.lt_of_lt_of_le hup (s.announced_le_after ev)) hepoch, hstep,
        countP_cons_toNat]
      omega

/-- With something to hear, his next look finds the frame. -/
private theorem Due.answers (h : s.Due epoch deadline heard) (hup : heard < s.announced)
    (hepoch : (s.run events).element.epoch = epoch)
    (hsteps : s.stage.stepsToLook ≤ events.countP Event.isStep) :
    ∃ time, (s.run events).stage = .answered true time := by
  have hend := (h.run hepoch (Or.inl hup)).stage
  have hcount := h.stepsToLook_run hup hepoch
  rw [Nat.sub_eq_zero_of_le hsteps] at hcount
  cases hs : (s.run events).stage with
  | answered answer time =>
      rw [hs] at hend
      exact ⟨time, by rw [show answer = true from hend]⟩
  | _ =>
      rw [hs] at hcount
      cases hcount

/-- A frame of the epoch was taken while he waited, and announced before his
deadline. -/
def WasTold (epoch deadline : Nat) (s : Scene) (events : List Event) : Prop :=
  ∃ before width height rgb later, events = before ++ .presents epoch width height rgb :: later
    ∧ (s.run before).stage.isOpen = true
    ∧ (s.run before).element.accepts epoch (.frame width height rgb) = true
    ∧ (s.run before).announced < (s.run events).announced
    ∧ (s.run events).now < deadline

/-- The epoch of a frame that was taken has come. -/
theorem WasTold.epoch_le (h : s.WasTold epoch deadline events) :
    epoch ≤ (s.run events).element.epoch := by
  obtain ⟨before, width, height, rgb, later, rfl, -, htaken, -⟩ := h
  have hshown :
      ((s.run before).after (.presents epoch width height rgb)).element.HasFrameOf epoch :=
    Element.hasFrameOf_shown htaken
  rw [run_append, run_cons]
  calc epoch = ((s.run before).after (.presents epoch width height rgb)).element.epoch :=
        hshown.1.symm
    _ ≤ _ := epoch_le_run _ later

/-- He who was told of a frame goes on towards it. -/
private theorem WasTold.due (h : s.WasTold epoch deadline events)
    (hkeeps : s.stage.KeepsTo epoch deadline s.announced)
    (hepoch : (s.run events).element.epoch = epoch) :
    ∃ heard < (s.run events).announced, (s.run events).Due epoch deadline heard := by
  obtain ⟨before, width, height, rgb, later, rfl, hopen, htaken, htold, htime⟩ := h
  refine ⟨_, htold, ?_⟩
  have hshown : ((s.run before).after (.presents epoch width height rgb)).Due epoch deadline
      (s.run before).announced :=
    ⟨Element.hasFrameOf_shown htaken, (keepsTo_run hkeeps before).attends hopen⟩
  rw [run_append, run_cons] at hepoch htime ⊢
  exact hshown.run hepoch (Or.inr htime)

-- ========================================================== the deadline

/-- Once the deadline has come, a step is one less to do, and an announcement
at most two more. -/
theorem stepsLeft_after (h : s.stage.KeepsTo epoch deadline s.announced)
    (hlate : deadline ≤ s.now) (hopen : s.stage.isOpen = true) (ev : Event) :
    (s.after ev).stage.stepsLeft (s.after ev).announced + ev.isStep.toNat
      ≤ s.stage.stepsLeft s.announced + 2 * ev.isAnnouncement.toNat := by
  cases ev with
  | step =>
      have hnearer := FrameWait.Stage.stepsLeft_step (e := s.element) h hlate
      have hpositive := FrameWait.Stage.stepsLeft_pos hopen s.announced
      show (s.stage.step s.now s.element s.announced).stepsLeft s.announced + 1 ≤ _
      omega
  | announce => exact s.stage.stepsLeft_le s.announced _
  | _ => exact Nat.le_refl _

/-- Past the deadline each step brings the answer nearer, and each announcement
puts it off by two steps at most. -/
theorem stepsLeft_run (h : s.stage.KeepsTo epoch deadline s.announced)
    (hlate : deadline ≤ s.now) (hopen : (s.run events).stage.isOpen = true) :
    (s.run events).stage.stepsLeft (s.run events).announced + events.countP Event.isStep
      ≤ s.stage.stepsLeft s.announced + 2 * events.countP Event.isAnnouncement := by
  induction events generalizing s with
  | nil => exact Nat.le_refl _
  | cons ev later ih =>
      have hfirst := stepsLeft_after h hlate (isOpen_of_run hopen) ev
      have hlater := ih (keepsTo_after h ev) (Nat.le_trans hlate (s.now_le_after ev)) hopen
      rw [countP_cons_toNat, countP_cons_toNat, run_cons]
      omega

-- ========================================================= without delay

/-- Time may pass by itself only while he has nothing to do, and no further
than to his deadline. -/
def Sleeps (s : Scene) (ms : Nat) : Prop :=
  match s.stage with
  | .looking _ => False
  | .listening w => w.notified s.announced = false ∧ s.now + ms ≤ w.deadline
  | .answered _ _ => True

/-- He does what he has to do before time passes. -/
def Prompt (s : Scene) : List Event → Prop
  | [] => True
  | ev :: later => (∀ ms, ev = .pass ms → s.Sleeps ms) ∧ (s.after ev).Prompt later

private theorem Prompt.behind (h : s.Prompt (before ++ later)) : (s.run before).Prompt later := by
  induction before generalizing s with
  | nil => exact h
  | cons ev rest ih => exact ih h.2

private theorem Prompt.front (h : s.Prompt (before ++ later)) : s.Prompt before := by
  induction before generalizing s with
  | nil => trivial
  | cons ev rest ih => exact ⟨h.1, ih h.2⟩

/-- As long as time does not pass a moment without an answer, the answer is
given by that moment. -/
theorem answersBy_after {latest : Nat} (h : s.stage.AnswersBy latest s.now)
    (hpass : ∀ ms, ev = .pass ms → s.stage.isOpen = true → s.now + ms ≤ latest) :
    (s.after ev).stage.AnswersBy latest (s.after ev).now := by
  cases ev with
  | step => exact h.step s.element s.announced
  | pass ms =>
      show s.stage.AnswersBy latest (s.now + ms)
      cases hs : s.stage with
      | answered answer time =>
          rw [hs] at h
          exact h
      | _ => exact hpass ms rfl (by rw [hs]; rfl)
  | _ => exact h

/-- No answer is of a time to come. -/
private theorem answersBy_now (h : s.stage.AnswersBy s.now s.now) (events : List Event) :
    (s.run events).stage.AnswersBy (s.run events).now (s.run events).now := by
  induction events generalizing s with
  | nil => exact h
  | cons ev later ih =>
      apply ih
      refine answersBy_after (h.mono (s.now_le_after ev)) fun ms hms _ => ?_
      rw [hms]
      exact Nat.le_refl _

/-- He who is prompt answers by his deadline. -/
private theorem Prompt.answersBy (h : s.Prompt events)
    (hkeeps : s.stage.KeepsTo epoch deadline s.announced)
    (hstart : s.stage.AnswersBy deadline s.now) :
    (s.run events).stage.AnswersBy deadline (s.run events).now := by
  induction events generalizing s with
  | nil => exact hstart
  | cons ev later ih =>
      refine ih h.2 (keepsTo_after hkeeps ev) (answersBy_after hstart fun ms hms hopen => ?_)
      have hsleeps := h.1 ms hms
      unfold Sleeps at hsleeps
      cases hs : s.stage with
      | looking w =>
          rw [hs] at hsleeps
          exact hsleeps.elim
      | listening w =>
          rw [hs] at hsleeps hkeeps
          exact hkeeps.2.1 ▸ hsleeps.2
      | answered answer time =>
          rw [hs] at hopen
          cases hopen

/-- He who is prompt does not let time pass while there is something to hear. -/
private theorem Due.answersBy (h : s.Due epoch deadline heard) (hup : heard < s.announced)
    (hepoch : (s.run events).element.epoch = epoch) {latest : Nat}
    (hstart : s.stage.AnswersBy latest s.now) (hprompt : s.Prompt events) :
    (s.run events).stage.AnswersBy latest (s.run events).now := by
  induction events generalizing s with
  | nil => exact hstart
  | cons ev later ih =>
      refine ih (h.after (epoch_after_of_run h.there.1 hepoch) (Or.inl hup))
        (Nat.lt_of_lt_of_le hup (s.announced_le_after ev)) hepoch
        (answersBy_after hstart fun ms hms hopen => ?_) hprompt.2
      have hsleeps := hprompt.1 ms hms
      have hattends := h.stage
      unfold Sleeps at hsleeps
      cases hs : s.stage with
      | looking w =>
          rw [hs] at hsleeps
          exact hsleeps.elim
      | listening w =>
          rw [hs] at hsleeps hattends
          have hheard := FrameWait.Stage.notified_of_lt (Nat.lt_of_le_of_lt hattends.2.2 hup)
          rw [hsleeps.1] at hheard
          cases hheard
      | answered answer time =>
          rw [hs] at hopen
          cases hopen

-- ============================================================== answers

/-- A look that finds the frame is the last. -/
theorem answered_of_look {w : FrameWait} (hlook : s.stage = .looking w)
    (hframe : s.element.HasFrameOf w.epoch) (later : List Event) :
    (s.run (.step :: later)).stage = .answered true s.now := by
  have hstep : (s.after .step).stage = .answered true s.now := by
    show s.stage.step s.now s.element s.announced = _
    rw [hlook, FrameWait.Stage.step_looking_arrived hframe]
  exact stage_run_of_answered hstep later

/-- An answer is there once nothing else is. -/
theorem exists_answer (h : s.stage.isOpen ≠ true) :
    ∃ answer time, s.stage = .answered answer time := by
  cases hs : s.stage with
  | answered answer time => exact ⟨answer, time, rfl⟩
  | _ =>
      rw [hs] at h
      exact absurd rfl h

/-- The epoch of every look is the one that he began with. -/
theorem epoch_of_looking (hkeeps : s.stage.KeepsTo epoch deadline s.announced) {w : FrameWait}
    (hlook : (s.run events).stage = .looking w) : w.epoch = epoch := by
  have hkept := keepsTo_run hkeeps events
  rw [hlook] at hkept
  exact hkept.1

/-- Yes is the answer of a look that found the frame. -/
private theorem yes_iff_look (hkeeps : s.stage.KeepsTo epoch deadline s.announced)
    (hopen : s.stage.isOpen = true) (time : Nat) :
    (s.run events).stage = .answered true time
      ↔ ∃ before later w, events = before ++ .step :: later ∧ (s.run before).stage = .looking w
        ∧ (s.run before).element.HasFrameOf epoch ∧ (s.run before).now = time := by
  constructor
  · intro hyes
    obtain ⟨before, later, hsplit, hbefore, hstep⟩ := exists_step_of_answered hopen hyes
    obtain ⟨htime, w, hw, hframe⟩ := FrameWait.Stage.step_yes hbefore hstep
    rw [epoch_of_looking hkeeps hw] at hframe
    exact ⟨before, later, w, hsplit, hw, hframe, htime⟩
  · intro hlook
    obtain ⟨before, later, w, rfl, hw, hframe, rfl⟩ := hlook
    rw [run_append]
    rw [← epoch_of_looking hkeeps hw] at hframe
    exact answered_of_look hw hframe later

/-- He who was told of a frame answers yes within his next look, and if he is
prompt, without delay. -/
private theorem WasTold.answers {before rest : List Event} (h : s.WasTold epoch deadline before)
    (hkeeps : s.stage.KeepsTo epoch deadline s.announced) (hnow : s.stage.AnswersBy s.now s.now)
    (hepoch : (s.run (before ++ rest)).element.epoch = epoch)
    (hsteps : (s.run before).stage.stepsToLook ≤ rest.countP Event.isStep) (later : List Event) :
    ∃ time, (s.run (before ++ rest ++ later)).stage = .answered true time
      ∧ (s.Prompt (before ++ rest ++ later) → time ≤ (s.run before).now) := by
  rw [run_append] at hepoch
  have hcame := h.epoch_le
  have hlasts := (s.run before).epoch_le_run rest
  obtain ⟨heard, hup, hdue⟩ := h.due hkeeps (by omega)
  obtain ⟨time, hyes⟩ := hdue.answers hup hepoch hsteps
  refine ⟨time, ?_, fun hprompt => ?_⟩
  · rw [run_append, run_append]
    exact stage_run_of_answered hyes later
  · rw [List.append_assoc] at hprompt
    have hanswers := hdue.answersBy hup hepoch (answersBy_now hnow before) hprompt.behind.front
    rw [hyes] at hanswers
    exact hanswers

/-- Once the deadline has come, a few steps lead to an answer. -/
private theorem answers_late {before rest : List Event}
    (hkeeps : s.stage.KeepsTo epoch deadline s.announced) (hlate : deadline ≤ (s.run before).now)
    (hsteps : 4 + 2 * rest.countP Event.isAnnouncement ≤ rest.countP Event.isStep) :
    ∃ answer time, (s.run (before ++ rest)).stage = .answered answer time := by
  apply exists_answer
  intro hopen
  rw [run_append] at hopen
  have hleft := stepsLeft_run (keepsTo_run hkeeps before) hlate hopen
  have hpositive := FrameWait.Stage.stepsLeft_pos hopen ((s.run before).run rest).announced
  have hfew := (s.run before).stage.stepsLeft_le_four (s.run before).announced
  omega

-- ============================================================ the promise

/-- What is promised to somebody who waits for a frame of `epoch` until
`deadline`. The scene is `s` when he subscribes.

- `starts`, `polls`: to start to wait and to poll are his steps with nothing in
  between.
- `yes_iff`: he is answered yes just when one of his looks found a frame of the
  epoch; that look was his last, and the answer is as old as it.
- `finds_iff`: a look finds a frame just when the epoch is still the same, and
  there was a frame when he began or one was taken since.
- `first`: a frame that is there at his first look is his answer at once.
- `told`: if a frame was taken while he waited and announced before his deadline,
  and the epoch lasts until he has looked, the answer is yes. If he is prompt
  this takes no time.
- `late`: once the deadline has come, four steps lead to an answer, and two more
  for each announcement in between.
- `prompt`: if he is prompt he has answered by the deadline. -/
structure Serves (epoch deadline : Nat) (s : Scene) (events : List Event) : Prop where
  starts : (s.run [.step]).stage
    = .ofPoll s.now (FrameWait.start epoch deadline s.element s.announced)
  polls : ∀ before w, (s.run before).stage = .listening w →
    (s.run (before ++ [.step, .step, .step])).stage
      = .ofPoll (s.run before).now
          (w.poll (s.run before).now (s.run before).element (s.run before).announced)
  yes_iff : ∀ time, (s.run events).stage = .answered true time
    ↔ ∃ before later w, events = before ++ .step :: later ∧ (s.run before).stage = .looking w
      ∧ (s.run before).element.HasFrameOf epoch ∧ (s.run before).now = time
  finds_iff : ∀ before later, events = before ++ later →
    ((s.run before).element.HasFrameOf epoch
      ↔ (s.run before).element.epoch = epoch
        ∧ (s.element.HasFrameOf epoch ∨ s.Took epoch before))
  first : ∀ before later, events = before ++ .step :: later →
    before.countP Event.isStep = 0 → (s.run before).element.HasFrameOf epoch →
    (s.run events).stage = .answered true (s.run before).now
  told : ∀ before rest later, events = before ++ rest ++ later → s.WasTold epoch deadline before →
    (s.run (before ++ rest)).element.epoch = epoch →
    (s.run before).stage.stepsToLook ≤ rest.countP Event.isStep →
    ∃ time, (s.run events).stage = .answered true time
      ∧ (s.Prompt events → time ≤ (s.run before).now)
  late : ∀ before rest, events = before ++ rest → deadline ≤ (s.run before).now →
    4 + 2 * rest.countP Event.isAnnouncement ≤ rest.countP Event.isStep →
    ∃ answer time, (s.run events).stage = .answered answer time
  prompt : s.Prompt events → (s.run events).stage.AnswersBy deadline (s.run events).now

/-- Whatever an element has lived through, and whatever is done to it while
somebody waits for a frame: he gets the frame if he can. -/
theorem no_frame_missed (deeds : List Deed) (announced now epoch timeout : Nat)
    (events : List Event) :
    Serves epoch (now + timeout) (opened (Element.idle.live deeds) announced now epoch timeout)
      events := by
  -- the scene is kept abstract; of its opening only these facts matter
  generalize hs : opened (Element.idle.live deeds) announced now epoch timeout = s
  have hcomposed : s.element.Composed := by
    rw [← hs]
    exact Element.composed_idle.live deeds
  have hstage : s.stage = .looking ⟨epoch, now + timeout, announced⟩ := by rw [← hs]; rfl
  have hopen : s.stage.isOpen = true := by rw [hstage]; rfl
  have hkeeps : s.stage.KeepsTo epoch (now + timeout) s.announced := by
    rw [← hs]
    exact ⟨rfl, rfl, Nat.le_refl _⟩
  have hnow : s.stage.AnswersBy s.now s.now := by
    rw [hstage]
    exact Nat.le_refl _
  have hstart : s.stage.AnswersBy (now + timeout) s.now := by
    rw [← hs]
    exact Nat.le_add_right now timeout
  refine
    { starts := ?_
      polls := fun before w hw => ?_
      yes_iff := yes_iff_look hkeeps hopen
      finds_iff := fun before later hsplit => ⟨fun hframe => ?_, ?_⟩
      first := fun before later hsplit hnone hframe => ?_
      told := fun before rest later hsplit htold hepoch hsteps => ?_
      late := fun before rest hsplit hlate hsteps => ?_
      prompt := fun hprompt => hprompt.answersBy hkeeps hstart }
  · rw [← hs]
    exact (FrameWait.stage_start ..).symm
  · rw [FrameWait.stage_poll, ← hw, run_append]
    rfl
  · exact ⟨hframe.1, was_or_took hcomposed hframe⟩
  · intro hthere
    obtain ⟨hepoch, hwas | htook⟩ := hthere
    · exact hasFrameOf_run hwas hepoch
    · exact htook.hasFrameOf hepoch
  · have hlook := (stage_run_of_no_step s hnone).trans hstage
    rw [hsplit, run_append]
    exact answered_of_look hlook hframe later
  · rw [hsplit]
    exact htold.answers hkeeps hnow hepoch hsteps later
  · rw [hsplit]
    exact answers_late hkeeps hlate hsteps

/-- A frame that is taken after the first look is found once it is announced. -/
example :
    ((opened (Element.idle.live [.setSource default]) 0 0 1 1000).run
      [.step, .presents 1 2 2 #[], .pass 3, .step, .announce, .step, .step]).stage
        = .answered true 3 := rfl

end Scene

end VideoWall.Media
