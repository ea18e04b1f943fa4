/-
What of a stream reaches its decoder.

# The line

A loop and a decoder work at the two ends of a queue (`Line`). They take
turns in any order: the outside gives something to the loop, the loop offers
the unit that it has come to, the decoder receives a job or goes, and the
element moves on. A unit that has to wait is offered again. The line keeps an
account of every unit that was submitted, with the queue before and after
it, and of the jobs that were received.

# What is kept

Every submission puts its unit into the queue, or the unit has no parameter
sets and the queue was full, or the decoder had gone (`Submission.Sound`).
What was received is the front of what was put into the queue, and while the
decoder has not gone, the queue holds the rest (`Line.Kept`). Each turn keeps
this (`kept_turn`), and so does every run (`kept_run`).
-/
import Mathlib.Data.List.Basic
import Mathlib.Data.List.Flatten
import VideoWall.Playback.FetchLoop

namespace VideoWall.Playback

open Media Bitstream.Annexb

-- ================================================================== the line

/-- The job that a unit is for the decoder. -/
def jobOf (unit : List UInt8) : Job :=
  if carriesParameterSets unit then .config unit else .unit unit

/-- A unit that was submitted, the queue before and after, and what became of
the unit. -/
structure Submission where
  unit : List UInt8
  before : DecoderQueue
  after : DecoderQueue
  taken : Taken

/-- What a submission has put into the queue. -/
def Submission.entered (x : Submission) : List Job := x.after.jobs.drop x.before.jobs.length

/-- A loop and the queue of its decoder, whether the element has moved on, and
what has been submitted and received. -/
structure Line where
  loop : FetchLoop
  queue : DecoderQueue
  movedOn : Bool := false
  submissions : List Submission := []
  received : List Job := []

/-- What can happen next. -/
inductive Turn where
  | outside (g : Given)
  | offer
  | receive
  | exit
  | moveOn

namespace Line

variable (cfg : FetchSettings) (s : Line)

/-- The loop offers the unit that it has come to. One that has to wait changes
nothing. -/
def offer : Line :=
  match s.loop.point with
  | .feeding _ _ unit _ _ =>
      match submit s.queue s.movedOn unit.data with
      | (_, none) => s
      | (queue, some taken) =>
          { s with
            loop := s.loop.step cfg (.taken taken), queue
            submissions := s.submissions ++ [⟨unit.data, s.queue, queue, taken⟩] }
  | _ => s

/-- What the outside gives, but for what becomes of units. -/
def hear : Given → Line
  | .taken _ => s
  | g => { s with loop := s.loop.step cfg g }

/-- The decoder takes the oldest job, if there is one. -/
def receive : Line :=
  match s.queue.receive with
  | (_, none) => s
  | (queue, some job) => { s with queue, received := s.received ++ [job] }

/-- What becomes of the line in a turn. -/
def turn : Turn → Line
  | .outside g => s.hear cfg g
  | .offer => s.offer cfg
  | .receive => s.receive
  | .exit => { s with queue := s.queue.close }
  | .moveOn => { s with movedOn := true }

/-- Turns, one after the other. -/
def run (turns : List Turn) : Line := turns.foldl (turn cfg) s

/-- A line on which nothing has happened yet. -/
def fresh (loop : FetchLoop) (capacity : Nat) : Line := { loop, queue := { capacity } }

/-- All that has been put into the queue. -/
def queued : List Job := s.submissions.flatMap Submission.entered

end Line

variable {cfg : FetchSettings} {s : Line} {q q' : DecoderQueue} {unit : List UInt8} {taken : Taken}
variable {movedOn : Bool} {x : Submission}

-- =============================================================== submissions

/-- What can become of a submission: its unit is put into the queue, it is
dropped where the queue is full, or it is not taken since the decoder has
gone. -/
inductive Submission.Sound (x : Submission) : Prop where
  | queued (hopen : x.before.closed = false) (hspace : x.before.isFull = false)
      (htaken : x.taken = .accepted)
      (hafter : x.after = { x.before with jobs := x.before.jobs ++ [jobOf x.unit] })
  | dropped (hopen : x.before.closed = false) (hfull : x.before.isFull = true)
      (hplain : carriesParameterSets x.unit = false) (htaken : x.taken = .accepted)
      (hafter : x.after = x.before)
  | refused (hgone : x.before.closed = true) (htaken : ∃ movedOn, x.taken = .gone movedOn)
      (hafter : x.after = x.before)

/-- A unit is submitted soundly, or it has parameter sets and waits. -/
theorem submit_cases (q : DecoderQueue) (movedOn : Bool) (unit : List UInt8) :
    (carriesParameterSets unit = true ∧ q.closed = false ∧ q.isFull = true
        ∧ submit q movedOn unit = (q, none))
      ∨ ∃ q' taken, submit q movedOn unit = (q', some taken)
          ∧ (⟨unit, q, q', taken⟩ : Submission).Sound := by
  by_cases hcarries : carriesParameterSets unit = true
  · rw [submit, if_pos hcarries, DecoderQueue.submitConfig]
    by_cases hgone : q.closed = true
    · rw [if_pos hgone]
      exact .inr ⟨q, _, rfl, .refused hgone ⟨movedOn, rfl⟩ rfl⟩
    rw [if_neg hgone]
    rw [Bool.not_eq_true] at hgone
    by_cases hfull : q.isFull = true
    · rw [if_pos hfull]
      exact .inl ⟨hcarries, hgone, hfull, rfl⟩
    · rw [if_neg hfull]
      rw [Bool.not_eq_true] at hfull
      have hjob : jobOf unit = .config unit := if_pos hcarries
      exact .inr ⟨_, _, rfl, .queued hgone hfull rfl (by rw [hjob])⟩
  · rw [submit, if_neg hcarries, DecoderQueue.submitUnit]
    by_cases hgone : q.closed = true
    · rw [if_pos hgone]
      exact .inr ⟨q, _, rfl, .refused hgone ⟨movedOn, rfl⟩ rfl⟩
    rw [if_neg hgone]
    rw [Bool.not_eq_true] at hgone
    by_cases hfull : q.isFull = true
    · rw [if_pos hfull]
      rw [Bool.not_eq_true] at hcarries
      exact .inr ⟨q, _, rfl, .dropped hgone hfull hcarries rfl rfl⟩
    · rw [if_neg hfull]
      rw [Bool.not_eq_true] at hfull
      have hjob : jobOf unit = .unit unit := if_neg hcarries
      exact .inr ⟨_, _, rfl, .queued hgone hfull rfl (by rw [hjob])⟩

/-- A queue that stays the same has been given nothing. -/
theorem Submission.entered_of_after (h : x.after = x.before) : x.entered = [] := by
  rw [entered, h, List.drop_length]

/-- A queue with a job more has been given that job. -/
theorem Submission.entered_of_queued
    (h : x.after = { x.before with jobs := x.before.jobs ++ [jobOf x.unit] }) :
    x.entered = [jobOf x.unit] := by
  rw [entered, h]
  exact List.drop_left

/-- A submission puts its unit into the queue, or nothing. -/
theorem Submission.Sound.entered_sublist (h : x.Sound) : x.entered.Sublist [jobOf x.unit] := by
  cases h with
  | queued _ _ _ hafter =>
      simp [entered_of_queued hafter]
  | dropped _ _ _ _ hafter | refused _ _ hafter =>
      rw [entered_of_after hafter]
      exact List.nil_sublist _

/-- A submission neither opens nor closes a queue. -/
theorem Submission.Sound.closed (h : x.Sound) : x.after.closed = x.before.closed := by
  cases h with
  | queued _ _ _ hafter | dropped _ _ _ _ hafter | refused _ _ hafter => rw [hafter]

-- ================================================================ what is kept

namespace Line

/-- What every turn keeps. -/
structure Kept (s : Line) : Prop where
  sound : ∀ x ∈ s.submissions, x.Sound
  order : s.received <+: s.queued
  held : s.queue.closed = false → s.received ++ s.queue.jobs = s.queued
  gone : s.queue.closed = true → s.queue.jobs = []
  bounded : s.queue.jobs.length ≤ s.queue.capacity
  late : ∀ x ∈ s.submissions, x.before.closed = true → s.queue.closed = true

/-- A fresh line is kept. -/
theorem kept_fresh (loop : FetchLoop) (capacity : Nat) : Kept (fresh loop capacity) where
  sound := by simp [fresh]
  order := List.nil_prefix
  held _ := rfl
  gone h := by cases h
  bounded := Nat.zero_le _
  late := by simp [fresh]

/-- An offer changes nothing, or it submits the unit that the loop has come
to. -/
theorem offer_cases (cfg : FetchSettings) (s : Line) :
    s.offer cfg = s
      ∨ ∃ unit taken loop queue, (⟨unit, s.queue, queue, taken⟩ : Submission).Sound
          ∧ s.offer cfg = { s with
              loop, queue, submissions := s.submissions ++ [⟨unit, s.queue, queue, taken⟩] } := by
  rw [offer]
  split
  case h_1 unit _ _ _ =>
    rcases submit_cases s.queue s.movedOn unit.data with
      ⟨-, -, -, hwaits⟩ | ⟨queue, taken, hsubmit, hsound⟩
    · rw [hwaits]
      exact .inl rfl
    · rw [hsubmit]
      exact .inr ⟨unit.data, taken, _, queue, hsound, rfl⟩
  case h_2 => exact .inl rfl

/-- An offer keeps the line. -/
private theorem kept_offer (cfg : FetchSettings) (h : s.Kept) : (s.offer cfg).Kept := by
  rcases offer_cases cfg s with hsame | ⟨unit, taken, loop, queue, hsound, hoffer⟩
  · rwa [hsame]
  rw [hoffer]
  -- the offer puts one submission behind the others, and with it what the queue was
  -- given
  have hqueued : queued { s with
      loop, queue, submissions := s.submissions ++ [⟨unit, s.queue, queue, taken⟩] }
      = s.queued ++ Submission.entered ⟨unit, s.queue, queue, taken⟩ := by
    rw [queued, List.flatMap_append, List.flatMap_singleton]
    rfl
  have hclosed : queue.closed = s.queue.closed := hsound.closed
  refine ⟨?_, ?_, ?_, ?_, ?_, ?_⟩
  · intro x hx
    rcases List.mem_append.1 hx with hx | hx
    · exact h.sound x hx
    · obtain rfl := List.mem_singleton.1 hx
      exact hsound
  · rw [hqueued]
    exact h.order.trans (List.prefix_append _ _)
  · intro hopen
    rw [hqueued]
    -- while the queue is open it holds all that has not been received
    have hheld := h.held (hclosed.symm.trans hopen)
    cases hsound with
    | queued _ _ _ hafter =>
        obtain rfl : queue = { s.queue with jobs := s.queue.jobs ++ [jobOf unit] } := hafter
        rw [Submission.entered_of_queued rfl, ← hheld, List.append_assoc]
    | dropped _ _ _ _ hafter | refused _ _ hafter =>
        obtain rfl : queue = s.queue := hafter
        rw [Submission.entered_of_after rfl, List.append_nil]
        exact hheld
  · intro hgone
    -- a queue that is closed is given nothing more
    have hgone' : s.queue.closed = true := hclosed.symm.trans hgone
    cases hsound with
    | queued hopen =>
        have hopen' : s.queue.closed = false := hopen
        rw [hgone'] at hopen'
        cases hopen'
    | dropped _ _ _ _ hafter | refused _ _ hafter =>
        obtain rfl : queue = s.queue := hafter
        exact h.gone hgone
  · cases hsound with
    | queued _ hspace _ hafter =>
        obtain rfl : queue = { s.queue with jobs := s.queue.jobs ++ [jobOf unit] } := hafter
        rw [DecoderQueue.isFull, decide_eq_false_iff_not, Nat.not_le] at hspace
        exact Nat.le_trans (Nat.le_of_eq List.length_append) hspace
    | dropped _ _ _ _ hafter | refused _ _ hafter =>
        obtain rfl : queue = s.queue := hafter
        exact h.bounded
  · intro x hx hlate
    rw [hclosed]
    rcases List.mem_append.1 hx with hx | hx
    · exact h.late x hx hlate
    · obtain rfl := List.mem_singleton.1 hx
      exact hlate

/-- Receiving leaves all alone but the jobs at hand. -/
theorem receive_cases (s : Line) :
    (s.queue.jobs = [] ∧ s.receive = s)
      ∨ ∃ job rest, s.queue.jobs = job :: rest ∧ s.receive
          = { s with queue := { s.queue with jobs := rest }, received := s.received ++ [job] } := by
  rw [receive, DecoderQueue.receive]
  cases hjobs : s.queue.jobs with
  | nil => exact .inl ⟨rfl, rfl⟩
  | cons job rest => exact .inr ⟨job, rest, rfl, rfl⟩

/-- A receipt keeps the line. -/
theorem kept_receive (h : s.Kept) : s.receive.Kept := by
  rcases receive_cases s with ⟨-, hreceive⟩ | ⟨job, rest, hjobs, hreceive⟩
  · rwa [hreceive]
  have hopen : s.queue.closed = false := by
    cases hgone : s.queue.closed with
    | false => rfl
    | true =>
        rw [h.gone hgone] at hjobs
        cases hjobs
  have hheld : s.received ++ [job] ++ rest = s.queued := by
    rw [← h.held hopen, hjobs, List.append_assoc]
    rfl
  rw [hreceive]
  exact
    { sound := h.sound
      order := ⟨rest, hheld⟩
      held := fun _ => hheld
      gone := fun hgone => absurd (hopen.symm.trans hgone) Bool.false_ne_true
      bounded := by
        have hbounded := h.bounded
        rw [hjobs] at hbounded
        exact Nat.le_of_succ_le hbounded
      late := h.late }

/-- Every turn keeps what is kept. -/
theorem kept_turn (cfg : FetchSettings) (h : s.Kept) (t : Turn) : (s.turn cfg t).Kept := by
  cases t with
  | outside g => cases g <;> exact ⟨h.sound, h.order, h.held, h.gone, h.bounded, h.late⟩
  | offer => exact kept_offer cfg h
  | receive => exact kept_receive h
  | exit =>
      exact
        { sound := h.sound
          order := h.order
          held := fun hopen => by cases hopen
          gone := fun _ => rfl
          bounded := Nat.zero_le _
          late := fun _ _ _ => rfl }
  | moveOn => exact ⟨h.sound, h.order, h.held, h.gone, h.bounded, h.late⟩

/-- Any run keeps the line. -/
theorem kept_run (cfg : FetchSettings) (h : s.Kept) (turns : List Turn) :
    (s.run cfg turns).Kept := by
  induction turns generalizing s with
  | nil => exact h
  | cons t turns ih => exact ih (kept_turn cfg h t)

/-- A queue is closed by the decoder's going alone. -/
theorem closed_turn_iff (cfg : FetchSettings) (s : Line) (t : Turn) :
    (s.turn cfg t).queue.closed = true ↔ s.queue.closed = true ∨ t = .exit := by
  cases t with
  | outside g => cases g <;> simp [turn, hear]
  | offer =>
      rw [turn]
      rcases offer_cases cfg s with hsame | ⟨unit, taken, loop, queue, hsound, hoffer⟩
      · simp [hsame]
      · have hclosed : queue.closed = s.queue.closed := hsound.closed
        simp [hoffer, hclosed]
  | receive =>
      rw [turn, receive, DecoderQueue.receive]
      cases s.queue.jobs <;> simp
  | exit => simp [turn, DecoderQueue.close]
  | moveOn => simp [turn]

/-- The queue is closed when it was or when the decoder exits. -/
theorem closed_run_iff (cfg : FetchSettings) (s : Line) (turns : List Turn) :
    (s.run cfg turns).queue.closed = true ↔ s.queue.closed = true ∨ Turn.exit ∈ turns := by
  induction turns generalizing s with
  | nil => simp [run]
  | cons t turns ih =>
      have hrest : s.run cfg (t :: turns) = (s.turn cfg t).run cfg turns := rfl
      rw [hrest, ih, closed_turn_iff, List.mem_cons, or_assoc, eq_comm (a := t)]

-- =============================================================== what it comes to

variable {segment : Playlist.Segment} {spacing : Nat} {access : Transport.AccessUnit}
variable {units : List Transport.AccessUnit} {left : List Playlist.Segment}

/-- A unit with parameter sets waits while the queue is full. -/
private theorem offer_waits (cfg : FetchSettings)
    (hpoint : s.loop.point = .feeding segment spacing access units left)
    (hcarries : carriesParameterSets access.data = true) (hopen : s.queue.closed = false)
    (hfull : s.queue.isFull = true) : s.offer cfg = s := by
  have hsubmit : submit s.queue s.movedOn access.data = (s.queue, none) := by
    rw [submit, if_pos hcarries, DecoderQueue.submitConfig, hopen, hfull]
    rfl
  rw [offer, hpoint]
  dsimp only
  rw [hsubmit]

/-- A loop that has come to a unit hears nothing but that it is cancelled. -/
private theorem hear_of_feeding (cfg : FetchSettings)
    (hpoint : s.loop.point = .feeding segment spacing access units left) {g : Given}
    (hgoes : g ≠ .cancelled) : s.hear cfg g = s := by
  cases g with
  | taken t => rfl
  | cancelled => exact absurd rfl hgoes
  | segment _ | timePassed | playlist _ => simp only [hear, FetchLoop.step, hpoint]

/-- A unit is put into a queue that has space. -/
private theorem queued_offer (cfg : FetchSettings)
    (hpoint : s.loop.point = .feeding segment spacing access units left)
    (hopen : s.queue.closed = false) (hspace : s.queue.isFull = false) :
    (s.offer cfg).queued = s.queued ++ [jobOf access.data] := by
  rcases submit_cases s.queue s.movedOn access.data with
    ⟨-, -, hfull, -⟩ | ⟨queue, taken, hsubmit, hsound⟩
  · rw [hspace] at hfull
    cases hfull
  have hentered :
      Submission.entered ⟨access.data, s.queue, queue, taken⟩ = [jobOf access.data] := by
    cases hsound with
    | queued _ _ _ hafter => exact Submission.entered_of_queued hafter
    | dropped _ hfull => cases hspace.symm.trans hfull
    | refused hgone => cases hopen.symm.trans hgone
  rw [offer, hpoint]
  dsimp only
  rw [hsubmit, queued, List.flatMap_append, List.flatMap_singleton, hentered]
  rfl

/-- A decoder that has gone ends the segment with a failure, or the loop
without a word if the element has moved on. -/
private theorem loop_offer_of_closed (cfg : FetchSettings)
    (hpoint : s.loop.point = .feeding segment spacing access units left)
    (hgone : s.queue.closed = true) :
    (s.offer cfg).loop = if s.movedOn then { s.loop with point := .ended none }
      else s.loop.fail cfg .decoderGone .reload := by
  have hsubmit : submit s.queue s.movedOn access.data = (s.queue, some (.gone s.movedOn)) := by
    rw [submit, DecoderQueue.submitConfig, DecoderQueue.submitUnit, hgone]
    split <;> rfl
  rw [offer, hpoint]
  dsimp only
  rw [hsubmit]
  cases s.movedOn <;> simp [FetchLoop.step, hpoint]

/-- A receipt makes room in the queue. -/
private theorem isFull_receive (h : s.Kept) (hcapacity : 0 < s.queue.capacity) :
    s.receive.queue.isFull = false := by
  have hbounded := h.bounded
  rcases receive_cases s with ⟨hnone, hreceive⟩ | ⟨job, rest, hjobs, hreceive⟩
  · rw [hreceive, DecoderQueue.isFull, hnone]
    exact decide_eq_false (Nat.not_le.2 hcapacity)
  · rw [hjobs] at hbounded
    rw [hreceive]
    exact decide_eq_false (Nat.not_le.2 hbounded)

/-- A decoder that goes on receiving receives all that was queued. -/
private theorem received_drained (cfg : FetchSettings) (h : s.Kept) (hopen : s.queue.closed = false)
    {n : Nat} (hn : s.queue.jobs.length ≤ n) :
    (s.run cfg (List.replicate n .receive)).received = s.queued := by
  induction n generalizing s with
  | zero =>
      have hheld := h.held hopen
      rwa [List.length_eq_zero_iff.1 (Nat.le_zero.1 hn), List.append_nil] at hheld
  | succ n ih =>
      have hfirst : s.run cfg (List.replicate (n + 1) .receive)
          = s.receive.run cfg (List.replicate n .receive) := rfl
      have hkept := kept_receive h
      rw [hfirst]
      rcases receive_cases s with ⟨hnone, hreceive⟩ | ⟨job, rest, hjobs, hreceive⟩
      · rw [hreceive]
        exact ih h hopen (by rw [hnone]; exact Nat.zero_le n)
      · rw [hreceive] at hkept ⊢
        rw [hjobs] at hn
        exact ih hkept hopen (Nat.le_of_succ_le_succ hn)

/-- A unit that waits is queued once the decoder has received a job. -/
private theorem queued_receive_offer (cfg : FetchSettings) (h : s.Kept)
    (hpoint : s.loop.point = .feeding segment spacing access units left)
    (hopen : s.queue.closed = false) (hcapacity : 0 < s.queue.capacity) :
    (s.receive.offer cfg).queued = s.queued ++ [jobOf access.data] := by
  have hspace := isFull_receive h hcapacity
  rcases receive_cases s with ⟨-, hreceive⟩ | ⟨job, rest, -, hreceive⟩
  · rw [hreceive] at hspace ⊢
    exact queued_offer cfg hpoint hopen hspace
  · rw [hreceive] at hspace ⊢
    exact queued_offer cfg hpoint hopen hspace

/-- Nothing is received from a queue that is closed. -/
private theorem received_turn_of_closed (cfg : FetchSettings) (h : s.Kept)
    (hgone : s.queue.closed = true) (t : Turn) : (s.turn cfg t).received = s.received := by
  cases t with
  | outside g => cases g <;> rfl
  | offer =>
      rw [turn]
      rcases offer_cases cfg s with hsame | ⟨unit, taken, loop, queue, -, hoffer⟩
      · rw [hsame]
      · rw [hoffer]
  | receive =>
      rw [turn]
      rcases receive_cases s with ⟨-, hreceive⟩ | ⟨job, rest, hjobs, -⟩
      · rw [hreceive]
      · rw [h.gone hgone] at hjobs
        cases hjobs
  | exit => rfl
  | moveOn => rfl

/-- A decoder that has gone receives nothing more. -/
theorem received_run_of_closed (cfg : FetchSettings) (h : s.Kept) (hgone : s.queue.closed = true)
    (turns : List Turn) : (s.run cfg turns).received = s.received := by
  induction turns generalizing s with
  | nil => rfl
  | cons t turns ih =>
      have hgone' : (s.turn cfg t).queue.closed = true := (closed_turn_iff cfg s t).2 (.inl hgone)
      exact (ih (kept_turn cfg h t) hgone').trans (received_turn_of_closed cfg h hgone t)

/-- The jobs that come of submissions are theirs, in order. -/
private theorem queued_sublist (h : ∀ x ∈ s.submissions, x.Sound) :
    s.queued.Sublist (s.submissions.map fun x => jobOf x.unit) := by
  rw [queued, ← List.flatMap_singleton' (s.submissions.map fun x => jobOf x.unit), List.flatMap_map]
  exact List.Sublist.flatMap_right _ fun x hx => (h x hx).entered_sublist

end Line

/-- Whether a job has parameter sets. -/
def isConfig : Job → Bool
  | .config _ => true
  | .unit _ => false

private theorem Submission.Sound.filter_entered (h : x.Sound) (hopen : x.before.closed = false) :
    x.entered.filter isConfig
      = if carriesParameterSets x.unit then [.config x.unit] else [] := by
  by_cases hcarries : carriesParameterSets x.unit = true
  · have hjob : jobOf x.unit = .config x.unit := if_pos hcarries
    rw [if_pos hcarries]
    cases h with
    | queued _ _ _ hafter =>
        rw [entered_of_queued hafter, hjob]
        rfl
    | dropped _ _ hplain => cases hcarries.symm.trans hplain
    | refused hgone => cases hopen.symm.trans hgone
  · have hjob : jobOf x.unit = .unit x.unit := if_neg hcarries
    have hnothing := h.entered_sublist.filter isConfig
    rw [hjob] at hnothing
    rw [if_neg hcarries]
    exact List.sublist_nil.1 hnothing

/-- Of the units that were submitted to a decoder that has not gone, all that
have parameter sets are put into its queue. -/
private theorem filter_flatMap_entered {l : List Submission} (hsound : ∀ x ∈ l, x.Sound)
    (hopen : ∀ x ∈ l, x.before.closed = false) :
    (l.flatMap Submission.entered).filter isConfig
      = (l.filter (carriesParameterSets ·.unit)).map (.config ·.unit) := by
  induction l with
  | nil => rfl
  | cons x l ih =>
      rw [List.forall_mem_cons] at hsound hopen
      rw [List.flatMap_cons, List.filter_append, hsound.1.filter_entered hopen.1,
        ih hsound.2 hopen.2, List.filter_cons]
      split_ifs <;> rfl

-- ================================================================== the theorem

/-- What is true of a line at any time.

- `order`: the jobs that were received are those of units that were submitted,
  in order, each of a submission of its own.
- `fates`: a unit that was submitted is in the queue then, unless it has no
  parameter sets and the queue was full, or the decoder had gone.
- `refusals`: the decoder has gone if it had gone when a unit was submitted.
- `held`: before the decoder goes, it has received what was queued, but for
  what is in the queue still; and all units with parameter sets were queued.
- `drained`: and it receives the rest if it goes on receiving.
- `patient`, `waits`, `admitted`: the loop stays at a unit until it is offered
  or the loop is cancelled; one with parameter sets is not submitted while the
  queue is full, and it is queued once the decoder has received a job.
- `ceases`, `stops`: a decoder that has gone receives nothing more, and the
  unit that the loop offers next is a failure, or the end of the loop if the
  element has moved on. -/
structure Fed (cfg : FetchSettings) (s : Line) : Prop where
  order : s.received.Sublist (s.submissions.map fun x => jobOf x.unit)
  fates : ∀ x ∈ s.submissions, x.Sound
  refusals : ∀ x ∈ s.submissions, x.before.closed = true → s.queue.closed = true
  held : s.queue.closed = false → s.received ++ s.queue.jobs = s.queued
    ∧ s.queued.filter isConfig
      = (s.submissions.filter (carriesParameterSets ·.unit)).map (.config ·.unit)
  drained : s.queue.closed = false → ∀ n, s.queue.jobs.length ≤ n →
    (s.run cfg (List.replicate n .receive)).received = s.queued
  patient : ∀ segment spacing unit units left g,
    s.loop.point = .feeding segment spacing unit units left → g ≠ .cancelled →
    s.turn cfg (.outside g) = s
  waits : ∀ segment spacing unit units left,
    s.loop.point = .feeding segment spacing unit units left →
    carriesParameterSets unit.data = true → s.queue.closed = false → s.queue.isFull = true →
    s.turn cfg .offer = s
  admitted : ∀ segment spacing unit units left,
    s.loop.point = .feeding segment spacing unit units left → s.queue.closed = false →
    0 < s.queue.capacity →
    ((s.turn cfg .receive).turn cfg .offer).queued = s.queued ++ [jobOf unit.data]
  ceases : s.queue.closed = true → ∀ more, (s.run cfg more).received = s.received
  stops : ∀ segment spacing unit units left,
    s.loop.point = .feeding segment spacing unit units left →
    s.queue.closed = true →
    (s.turn cfg .offer).loop = if s.movedOn then { s.loop with point := .ended none }
      else s.loop.fail cfg .decoderGone .reload

/-- A line that is kept is fed in order. -/
theorem Line.Kept.fed (cfg : FetchSettings) (h : s.Kept) : Fed cfg s where
  order := h.order.sublist.trans (Line.queued_sublist h.sound)
  fates := h.sound
  refusals := h.late
  held := fun hopen => by
    refine ⟨h.held hopen, filter_flatMap_entered h.sound fun x hx => ?_⟩
    by_contra hgone
    rw [Bool.not_eq_false] at hgone
    cases hopen.symm.trans (h.late x hx hgone)
  drained := fun hopen _ hn => Line.received_drained cfg h hopen hn
  patient := fun _ _ _ _ _ _ hpoint hgoes => Line.hear_of_feeding cfg hpoint hgoes
  waits := fun _ _ _ _ _ hpoint hcarries hopen hfull =>
    Line.offer_waits cfg hpoint hcarries hopen hfull
  admitted := fun _ _ _ _ _ hpoint hopen hcapacity =>
    Line.queued_receive_offer cfg h hpoint hopen hcapacity
  ceases := fun hgone more => Line.received_run_of_closed cfg h hgone more
  stops := fun _ _ _ _ _ hpoint hgone => Line.loop_offer_of_closed cfg hpoint hgone

/-- Whatever the turns, a line is fed in order, and nothing but the decoder's
going closes its queue. -/
theorem parameterSets_never_lost (cfg : FetchSettings) (loop : FetchLoop) (capacity : Nat)
    (turns : List Turn) :
    Fed cfg ((Line.fresh loop capacity).run cfg turns)
      ∧ (((Line.fresh loop capacity).run cfg turns).queue.closed = true ↔ Turn.exit ∈ turns) := by
  refine ⟨(Line.kept_run cfg (Line.kept_fresh loop capacity) turns).fed cfg, ?_⟩
  rw [Line.closed_run_iff]
  exact or_iff_right Bool.false_ne_true

/-- A loop that has come to a unit of one byte. -/
def oneByteLoop : FetchLoop where
  address := { scheme := "http".toList }
  playlist := { targetDuration := 1, mediaSequence := 0, segments := [], ended := false }
  next := none
  point := .feeding ⟨"", 0, 0⟩ 0 ⟨none, [1]⟩ [] []

/-- A unit that was queued is lost if the decoder goes before it has received
it, though the queue was not full. -/
theorem unit_lost_at_exit :
    carriesParameterSets [1] = false
      ∧ (((Line.fresh oneByteLoop 8).run {} [.offer, .exit]).submissions.map fun x =>
          (x.unit, x.before.isFull, x.before.closed)) = [([1], false, false)]
      ∧ ∀ more, (((Line.fresh oneByteLoop 8).run {} [.offer, .exit]).run {} more).received = [] :=
  ⟨rfl, rfl, Line.received_run_of_closed {} (Line.kept_run {} (Line.kept_fresh oneByteLoop 8) _)
    rfl⟩

end VideoWall.Playback
