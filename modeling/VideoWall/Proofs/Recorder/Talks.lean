/-
Dialogues that are held at the same time.

# What can happen

Every dialogue takes its turns in its own order: it asks, hears the answer,
rests and wakes (`Stage.Does`). Between them nothing is fixed: at any time any
of them may take its next turn, or time passes (`Goes`). An answer may
be anything, also that there is none. A pause is over when its time has
passed, and not before. A history of such events from the beginning of all
dialogues to their end is a run (`Run`).

# What is kept

A turn of one dialogue leaves the others where they are. So the turns of each
dialogue in a run are those that it would take alone, with some answers
(`Run.comesTo`), and between the turns by which it rests and wakes at least the
time of the pause has passed (`Run.rests`). There is a run whatever is
answered, in which the dialogues come to what they come to when they are held
one after the other (`exists_run`).
-/
import VideoWall.Proofs.Walks
import VideoWall.Recorder.Dialogue

namespace VideoWall.Recorder.Talks

variable {α : Type} {i n : Nat} {d : Dialogue α} {a : α}

-- ==================================================== turns of one dialogue

/-- What a dialogue does in one turn. -/
inductive Turn where
  | asks (request : Request)
  | hears (answer : Answer)
  | rests (duration : Nat)
  | wakes

/-- Where a dialogue stands: it can go on, it waits for an answer, or it rests
until an instant. -/
inductive Stage (α : Type) where
  | going (d : Dialogue α)
  | waiting (next : Answer → Dialogue α)
  | resting (due : Nat) (next : Dialogue α)

/-- The turns that a dialogue can take at an instant. -/
inductive Stage.Does (now : Nat) : Stage α → Turn → Stage α → Prop where
  | asks {request : Request} {next : Answer → Dialogue α} :
      Does now (.going (.ask request next)) (.asks request) (.waiting next)
  | hears {next : Answer → Dialogue α} (answer : Answer) :
      Does now (.waiting next) (.hears answer) (.going (next answer))
  | rests {duration : Nat} {next : Dialogue α} :
      Does now (.going (.pause duration next)) (.rests duration) (.resting (now + duration) next)
  | wakes {due : Nat} {next : Dialogue α} (h : due ≤ now) :
      Does now (.resting due next) .wakes (.going next)

/-- The turns that a dialogue can take at some instant. -/
def Stage.May (s : Stage α) (x : Turn) (s' : Stage α) : Prop := ∃ now, s.Does now x s'

/-- The turns by which a dialogue comes to a result. -/
inductive ComesTo : Dialogue α → List Turn → α → Prop where
  | done (a : α) : ComesTo (.done a) [] a
  | ask {request : Request} {next : Answer → Dialogue α} {turns : List Turn} {a : α}
      (answer : Answer) (h : ComesTo (next answer) turns a) :
      ComesTo (.ask request next) (.asks request :: .hears answer :: turns) a
  | pause {duration : Nat} {next : Dialogue α} {turns : List Turn} {a : α}
      (h : ComesTo next turns a) :
      ComesTo (.pause duration next) (.rests duration :: .wakes :: turns) a

/-- A dialogue that has come to its end has said what led there. -/
private theorem comesTo_of_walk {turns : List Turn}
    (h : Walk Stage.May (.going d) turns (.going (.done a))) : ComesTo d turns a := by
  induction d generalizing turns with
  | done b =>
      cases h with
      | stay => exact .done _
      | step hfirst hlater =>
          obtain ⟨now, hdoes⟩ := hfirst
          cases hdoes
  | ask request next ih =>
      cases h with
      | step hfirst hlater =>
          obtain ⟨now, hdoes⟩ := hfirst
          cases hdoes
          cases hlater with
          | step hsecond hlater =>
              obtain ⟨now, hdoes⟩ := hsecond
              cases hdoes with
              | hears answer => exact .ask answer (ih answer hlater)
  | pause duration next ih =>
      cases h with
      | step hfirst hlater =>
          obtain ⟨now, hdoes⟩ := hfirst
          cases hdoes
          cases hlater with
          | step hsecond hlater =>
              obtain ⟨now, hdoes⟩ := hsecond
              cases hdoes
              exact .pause (ih hlater)

-- ======================================================== all dialogues

/-- Dialogues that are held at the same time, and the instant in
milliseconds. -/
structure Standing (α : Type) where
  now : Nat
  stages : List (Stage α)

/-- One of the dialogues takes a turn, or time passes. -/
inductive Event where
  | turn (i : Nat) (x : Turn)
  | passes (duration : Nat)

/-- What can happen next. -/
inductive Goes : Standing α → Event → Standing α → Prop where
  | turn {now i : Nat} {stages : List (Stage α)} {s s' : Stage α} {x : Turn}
      (hstage : stages[i]? = some s) (h : s.Does now x s') :
      Goes ⟨now, stages⟩ (.turn i x) ⟨now, stages.set i s'⟩
  | passes {now : Nat} {stages : List (Stage α)} (duration : Nat) :
      Goes ⟨now, stages⟩ (.passes duration) ⟨now + duration, stages⟩

/-- The turns of one dialogue. -/
def turnsOf (i : Nat) (t : List Event) : List Turn :=
  t.filterMap fun
    | .turn j x => if j = i then some x else none
    | .passes _ => none

/-- A turn stands among its dialogue's turns where it stands in the run. -/
theorem turnsOf_at_place (i : Nat) (before after : List Event) (x : Turn) :
    turnsOf i (before ++ .turn i x :: after) = turnsOf i before ++ x :: turnsOf i after := by
  simp [turnsOf]

/-- How much time passes. -/
def passed : List Event → Nat
  | [] => 0
  | .turn _ _ :: t => passed t
  | .passes duration :: t => duration + passed t

/-- Times that pass are added up. -/
theorem passed_append (t u : List Event) : passed (t ++ u) = passed t + passed u := by
  induction t with
  | nil => exact (Nat.zero_add _).symm
  | cons e t ih =>
      cases e with
      | turn i x => exact ih
      | passes duration =>
          rw [List.cons_append, passed, passed, ih, Nat.add_assoc]

/-- The requests that are sent, in the order in which they are sent. -/
def sent (t : List Event) : List Request :=
  t.filterMap fun
    | .turn _ (.asks request) => some request
    | _ => none

/-- The dialogues are held from beginning to end. -/
def Run (dialogues : List (Dialogue α)) (t : List Event) (results : List α) : Prop :=
  ∃ start finish, Walk Goes ⟨start, dialogues.map .going⟩ t
    ⟨finish, results.map fun a => .going (.done a)⟩

-- ============================================================ what is kept

/-- A turn is one of the dialogue that takes it, and leaves the others where
they are. -/
private theorem Goes.own {talks talks' : Standing α} {e : Event} {s : Stage α}
    (h : Goes talks e talks') (hs : talks.stages[i]? = some s) :
    ∃ s', talks'.stages[i]? = some s' ∧ Walk Stage.May s (turnsOf i [e]) s' := by
  cases h with
  | @turn now j stages s₁ s₂ x hstage hdoes =>
      by_cases hi : j = i
      · subst hi
        obtain rfl := Option.some.inj (hs.symm.trans hstage)
        refine ⟨s₂, ?_, ?_⟩
        · rw [List.getElem?_set_self (List.getElem?_eq_some_iff.1 hstage).1]
        · have hown : turnsOf j [.turn j x] = [x] := by simp [turnsOf]
          rw [hown]
          exact .single ⟨now, hdoes⟩
      · refine ⟨s, ?_, ?_⟩
        · rw [List.getElem?_set_ne hi]
          exact hs
        · have hnone : turnsOf i [.turn j x] = [] := by simp [turnsOf, hi]
          rw [hnone]
          exact .stay s
  | passes duration => exact ⟨s, hs, .stay s⟩

/-- What happens to one dialogue in a history are its own turns. -/
theorem own {talks talks' : Standing α} {t : List Event} {s : Stage α}
    (h : Walk Goes talks t talks') (hs : talks.stages[i]? = some s) :
    ∃ s', talks'.stages[i]? = some s' ∧ Walk Stage.May s (turnsOf i t) s' := by
  induction h generalizing s with
  | stay talks => exact ⟨s, hs, .stay s⟩
  | @step talks₁ talks₂ talks₃ e later hgoes _ ih =>
      obtain ⟨s₂, hs₂, hfirst⟩ := hgoes.own hs
      obtain ⟨s₃, hs₃, hlater⟩ := ih hs₂
      have hsplit : turnsOf i (e :: later) = turnsOf i [e] ++ turnsOf i later :=
        List.filterMap_append (l := [e])
      rw [hsplit]
      exact ⟨s₃, hs₃, hfirst.append hlater⟩

/-- The clock shows the time that has passed. -/
private theorem now_eq {talks talks' : Standing α} {t : List Event} (h : Walk Goes talks t talks') :
    talks'.now = talks.now + passed t := by
  induction h with
  | stay talks => rfl
  | @step talks₁ talks₂ talks₃ e later hgoes _ ih =>
      rw [ih]
      cases hgoes with
      | turn hstage hdoes => simp [passed]
      | passes duration => simp [passed, Nat.add_assoc]

/-- A turn of a dialogue is taken at some place in the history. -/
theorem split_of_turnsOf {t : List Event} {x : Turn} (front : List Turn) {back : List Turn}
    (h : turnsOf i t = front ++ x :: back) :
    ∃ before after, t = before ++ .turn i x :: after
      ∧ turnsOf i before = front ∧ turnsOf i after = back := by
  obtain ⟨before, rest, rfl, hbefore, hrest⟩ := List.filterMap_eq_append_iff.1 h
  obtain ⟨between, e, after, rfl, hbetween, he, hafter⟩ := List.filterMap_eq_cons_iff.1 hrest
  cases e with
  | passes duration => cases he
  | turn j y =>
      dsimp only at he
      split_ifs at he with hj
      subst hj
      obtain rfl := Option.some.inj he
      refine ⟨before ++ between, after, by simp, ?_, hafter⟩
      rw [turnsOf, List.filterMap_append, List.filterMap_eq_nil_iff.2 hbetween, List.append_nil]
      exact hbefore

/-- A request is sent in a turn of some dialogue. -/
theorem split_of_sent {t : List Event} {request : Request} (front : List Request)
    {back : List Request} (h : sent t = front ++ request :: back) :
    ∃ before i after, t = before ++ .turn i (.asks request) :: after ∧ sent after = back := by
  obtain ⟨before, rest, rfl, -, hrest⟩ := List.filterMap_eq_append_iff.1 h
  obtain ⟨between, e, after, rfl, -, he, hafter⟩ := List.filterMap_eq_cons_iff.1 hrest
  split at he
  case h_1 i r =>
    obtain rfl := Option.some.inj he
    exact ⟨before ++ between, i, after, by simp, hafter⟩
  case h_2 => cases he

/-- What a dialogue asks is sent. -/
theorem mem_sent_of_asks {t : List Event} {request : Request} (h : .asks request ∈ turnsOf i t) :
    request ∈ sent t := by
  obtain ⟨e, he, hturn⟩ := List.mem_filterMap.1 h
  refine List.mem_filterMap.2 ⟨e, he, ?_⟩
  cases e with
  | passes duration => cases hturn
  | turn j x =>
      dsimp only at hturn
      split_ifs at hturn
      obtain rfl := Option.some.inj hturn
      rfl

/-- There are as many dialogues as before. -/
private theorem length_stages {talks talks' : Standing α} {t : List Event}
    (h : Walk Goes talks t talks') : talks'.stages.length = talks.stages.length := by
  induction h with
  | stay talks => rfl
  | @step talks₁ talks₂ talks₃ e later hgoes _ ih =>
      rw [ih]
      cases hgoes with
      | turn hstage hdoes => exact List.length_set
      | passes duration => rfl

variable {dialogues : List (Dialogue α)} {t : List Event} {results : List α}

/-- Only the dialogues of a run take turns in it. -/
theorem Run.exists_dialogue (h : Run dialogues t results) {x : Turn} {before after : List Event}
    (ht : t = before ++ .turn i x :: after) : ∃ d, dialogues[i]? = some d := by
  obtain ⟨start, finish, hwalk⟩ := h
  rw [ht] at hwalk
  obtain ⟨talks, talks', hbefore, hgoes, -⟩ := hwalk.at_place
  have hlength := length_stages hbefore
  cases hgoes with
  | turn hstage hdoes =>
      obtain ⟨hi, -⟩ := List.getElem?_eq_some_iff.1 hstage
      dsimp only at hlength
      rw [hlength, List.length_map] at hi
      exact ⟨dialogues[i], List.getElem?_eq_getElem hi⟩

/-- Every dialogue of a run comes to a result by its own turns. -/
theorem Run.comesTo (h : Run dialogues t results) (hd : dialogues[i]? = some d) :
    ∃ a, results[i]? = some a ∧ ComesTo d (turnsOf i t) a := by
  obtain ⟨start, finish, hwalk⟩ := h
  have hstart : (dialogues.map Stage.going)[i]? = some (.going d) := by
    rw [List.getElem?_map, hd]
    rfl
  obtain ⟨s, hs, hown⟩ := own hwalk hstart
  rw [List.getElem?_map, Option.map_eq_some_iff] at hs
  obtain ⟨a, ha, rfl⟩ := hs
  exact ⟨a, ha, comesTo_of_walk hown⟩

/-- Between resting and waking at least the time of the pause passes. -/
theorem Run.rests (h : Run dialogues t results) {before between after : List Event}
    (ht : t = before ++ .turn i (.rests n) :: (between ++ .turn i .wakes :: after))
    (hbetween : turnsOf i between = []) : n ≤ passed between := by
  obtain ⟨start, finish, hwalk⟩ := h
  rw [ht] at hwalk
  obtain ⟨talks, talks₁, -, hrests, hlater⟩ := hwalk.at_place
  obtain ⟨talks₂, talks₃, hmiddle, hwakes, -⟩ := hlater.at_place
  cases hrests with
  | @turn now _ stages s s₁ _ hstage hdoes =>
      cases hdoes with
      | @rests _ next =>
          have hresting : (stages.set i (.resting (now + n) next))[i]?
              = some (.resting (now + n) next) :=
            List.getElem?_set_self (List.getElem?_eq_some_iff.1 hstage).1
          obtain ⟨s₂, hs₂, hown⟩ := own hmiddle hresting
          have hnow := now_eq hmiddle
          rw [hbetween] at hown
          cases hown
          cases hwakes with
          | turn hstage₂ hdoes₂ =>
              obtain rfl := Option.some.inj (hs₂.symm.trans hstage₂)
              cases hdoes₂ with
              | wakes hdue =>
                  dsimp only at hnow
                  omega

-- ============================================================ there is a run

/-- What a dialogue comes to when each request has its answer. -/
def outcome (answer : Request → Answer) (d : Dialogue α) : α :=
  (d.run (fun (s : Unit) request => (answer request, s)) ()).1

/-- A dialogue can be held to its end while the others stand still. -/
theorem exists_walk (answer : Request → Answer) (d : Dialogue α)
    (front back : List (Stage α)) (now : Nat) :
    ∃ t finish, Walk Goes ⟨now, front ++ .going d :: back⟩ t
      ⟨finish, front ++ .going (.done (outcome answer d)) :: back⟩ := by
  have hturn : ∀ {now : Nat} {s s' : Stage α} {x : Turn}, s.Does now x s' →
      Goes ⟨now, front ++ s :: back⟩ (.turn front.length x) ⟨now, front ++ s' :: back⟩ := by
    intro now s s' x hdoes
    have hgoes : Goes ⟨now, front ++ s :: back⟩ (.turn front.length x)
        ⟨now, (front ++ s :: back).set front.length s'⟩ := .turn (by simp) hdoes
    rwa [List.set_append_right _ _ Nat.le.refl, Nat.sub_self, List.set_cons_zero] at hgoes
  induction d generalizing now with
  | done a => exact ⟨[], now, .stay _⟩
  | ask request next ih =>
      obtain ⟨t, finish, hwalk⟩ := ih (answer request) now
      exact ⟨_, finish, .step (hturn .asks) (.step (hturn (.hears (answer request))) hwalk)⟩
  | pause duration next ih =>
      obtain ⟨t, finish, hwalk⟩ := ih (now + duration)
      exact ⟨_, finish, .step (hturn .rests)
        (.step (.passes duration) (.step (hturn (.wakes Nat.le.refl)) hwalk))⟩

/-- Dialogues can be held to their ends, one after the other, whatever the
answers. -/
theorem exists_run (answer : Request → Answer) (dialogues : List (Dialogue α)) :
    ∃ t, Run dialogues t (dialogues.map (outcome answer)) := by
  have hrest : ∀ (rest : List (Dialogue α)) (front : List (Stage α)) (now : Nat),
      ∃ t finish, Walk Goes ⟨now, front ++ rest.map .going⟩ t
        ⟨finish, front ++ rest.map fun d => .going (.done (outcome answer d))⟩ := by
    intro rest
    induction rest with
    | nil => exact fun front now => ⟨[], now, .stay _⟩
    | cons d rest ih =>
        intro front now
        obtain ⟨t, middle, hfirst⟩ := exists_walk answer d front (rest.map .going) now
        obtain ⟨u, finish, hothers⟩ := ih (front ++ [.going (.done (outcome answer d))]) middle
        rw [List.append_assoc, List.append_assoc] at hothers
        exact ⟨t ++ u, finish, hfirst.append hothers⟩
  obtain ⟨t, finish, hwalk⟩ := hrest dialogues [] 0
  refine ⟨t, 0, finish, ?_⟩
  rw [List.map_map]
  exact hwalk

end VideoWall.Recorder.Talks
