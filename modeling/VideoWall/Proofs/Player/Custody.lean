/-
Custody of engines: what a session may do with the engines it makes.

# The rules

A session has room for one engine. An engine is made, attached, and in
hand once the attach has come back; in hand it may be attached again,
told to play and listened to, until it is disposed. Only then is there
room for another one. A session that ends has either nothing in hand or
an engine that is still being attached, and that one is lost; and one that
crashes loses the engine that it holds (`Hand.Goes`).

# What follows

These are laws of every walk through the rules: an engine that is spoken
of has been made in the walk or was in hand before (`made_of_mentioned`);
engines are conserved, so as many are made as are disposed or in hand
(`conserved`); and a walk that ends with the session ends with nothing in
hand, right after the attach that is cut short, or in a crash (`walk_gone`,
`walk_attaching`).

# Why sessions keep to them

Where a session waits, its hand is known from its point and its engine
(`Session.Hands`), and each step walks from one hand to the next
(`Session.Lands.deals`), by cases on where steps land.
-/
import Mathlib.Data.List.Count
import VideoWall.Proofs.Player.Moves
import VideoWall.Proofs.Walks

namespace VideoWall.Player

open Media

-- =============================================================== deeds

/-- What a session does. An attach comes back to it whether or not it has
succeeded; `listens` is that it waits for the fatal errors of an engine. The
last thing that it does is to end or to crash. -/
inductive Deed where
  | call (c : Call)
  | returned (engine : EngineId)
  | listens (engine : EngineId)
  | ended
  | crashed

namespace Deed

/-- The engine that a deed is about. -/
def engine? : Deed → Option EngineId
  | .call (.create (.ok g)) | .call (.attach g _ _) | .call (.play g _) | .call (.dispose g)
  | .returned g | .listens g => some g
  | _ => none

/-- The call that a deed is. -/
def call? : Deed → Option Call
  | .call c => some c
  | _ => none

/-- The engine that a deed makes. -/
def created? : Deed → Option EngineId
  | .call (.create (.ok g)) => some g
  | _ => none

/-- Whether a deed disposes an engine. -/
def disposes (engine : EngineId) : Deed → Bool
  | .call (.dispose g) => g == engine
  | _ => false

end Deed

/-- The engines that are made. -/
def created (deeds : List Deed) : List EngineId := deeds.filterMap Deed.created?

-- =============================================================== hands

/-- What a session has in hand. -/
inductive Hand where
  | empty
  | made (engine : EngineId)
  | attaching (engine : EngineId)
  | holding (engine : EngineId)
  | gone
  deriving DecidableEq

namespace Hand

/-- The engine in hand. -/
def engine? : Hand → Option EngineId
  | .made g | .attaching g | .holding g => some g
  | .empty | .gone => none

/-- How often an engine is in hand. -/
def holds (a : Hand) (g : EngineId) : Nat := a.engine?.toList.count g

/-- What may be done with a hand, and what is in it then. -/
inductive Goes : Hand → Deed → Hand → Prop where
  | asks (answer : Except String Url) : Goes .empty (.call (.source answer)) .empty
  | lacks (message : String) : Goes .empty (.call (.create (.error message))) .empty
  | makes (g : EngineId) : Goes .empty (.call (.create (.ok g))) (.made g)
  | attaches (g : EngineId) (k : Nat) (url : Url) :
      Goes (.made g) (.call (.attach g k url)) (.attaching g)
  | takes (g : EngineId) : Goes (.attaching g) (.returned g) (.holding g)
  | asksAgain (g : EngineId) (answer : Except String Url) :
      Goes (.holding g) (.call (.source answer)) (.holding g)
  | attachesAgain (g : EngineId) (k : Nat) (url : Url) :
      Goes (.holding g) (.call (.attach g k url)) (.holding g)
  | goesOn (g : EngineId) : Goes (.holding g) (.returned g) (.holding g)
  | plays (g : EngineId) (muted : Bool) : Goes (.holding g) (.call (.play g muted)) (.holding g)
  | listens (g : EngineId) : Goes (.holding g) (.listens g) (.holding g)
  | disposes (g : EngineId) : Goes (.holding g) (.call (.dispose g)) .empty
  | ends : Goes .empty .ended .gone
  | loses (g : EngineId) : Goes (.attaching g) .ended .gone
  | breaks : Goes .empty .crashed .gone
  | drops (g : EngineId) : Goes (.holding g) .crashed .gone

variable {a b : Hand} {d : Deed} {t before after : List Deed} {g : EngineId}

/-- A deed is about the engine that was in hand or that it makes, and so is
what is in hand then. -/
theorem Goes.engine (h : Goes a d b) :
    (d.engine? = some g → a.engine? = some g ∨ d.created? = some g)
      ∧ (b.engine? = some g → a.engine? = some g ∨ d.created? = some g) := by
  cases h with
  | asks | lacks | ends | loses | breaks | drops =>
      refine ⟨?_, ?_⟩
      · intro hd
        cases hd
      · intro hb
        cases hb
  | makes g' => exact ⟨Or.inr, Or.inr⟩
  | attaches | takes | attachesAgain | goesOn | plays | listens => exact ⟨Or.inl, Or.inl⟩
  | asksAgain =>
      refine ⟨?_, Or.inl⟩
      intro hd
      cases hd
  | disposes =>
      refine ⟨Or.inl, ?_⟩
      intro hb
      cases hb

/-- An engine was made by the first deed or by a later one. -/
theorem mem_created_cons {engine : EngineId} :
    engine ∈ created (d :: t) ↔ d.created? = some engine ∨ engine ∈ created t := by
  simp [created, List.mem_filterMap]

/-- What is in hand in the end was made or was there before. -/
theorem made_of_held (h : Walk Goes a t b) (hb : b.engine? = some g) :
    a.engine? = some g ∨ g ∈ created t := by
  induction h with
  | stay a => exact Or.inl hb
  | step hgoes _ ih =>
      rw [mem_created_cons]
      rcases ih hb with hheld | hmade
      · rcases hgoes.engine.2 hheld with hbefore | hnow
        · exact Or.inl hbefore
        · exact Or.inr (Or.inl hnow)
      · exact Or.inr (Or.inr hmade)

/-- An engine that is spoken of was made or was in hand before. -/
theorem made_of_mentioned (h : Walk Goes a t b) (hd : d ∈ t) (hg : d.engine? = some g) :
    a.engine? = some g ∨ g ∈ created t := by
  obtain ⟨before, after, rfl⟩ := List.append_of_mem hd
  obtain ⟨c, c', hleft, hgoes, -⟩ := h.at_place
  have hmem : g ∈ created before ∨ d.created? = some g → g ∈ created (before ++ d :: after) := by
    intro hor
    unfold created
    rw [List.filterMap_append, List.mem_append, ← created, ← created, mem_created_cons]
    rcases hor with hbefore | hnow
    · exact Or.inl hbefore
    · exact Or.inr (Or.inl hnow)
  rcases hgoes.engine.1 hg with hheld | hnow
  · rcases made_of_held hleft hheld with hstart | hmade
    · exact Or.inl hstart
    · exact Or.inr (hmem (Or.inl hmade))
  · exact Or.inr (hmem (Or.inr hnow))

/-- As long as the session has not ended, a deed makes as many engines as it
disposes or adds to the hand. -/
private theorem Goes.conserved (h : Goes a d b) (hb : b ≠ .gone) (g : EngineId) :
    (d.disposes g).toNat + b.holds g = a.holds g + d.created?.toList.count g := by
  cases h with
  | asks | lacks | attaches | takes | asksAgain | attachesAgain | goesOn | plays | listens =>
      simp [Deed.disposes, Deed.created?, holds, engine?]
  | makes g' => simp [Deed.disposes, Deed.created?, holds, engine?]
  | disposes g' =>
      by_cases hg : g' = g
      · simp [Deed.disposes, Deed.created?, holds, engine?, hg]
      · simp [Deed.disposes, Deed.created?, holds, engine?, hg]
  | ends | loses | breaks | drops => exact absurd rfl hb

/-- After the end nothing is done. -/
theorem walk_of_gone (h : Walk Goes .gone t b) : t = [] ∧ b = .gone := by
  cases h with
  | stay => exact ⟨rfl, rfl⟩
  | step hgoes => cases hgoes

/-- Engines are conserved: what is made is disposed or in hand. -/
theorem conserved (h : Walk Goes a t b) (hb : b ≠ .gone) (g : EngineId) :
    t.countP (Deed.disposes g) + b.holds g = a.holds g + (created t).count g := by
  induction h with
  | stay a => simp [created]
  | @step a c b d later hgoes hlater ih =>
      have hc : c ≠ .gone := by
        rintro rfl
        exact hb (walk_of_gone hlater).2
      have hfirst := hgoes.conserved hc g
      have hrest := ih hb
      have hcreated : (created (d :: later)).count g
          = d.created?.toList.count g + (created later).count g := by
        unfold created
        rw [List.filterMap_cons]
        cases d.created? with
        | none => simp
        | some g' => simp [List.count_cons, Nat.add_comm]
      have hcount : (d :: later).countP (Deed.disposes g)
          = (d.disposes g).toNat + later.countP (Deed.disposes g) := by
        rw [List.countP_cons]
        cases d.disposes g with
        | true => simp [Nat.add_comm]
        | false => simp
      omega

/-- How a session comes to its end: with nothing in hand or while an engine is
attached, or in a crash. -/
inductive Parts : Hand → Deed → Prop where
  | empty : Parts .empty .ended
  | attaching (g : EngineId) : Parts (.attaching g) .ended
  | broken : Parts .empty .crashed
  | holding (g : EngineId) : Parts (.holding g) .crashed

/-- A hand that parts with an engine had one. -/
theorem Parts.ne_gone (h : Parts a d) : a ≠ .gone := by
  rintro rfl
  cases h

/-- The last deed of a session is its end. -/
theorem Goes.parts (h : Goes a d .gone) : Parts a d := by
  cases h with
  | ends => exact .empty
  | loses g => exact .attaching g
  | breaks => exact .broken
  | drops g => exact .holding g

/-- A hand that is gone has parted with its engine once. -/
theorem walk_gone (h : Walk Goes a t .gone) (ha : a ≠ .gone) :
    ∃ before c d, t = before ++ [d] ∧ Walk Goes a before c ∧ Parts c d := by
  rcases List.eq_nil_or_concat t with rfl | ⟨before, d, rfl⟩
  · cases h
    exact absurd rfl ha
  · rw [List.concat_eq_append] at h ⊢
    obtain ⟨c, hleft, hgoes⟩ := h.last
    exact ⟨before, c, d, rfl, hleft, hgoes.parts⟩

/-- An engine is being attached right after it was made. -/
theorem walk_attaching (h : Walk Goes .empty t (.attaching g)) :
    ∃ before k url, t = before ++ [.call (.create (.ok g)), .call (.attach g k url)]
      ∧ Walk Goes .empty before .empty := by
  rcases List.eq_nil_or_concat t with rfl | ⟨rest, d, rfl⟩
  · cases h
  · rw [List.concat_eq_append] at h ⊢
    obtain ⟨c, hleft, hgoes⟩ := h.last
    cases hgoes with
    | attaches _ k url =>
        rcases List.eq_nil_or_concat rest with rfl | ⟨before, d, rfl⟩
        · cases hleft
        · rw [List.concat_eq_append] at hleft ⊢
          obtain ⟨c, hbefore, hgoes⟩ := hleft.last
          cases hgoes
          exact ⟨before, k, url, by simp, hbefore⟩

end Hand

-- ============================================================ sessions

namespace Session

/-- What a session has in hand where it waits. -/
inductive Hands (x : Session) : Hand → Prop where
  | attaching {why : Purpose} {engine : EngineId} (hpoint : x.point = .building why engine)
      (hengine : x.engine = none) : Hands x (.attaching engine)
  | holding {engine : EngineId} (hpoint : ∀ why g, x.point ≠ .building why g)
      (hengine : x.engine = some engine) : Hands x (.holding engine)
  | empty (hpoint : ∀ why g, x.point ≠ .building why g) (hengine : x.engine = none) :
      Hands x .empty

/-- The attach that comes back with a signal. -/
def returns (x : Session) : Signal → List Deed
  | .attached _ =>
      match x.point with
      | .building _ engine => [.returned engine]
      | .refreshing => x.engine.toList.map .returned
      | _ => []
  | _ => []

/-- The engine that a session at rest listens to. -/
def listening (x : Session) : List Deed :=
  if x.point = .resting ∧ x.phase = .playing then x.engine.toList.map .listens else []

/-- An attach that comes back is no call. -/
theorem call?_returns (x : Session) (signal : Signal) : ∀ d ∈ x.returns signal, d.call? = none := by
  intro d hd
  unfold returns at hd
  split at hd
  · split at hd
    · obtain rfl := List.mem_singleton.1 hd
      rfl
    · obtain ⟨engine, -, rfl⟩ := List.mem_map.1 hd
      rfl
    · cases hd
  · cases hd

theorem call?_listening (x : Session) : ∀ d ∈ x.listening, d.call? = none := by
  intro d hd
  unfold listening at hd
  split at hd
  · obtain ⟨engine, -, rfl⟩ := List.mem_map.1 hd
    rfl
  · cases hd

end Session

namespace Move

variable {a : Hand} {m : Move} {cfg : Settings} {supply : Supply} {now : Nat}

/-- What is in hand when a step is on its way. -/
def inHand : Option EngineId → Hand
  | none => .empty
  | some engine => .holding engine

/-- A step on its way that has kept to the rules so far. -/
def Deals (a : Hand) (m : Move) : Prop :=
  Walk Hand.Goes a (m.calls.map .call) (inHand m.session.engine)

/-- A step that has come to a point of waiting, having kept to the rules. -/
def Dealt (a : Hand) (m : Move) : Prop :=
  ∃ b, Walk Hand.Goes a (m.calls.map .call) b ∧ m.session.Hands b

theorem Deals.goto (h : Deals a m) {p : Point} (hp : ∀ why g, p ≠ .building why g) :
    Dealt a (m.goto p) := by
  refine ⟨_, h, ?_⟩
  unfold inHand
  split
  case h_1 hnone => exact .empty hp hnone
  case h_2 engine hsome => exact .holding hp hsome

theorem Deals.rest (h : Deals a m) : Dealt a (m.rest cfg now) :=
  Deals.goto (m := m.rest cfg now) h (p := .resting) (by simp)

theorem Deals.call (h : Deals a m) {c : Call}
    (hc : Hand.Goes (inHand m.session.engine) (.call c) (inHand m.session.engine)) :
    Deals a (m.call c) := by
  unfold Deals
  show Walk Hand.Goes a ((m.calls ++ [c]).map .call) _
  rw [List.map_append]
  exact Walk.append h (.single hc)

/-- A disposal leaves nothing in hand. -/
theorem Deals.dispose (h : Deals a m) : Deals a m.dispose := by
  unfold Deals inHand at h
  unfold Move.dispose
  split
  case h_1 hnone =>
    rw [hnone] at h
    unfold Deals inHand
    rw [hnone]
    exact h
  case h_2 engine hsome =>
    rw [hsome] at h
    unfold Deals
    show Walk Hand.Goes a ((m.calls ++ [Call.dispose engine]).map .call) .empty
    rw [List.map_append]
    exact h.append (.single (.disposes engine))

theorem Deals.fail (h : Deals a m) (message : String) : Dealt a (m.fail cfg now message) :=
  Deals.rest (m := (m.dispose.write (.error message)).enter .failed) h.dispose

theorem Deals.awaitUser (h : Deals a m) : Dealt a (m.awaitUser cfg now) :=
  Deals.rest (m := (m.write .playPrompt).enter .awaitingUser) h

theorem Deals.buildFailed (h : Deals a m) (message : String) (why : Purpose) :
    Dealt a (m.buildFailed cfg now message why) := by
  unfold Move.buildFailed
  split
  · exact h.goto (by simp)
  · exact h.fail message

theorem Deals.recover (h : Deals a m) (message : String) : Dealt a (m.recover cfg now message) := by
  have hwritten : Deals a ((m.enter .recovering).write (.status ("reconnecting: " ++ message))) := h
  exact hwritten.dispose.goto (by simp)

/-- A build disposes what is in hand before it makes an engine. -/
theorem Deals.build (h : Deals a m) (why : Purpose) : Dealt a (m.build cfg supply now why) := by
  obtain ⟨source, made⟩ := supply
  have hnone : inHand m.dispose.session.engine = .empty := by
    rw [engine_dispose]
    rfl
  have hasked : Deals a (m.dispose.call (.source source)) := by
    refine h.dispose.call ?_
    rw [hnone]
    exact .asks source
  cases source with
  | error message => exact hasked.buildFailed message why
  | ok url =>
      cases made with
      | error message =>
          have hlacking : Deals a ((m.dispose.call (.source (.ok url))).call
              (.create (.error message))) := by
            refine hasked.call ?_
            show Hand.Goes (inHand m.dispose.session.engine) _ (inHand m.dispose.session.engine)
            rw [hnone]
            exact .lacks message
          exact hlacking.buildFailed message why
      | ok engine =>
          have hwalk : Walk Hand.Goes a ((m.dispose.calls ++ [Call.source (.ok url)]).map .call)
              .empty := hnone ▸ hasked
          refine ⟨.attaching engine, ?_, .attaching rfl (engine_dispose m)⟩
          show Walk Hand.Goes a ((((m.dispose.calls ++ [Call.source (.ok url)])
            ++ [Call.create (.ok engine)]) ++ [Call.attach engine _ url]).map .call) _
          rw [List.map_append, List.map_append]
          exact (hwalk.append (.single (.makes engine))).append (.single (.attaches engine _ url))

end Move

-- ============================================================ the steps

namespace Session

variable {cfg : Settings} {supply : Supply} {now : Nat} {signal : Signal}
variable {x : Session} {e : Element} {m : Move} {a : Hand}

/-- A session that rests listens to the engine in its hand, if to any. -/
theorem Hands.listening (h : x.Hands a) : Walk Hand.Goes a x.listening a := by
  unfold Session.listening
  split
  case isFalse => exact .stay a
  case isTrue hrest =>
    cases h with
    | attaching hpoint hengine =>
        rw [hrest.1] at hpoint
        cases hpoint
    | holding hpoint hengine =>
        rw [hengine]
        exact .single (.listens _)
    | empty hpoint hengine =>
        rw [hengine]
        exact .stay _

/-- Elsewhere than in a build, what is in hand is the engine. -/
theorem Hands.inHand (h : x.Hands a) (hpoint : ∀ why g, x.point ≠ .building why g) :
    a = Move.inHand x.engine := by
  cases h with
  | attaching hbuild hengine => exact absurd hbuild (hpoint _ _)
  | holding _ hengine => rw [hengine, Move.inHand]
  | empty _ hengine => rw [hengine, Move.inHand]

/-- Every step of a session keeps to the rules. -/
theorem Lands.deals (h : x.Lands cfg supply now e signal m) (hx : x.Hands a) :
    ∃ b, Walk Hand.Goes a (x.returns signal ++ m.calls.map .call) b ∧ m.session.Hands b := by
  -- a step that sets out with the engine in hand, and nothing comes back with its signal
  have hbegin : ∀ y : Session, y.engine = x.engine → (∀ why g, x.point ≠ .building why g) →
      Move.Deals a ⟨y, e, []⟩ := by
    intro y hy hpoint
    unfold Move.Deals
    rw [hx.inHand hpoint, ← hy]
    exact .stay _
  -- a step that sets out with the engine that has come back
  have hback : ∀ {why engine}, x.point = .building why engine →
      ∀ {m' : Move} {outcome : Except String Unit},
        (Move.Deals (.holding engine) ⟨{ x with engine := some engine }, e, []⟩ →
          Move.Dealt (.holding engine) m') →
        ∃ b, Walk Hand.Goes a (x.returns (.attached outcome) ++ m'.calls.map .call) b
          ∧ m'.session.Hands b := by
    intro why engine hpoint m' outcome hdealt
    have ha : a = .attaching engine := by
      cases hx with
      | attaching hbuild hengine =>
          rw [hpoint] at hbuild
          cases hbuild
          rfl
      | holding hnot => exact absurd hpoint (hnot _ _)
      | empty hnot => exact absurd hpoint (hnot _ _)
    obtain ⟨b, hwalk, hhands⟩ := hdealt (.stay _)
    refine ⟨b, ?_, hhands⟩
    have hreturns : x.returns (.attached outcome) = [.returned engine] := by
      rw [returns, hpoint]
    rw [hreturns, ha]
    exact (Walk.single (.takes engine)).append hwalk
  -- the attach of a refresh comes back to the engine in hand
  have hagain : x.point = .refreshing → ∀ outcome,
      Walk Hand.Goes a (x.returns (.attached outcome)) (Move.inHand x.engine) := by
    intro hpoint outcome
    have ha := hx.inHand (by simp [hpoint])
    have hreturns : x.returns (.attached outcome) = x.engine.toList.map .returned := by
      rw [returns, hpoint]
    rw [hreturns, ha]
    cases hengine : x.engine with
    | none => exact .stay _
    | some engine => exact .single (.goesOn engine)
  cases h with
  | begins hpoint =>
      exact (hbegin { x with phase := .attaching } rfl (by simp [hpoint])).build .firstStart
  | @told why engine hpoint hplay =>
      refine hback hpoint fun hm => ?_
      have htold := hm.call (c := .play engine (why.muted cfg)) (.plays engine _)
      exact htold.goto (p := .starting why.attempt (why.muted cfg)) (by simp)
  | offered hpoint hwhy hplay => exact hback hpoint fun hm => hm.awaitUser
  | postponed message hpoint => exact hback hpoint fun hm => hm.goto (by simp)
  | refused message hpoint hwhy => exact hback hpoint fun hm => hm.fail message
  | pauseOver why hpoint hdue =>
      exact (hbegin x rfl (by simp [hpoint])).build why.purpose
  | @reissued engine hpoint hengine hphase =>
      have hreturned := hagain hpoint (.ok ())
      rw [hengine] at hreturned
      exact ⟨_, hreturned.append (.single (.plays engine _)), .holding (by simp) hengine⟩
  | outdated message hpoint hengine =>
      have hstay : Move.Deals (Move.inHand x.engine) ⟨x, e, []⟩ := .stay _
      obtain ⟨b, hwalk, hhands⟩ : Move.Dealt _ (Move.recover cfg now message ⟨x, e, []⟩) :=
        hstay.recover message
      exact ⟨b, (hagain hpoint (.error message)).append hwalk, hhands⟩
  | @plays why muted hpoint hengine =>
      have hplays := hbegin x rfl (by simp [hpoint])
      exact Move.Deals.rest (m := (Move.write (.playing muted) ⟨x, e, []⟩).enter .playing) hplays
  | declined message hpoint =>
      exact (hbegin { x with phase := .attaching } rfl (by simp [hpoint])).build .userPlay
  | lapsed message hpoint hengine => exact (hbegin x rfl (by simp [hpoint])).recover message
  | balks message hpoint hwhy hengine => exact (hbegin x rfl (by simp [hpoint])).awaitUser
  | goesOn hpoint hwishes hphase hengine =>
      exact (hbegin x.heard rfl (by simp [hpoint])).rest
  | @resumes engine hpoint hwishes hphase hengine =>
      have hheard := hbegin x.heard rfl (by simp [hpoint])
      have hplay : Hand.Goes (Move.inHand x.heard.engine) (.call (.play engine false))
          (Move.inHand x.heard.engine) := by
        show Hand.Goes (Move.inHand x.engine) _ (Move.inHand x.engine)
        rw [hengine]
        exact .plays engine false
      exact (hheard.call hplay).goto (p := .starting .resume false) (by simp)
  | rebuilds hpoint hwishes hphase =>
      exact (hbegin { x.heard with phase := .attaching } rfl (by simp [hpoint])).build .userPlay
  | fatal message hpoint hphase hengine =>
      exact (hbegin { x with restarts := true } rfl (by simp [hpoint])).recover message
  | @refreshes due url engine hpoint hclock hphase hdue hsource hengine =>
      have ha := hx.inHand (by simp [hpoint])
      rw [hengine] at ha
      rw [ha]
      exact ⟨_, .step (.asksAgain engine _) (.single (.attachesAgain engine _ url)),
        .holding (by simp) hengine⟩
  | @skips due message hpoint hclock hphase hdue hsource hengine =>
      have hdated := hbegin (x.dated cfg now due) rfl (by simp [hpoint])
      obtain ⟨engine, hheld⟩ := Option.isSome_iff_exists.1 hengine
      have hasked : Hand.Goes (Move.inHand (x.dated cfg now due).engine)
          (.call (.source (.error message))) (Move.inHand (x.dated cfg now due).engine) := by
        show Hand.Goes (Move.inHand x.engine) _ (Move.inHand x.engine)
        rw [hheld]
        exact .asksAgain engine _
      exact (hdated.call hasked).rest

/-- A session that crashes does so with its engine in hand, if it has one. -/
theorem crashes (x : Session) : Walk Hand.Goes (Move.inHand x.engine) [.crashed] .gone := by
  cases x.engine with
  | none => exact .single .breaks
  | some engine => exact .single (.drops engine)

/-- A session that is cancelled disposes what it holds, and ends. -/
theorem Hands.cancel (h : x.Hands a) :
    Walk Hand.Goes a (x.cancel.2.map .call ++ [.ended]) .gone := by
  unfold Session.cancel
  dsimp only
  cases h with
  | attaching hpoint hengine =>
      rw [hengine]
      exact .single (.loses _)
  | holding hpoint hengine =>
      rw [hengine]
      exact .step (.disposes _) (.single .ends)
  | empty hpoint hengine =>
      rw [hengine]
      exact .single .ends

end Session

end VideoWall.Player
