/-
For which epoch an engine was attached last, read off the calls that were
made; and that a session and the engine in its hand are of one epoch.

An engine that plays says so to the element for the epoch of its latest
attach. A session lets it speak for the session's own epoch, and that is
the same one: whenever a session takes a new epoch it attaches an engine
for it in the same step, the one in hand or one that it builds
(`Session.Attuned`, `Session.Awaits`).
-/
import VideoWall.Proofs.Player.Moves

namespace VideoWall.Player

open Media

-- ======================================================== latest attach

/-- The epoch of a call that attaches an engine. -/
def Call.attachEpoch? (engine : EngineId) : Call → Option Nat
  | .attach g epoch _ => if g = engine then some epoch else none
  | _ => none

/-- The epoch that an engine was attached for last. -/
def lastEpoch? (engine : EngineId) (calls : List Call) : Option Nat :=
  (calls.filterMap (Call.attachEpoch? engine)).getLast?

/-- Calls that attach nothing leave the latest attach as it was. -/
theorem lastEpoch?_append {engine : EngineId} {calls more : List Call}
    (hmore : ∀ c ∈ more, c.attachEpoch? engine = none) :
    lastEpoch? engine (calls ++ more) = lastEpoch? engine calls := by
  have hnone : more.filterMap (Call.attachEpoch? engine) = [] :=
    List.filterMap_eq_nil_iff.2 hmore
  unfold lastEpoch?
  rw [List.filterMap_append, hnone, List.append_nil]

/-- The latest attach is the last one. -/
private theorem lastEpoch?_attach (engine : EngineId) (calls : List Call) (k : Nat) (url : Url) :
    lastEpoch? engine (calls ++ [.attach engine k url]) = some k := by
  simp [lastEpoch?, Call.attachEpoch?]

/-- An engine's last epoch is the one of its last attachment. -/
theorem lastEpoch?_call {prior : List Call} (engine : EngineId) (k : Nat) (url : Url) (m : Move) :
    lastEpoch? engine (prior ++ (m.call (.attach engine k url)).calls) = some k := by
  show lastEpoch? engine (prior ++ (m.calls ++ [_])) = some k
  rw [← List.append_assoc, lastEpoch?_attach]

-- ==================================================== engines of an epoch

/-- The engine in hand was attached last for the session's epoch. -/
def Session.Attuned (x : Session) (calls : List Call) : Prop :=
  ∀ engine, x.engine = some engine → lastEpoch? engine calls = some x.epoch

/-- The engine that is being attached is being attached for the session's
epoch. -/
def Session.Awaits (x : Session) (calls : List Call) : Prop :=
  ∀ why engine, x.point = .building why engine → lastEpoch? engine calls = some x.epoch

namespace Move

variable {prior : List Call} {m : Move} {cfg : Settings} {supply : Supply} {now : Nat}

/-- The session of a step on its way, with the calls made before the step
and in it. -/
def Attuned (prior : List Call) (m : Move) : Prop := m.session.Attuned (prior ++ m.calls)

/-- A step that has come to a point of waiting with its engines in tune. -/
structure Tuned (prior : List Call) (m : Move) : Prop where
  attuned : m.Attuned prior
  awaits : m.session.Awaits (prior ++ m.calls)

/-- A call that attaches no engine keeps a move attuned. -/
theorem Attuned.call (h : m.Attuned prior) {c : Call}
    (hc : ∀ engine, c.attachEpoch? engine = none) : (m.call c).Attuned prior := by
  intro engine hengine
  show lastEpoch? engine (prior ++ (m.calls ++ [c])) = _
  rw [← List.append_assoc, lastEpoch?_append (by simpa using hc engine)]
  exact h engine hengine

/-- Without an engine in hand there is nothing to ask for. -/
theorem attuned_of_none (h : m.session.engine = none) : m.Attuned prior := by
  intro engine hengine
  rw [h] at hengine
  cases hengine

private theorem attuned_dispose (prior : List Call) (m : Move) : m.dispose.Attuned prior :=
  attuned_of_none (engine_dispose m)

/-- At any point but a build, tune is a matter of the engine in hand. -/
theorem Attuned.tuned (h : m.Attuned prior)
    (hpoint : ∀ why engine, m.session.point ≠ .building why engine) : Tuned prior m :=
  ⟨h, fun why engine hp => absurd hp (hpoint why engine)⟩

theorem tuned_fail (prior : List Call) (m : Move) (message : String) :
    Tuned prior (m.fail cfg now message) :=
  Attuned.tuned (attuned_of_none (engine_dispose m)) (fun _ _ hp => by cases hp)

theorem Attuned.awaitUser (h : m.Attuned prior) : Tuned prior (m.awaitUser cfg now) :=
  Attuned.tuned (m := m.awaitUser cfg now) h (fun _ _ hp => by cases hp)

/-- A session that comes to rest keeps its move attuned. -/
theorem Attuned.rest (h : m.Attuned prior) : Tuned prior (m.rest cfg now) :=
  Attuned.tuned (m := m.rest cfg now) h (fun _ _ hp => by cases hp)

theorem Attuned.buildFailed (h : m.Attuned prior) (message : String) (why : Purpose) :
    Tuned prior (m.buildFailed cfg now message why) := by
  unfold Move.buildFailed
  split
  · exact Attuned.tuned (m := m.goto _) h (fun _ _ hp => by cases hp)
  · exact tuned_fail prior m message

/-- A build attaches the new engine for the epoch of the new source. -/
private theorem tuned_build (prior : List Call) (m : Move) (why : Purpose) :
    Tuned prior (m.build cfg supply now why) := by
  obtain ⟨source, created⟩ := supply
  have hasked : (m.dispose.call (.source source)).Attuned prior :=
    (attuned_dispose prior m).call (fun _ => rfl)
  cases source with
  | error message => exact hasked.buildFailed message why
  | ok url =>
      cases created with
      | error message => exact (hasked.call (fun _ => rfl)).buildFailed message why
      | ok engine =>
          refine ⟨attuned_of_none (engine_dispose m), ?_⟩
          intro _ _ hp
          cases hp
          exact lastEpoch?_call engine _ url
            ((m.dispose.call (.source (.ok url))).call (.create (.ok engine)))

private theorem tuned_recover (prior : List Call) (m : Move) (message : String) :
    Tuned prior (m.recover cfg now message) :=
  Attuned.tuned (attuned_of_none (engine_dispose _)) (fun _ _ hp => by cases hp)

/-- An engine in hand may be told to play. -/
private theorem Attuned.start (h : m.Attuned prior) (engine : EngineId) (why : Attempt)
    (muted : Bool) : Tuned prior ((m.call (.play engine muted)).goto (.starting why muted)) :=
  Attuned.tuned (m := (m.call _).goto _) (h.call fun _ => rfl) (fun _ _ hp => by cases hp)

end Move

-- ============================================================ the steps

namespace Session

variable {cfg : Settings} {supply : Supply} {now : Nat} {signal : Signal}
variable {x : Session} {e : Element} {m : Move} {prior : List Call}

/-- A step keeps engines in tune. -/
theorem Lands.tuned (hlands : x.Lands cfg supply now e signal m) (hx : x.Attuned prior)
    (hawaits : x.Awaits prior) : Move.Tuned prior m := by
  -- a move that has made no call yet has the engine that its session had
  have hheld : ∀ y : Session, y.engine = x.engine → y.epoch = x.epoch →
      Move.Attuned prior ⟨y, e, []⟩ := by
    intro y hengine hepoch engine hy
    show lastEpoch? engine (prior ++ []) = some y.epoch
    rw [List.append_nil, hepoch]
    exact hx engine (hengine ▸ hy)
  -- an engine that is being built has been attached, in the session's own epoch
  have htaken : ∀ {why engine}, x.point = .building why engine →
      Move.Attuned prior ⟨{ x with engine := some engine }, e, []⟩ := by
    intro why engine hpoint engine' hengine
    cases hengine
    show lastEpoch? engine (prior ++ []) = some x.epoch
    rw [List.append_nil]
    exact hawaits why engine hpoint
  cases hlands with
  | begins hpoint => exact Move.tuned_build prior _ .firstStart
  | @told why engine hpoint hplay => exact (htaken hpoint).start engine why.attempt (why.muted cfg)
  | offered hpoint hwhy hplay => exact (htaken hpoint).awaitUser
  | postponed message hpoint => exact (htaken hpoint).buildFailed message .firstStart
  | refused message hpoint hwhy => exact Move.tuned_fail prior _ message
  | pauseOver why hpoint hdue => exact Move.tuned_build prior _ why.purpose
  | @reissued engine hpoint hengine hphase =>
      exact (hheld x rfl rfl).start engine .refresh cfg.autoplayMuted
  | outdated message hpoint hengine => exact Move.tuned_recover prior _ message
  | @plays why muted hpoint hengine =>
      exact Move.Attuned.rest
        (m := (Move.write (.playing muted) ⟨x, e, []⟩).enter .playing) (hheld x rfl rfl)
  | declined message hpoint => exact Move.tuned_build prior _ .userPlay
  | lapsed message hpoint hengine => exact Move.tuned_recover prior _ message
  | balks message hpoint hwhy hengine => exact (hheld x rfl rfl).awaitUser
  | goesOn hpoint hwishes hphase hengine => exact (hheld x.heard rfl rfl).rest
  | @resumes engine hpoint hwishes hphase hengine =>
      exact (hheld x.heard rfl rfl).start engine .resume false
  | rebuilds hpoint hwishes hphase => exact Move.tuned_build prior _ .userPlay
  | fatal message hpoint hphase hengine => exact Move.tuned_recover prior _ message
  | @refreshes due url engine hpoint hclock hphase hdue hsource hengine =>
      refine Move.Attuned.tuned ?_ (fun _ _ hp => by cases hp)
      intro engine' hengine'
      have hsame : some engine = some engine' := hengine.symm.trans hengine'
      cases hsame
      exact lastEpoch?_call engine _ url (Move.call (.source (.ok url)) ⟨x, e, []⟩)
  | @skips due message hpoint hclock hphase hdue hsource hengine =>
      have hasked := (hheld (x.dated cfg now due) rfl rfl).call
        (c := .source (.error message)) (fun _ => rfl)
      exact hasked.rest

end Session

end VideoWall.Player
