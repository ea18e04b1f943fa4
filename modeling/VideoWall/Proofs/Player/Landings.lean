/-
Where the steps of a session end.

A session that takes a signal runs on, through moves that call one
another, to the next point where it waits. What a session holds where it
waits is known (`Session.Placed`), and so every step can be followed to
its end: `Session.Lands` has a rule for each end, with what was checked on
the way there. What steps keep is shown by cases on these rules, and none
of the proofs follows the moves again.
-/
import VideoWall.Proofs.Player.Steps

namespace VideoWall.Player

open Media

-- ======================================================== the invariant

namespace Session

/-- The session's source is the source of the element. -/
def OnSource (x : Session) (e : Element) : Prop := x.epoch = e.epoch ∧ e.source.isSome = true

/-- What a session holds where it waits. -/
def Placed (x : Session) (e : Element) : Prop :=
  match x.point with
  | .fresh | .pausing _ _ => True
  | .building _ _ => x.OnSource e
  | .refreshing => x.engine.isSome = true ∧ x.phase = .playing
  | .starting why _ => x.engine.isSome = true ∧ (why = .refresh → x.phase = .playing)
  | .resting =>
      (x.phase = .failed ∧ x.engine = none)
        ∨ ((x.phase = .playing ∨ x.phase = .awaitingUser) ∧ x.engine.isSome = true)
  | .over => False

/-- A session at a point of waiting, on the element it owns. -/
structure Sound (x : Session) (e : Element) : Prop where
  epoch : x.epoch = 0 ∨ x.OnSource e
  engine : x.engine.isSome = true → x.OnSource e
  placed : x.Placed e

end Session

-- ============================================================ the ends

/-- What a new engine is told to play for. -/
def Purpose.attempt : Purpose → Attempt
  | .firstStart | .secondStart => .autoplay
  | .userPlay => .userPlay
  | .recovery => .recovery

/-- Whether a new engine is told to play muted. -/
def Purpose.muted (cfg : Settings) : Purpose → Bool
  | .userPlay => false
  | _ => cfg.autoplayMuted

namespace Session

/-- A session that has heard one of the user's wishes. -/
def heard (x : Session) : Session := { x with wishes := x.wishes - 1, restarts := true }

/-- A session whose refresh that was due at `due` is made. -/
def dated (cfg : Settings) (now due : Nat) (x : Session) : Session :=
  { x with refreshAt := some (nextRefresh cfg due now) }

/-- A step of a sound session `x` on its element `e`, followed to where the
session waits next. -/
inductive Lands (cfg : Settings) (supply : Supply) (now : Nat) (x : Session) (e : Element) :
    Signal → Move → Prop where
  | begins (hpoint : x.point = .fresh) :
      Lands cfg supply now x e .begins
        (Move.build cfg supply now .firstStart ⟨{ x with phase := .attaching }, e, []⟩)
  | told {why : Purpose} {engine : EngineId} (hpoint : x.point = .building why engine)
      (hplay : why.attempt = .autoplay → cfg.autoplay = true) :
      Lands cfg supply now x e (.attached (.ok ()))
        ⟨{ x with point := .starting why.attempt (why.muted cfg), engine := some engine }, e,
          [.play engine (why.muted cfg)]⟩
  | offered {why : Purpose} {engine : EngineId} (hpoint : x.point = .building why engine)
      (hwhy : why.attempt = .autoplay) (hplay : cfg.autoplay = false) :
      Lands cfg supply now x e (.attached (.ok ()))
        (Move.awaitUser cfg now ⟨{ x with engine := some engine }, e, []⟩)
  | postponed {engine : EngineId} (message : String)
      (hpoint : x.point = .building .firstStart engine) :
      Lands cfg supply now x e (.attached (.error message))
        (Move.goto (.pausing .secondStart (now + cfg.retryDelay))
          ⟨{ x with engine := some engine }, e, []⟩)
  | refused {why : Purpose} {engine : EngineId} (message : String)
      (hpoint : x.point = .building why engine) (hwhy : why ≠ .firstStart) :
      Lands cfg supply now x e (.attached (.error message))
        (Move.fail cfg now message ⟨{ x with engine := some engine }, e, []⟩)
  | pauseOver (why : Pause) {due : Nat} (hpoint : x.point = .pausing why due) (hdue : due ≤ now) :
      Lands cfg supply now x e .pauseOver (Move.build cfg supply now why.purpose ⟨x, e, []⟩)
  | reissued {engine : EngineId} (hpoint : x.point = .refreshing)
      (hengine : x.engine = some engine) (hphase : x.phase = .playing) :
      Lands cfg supply now x e (.attached (.ok ()))
        ⟨{ x with point := .starting .refresh cfg.autoplayMuted }, e,
          [.play engine cfg.autoplayMuted]⟩
  | outdated (message : String) (hpoint : x.point = .refreshing)
      (hengine : x.engine.isSome = true) :
      Lands cfg supply now x e (.attached (.error message))
        (Move.recover cfg now message ⟨x, e, []⟩)
  | plays {why : Attempt} {muted : Bool} (hpoint : x.point = .starting why muted)
      (hengine : x.engine.isSome = true) :
      Lands cfg supply now x e (.played (.ok ()))
        (((Move.write (.playing muted) ⟨x, e, []⟩).enter .playing).rest cfg now)
  | declined {muted : Bool} (message : String) (hpoint : x.point = .starting .resume muted) :
      Lands cfg supply now x e (.played (.error message))
        (Move.build cfg supply now .userPlay ⟨{ x with phase := .attaching }, e, []⟩)
  | lapsed {muted : Bool} (message : String) (hpoint : x.point = .starting .refresh muted)
      (hengine : x.engine.isSome = true) :
      Lands cfg supply now x e (.played (.error message))
        (Move.recover cfg now message ⟨x, e, []⟩)
  | balks {why : Attempt} {muted : Bool} (message : String)
      (hpoint : x.point = .starting why muted) (hwhy : why ≠ .resume ∧ why ≠ .refresh)
      (hengine : x.engine.isSome = true) :
      Lands cfg supply now x e (.played (.error message))
        (Move.awaitUser cfg now ⟨x, e, []⟩)
  | goesOn (hpoint : x.point = .resting) (hwishes : x.wishes ≠ 0) (hphase : x.phase = .playing)
      (hengine : x.engine.isSome = true) :
      Lands cfg supply now x e .wish (Move.rest cfg now ⟨x.heard, e, []⟩)
  | resumes {engine : EngineId} (hpoint : x.point = .resting) (hwishes : x.wishes ≠ 0)
      (hphase : x.phase = .awaitingUser) (hengine : x.engine = some engine) :
      Lands cfg supply now x e .wish
        ⟨{ x.heard with point := .starting .resume false }, e, [.play engine false]⟩
  | rebuilds (hpoint : x.point = .resting) (hwishes : x.wishes ≠ 0) (hphase : x.phase = .failed) :
      Lands cfg supply now x e .wish
        (Move.build cfg supply now .userPlay ⟨{ x.heard with phase := .attaching }, e, []⟩)
  | fatal (message : String) (hpoint : x.point = .resting) (hphase : x.phase = .playing)
      (hengine : x.engine.isSome = true) :
      Lands cfg supply now x e (.fatal message)
        (Move.recover cfg now message ⟨{ x with restarts := true }, e, []⟩)
  | refreshes {due : Nat} {url : Url} {engine : EngineId} (hpoint : x.point = .resting)
      (hclock : x.refreshAt = some due) (hphase : x.phase = .playing) (hdue : due ≤ now)
      (hsource : supply.source = .ok url) (hengine : x.engine = some engine) :
      Lands cfg supply now x e .refreshDue
        ⟨{ x.dated cfg now due with point := .refreshing, epoch := (e.refreshSource url).epoch },
          e.refreshSource url,
          [.source (.ok url), .attach engine (e.refreshSource url).epoch url]⟩
  | skips {due : Nat} {message : String} (hpoint : x.point = .resting)
      (hclock : x.refreshAt = some due) (hphase : x.phase = .playing) (hdue : due ≤ now)
      (hsource : supply.source = .error message) (hengine : x.engine.isSome = true) :
      Lands cfg supply now x e .refreshDue
        (Move.rest cfg now ⟨x.dated cfg now due, e, [.source (.error message)]⟩)

end Session

-- ========================================================= the way there

namespace Move

variable {m : Move}

/-- What is told to play is the engine in hand. -/
theorem start_of_held {cfg : Settings} {supply : Supply} {now : Nat} {engine : EngineId}
    (hengine : m.session.engine = some engine) (why : Attempt) (muted : Bool) :
    m.start cfg supply now why muted
      = (m.call (.play engine muted)).goto (.starting why muted) := by
  unfold start
  rw [hengine]

/-- To enter the phase that a session is in changes nothing. -/
theorem enter_self {p : Phase} (hphase : m.session.phase = p) : m.enter p = m := by
  obtain ⟨session, element, calls⟩ := m
  obtain ⟨serial, point, phase, epoch, engine, refreshAt, restarts, wishes⟩ := session
  cases hphase
  rfl

end Move

namespace Session

variable {cfg : Settings} {supply : Supply} {now : Nat} {signal : Signal}
variable {x : Session} {e : Element} {m : Move}

/-- A new engine is told to play, or the user is asked. -/
private theorem lands_built {why : Purpose} {engine : EngineId}
    (hpoint : x.point = .building why engine) :
    x.Lands cfg supply now e (.attached (.ok ()))
      (Move.built cfg supply now why ⟨{ x with engine := some engine }, e, []⟩) := by
  -- only a start may have to wait for the user
  have hstart : why.attempt = .autoplay → ∀ muted, muted = why.muted cfg →
      x.Lands cfg supply now e (.attached (.ok ()))
        (if cfg.autoplay then
          Move.start cfg supply now .autoplay muted ⟨{ x with engine := some engine }, e, []⟩
        else Move.awaitUser cfg now ⟨{ x with engine := some engine }, e, []⟩) := by
    intro hwhy muted hmuted
    cases hplay : cfg.autoplay with
    | true =>
        have htold : x.Lands cfg supply now e (.attached (.ok ())) _ :=
          .told hpoint (fun _ => hplay)
        rw [hwhy, ← hmuted] at htold
        exact htold
    | false => exact .offered hpoint hwhy hplay
  cases why with
  | firstStart => exact hstart rfl _ rfl
  | secondStart => exact hstart rfl _ rfl
  | userPlay => exact .told hpoint (fun hwhy => by cases hwhy)
  | recovery => exact .told hpoint (fun hwhy => by cases hwhy)

/-- An engine that is refused lands the session in a failed building. -/
private theorem lands_refused {why : Purpose} {engine : EngineId} (message : String)
    (hpoint : x.point = .building why engine) :
    x.Lands cfg supply now e (.attached (.error message))
      (Move.buildFailed cfg now message why ⟨{ x with engine := some engine }, e, []⟩) := by
  cases why with
  | firstStart => exact .postponed message hpoint
  | _ => exact .refused message hpoint (by decide)

/-- A play that succeeds lands the session in what follows a play. -/
private theorem lands_plays {why : Attempt} {muted : Bool} (hpoint : x.point = .starting why muted)
    (hengine : x.engine.isSome = true) (hwhy : why = .refresh → x.phase = .playing) :
    x.Lands cfg supply now e (.played (.ok ()))
      ((Move.write (.playing muted) ⟨x, e, []⟩).afterPlay cfg supply now why (.ok ())) := by
  cases why with
  | refresh =>
      have hplays : x.Lands cfg supply now e (.played (.ok ())) _ := .plays hpoint hengine
      rw [Move.enter_self (hwhy rfl)] at hplays
      exact hplays
  | _ => exact .plays hpoint hengine

/-- A play that is rejected lands the session in what follows a rejection. -/
private theorem lands_balks {why : Attempt} {muted : Bool} (message : String)
    (hpoint : x.point = .starting why muted) (hengine : x.engine.isSome = true) :
    x.Lands cfg supply now e (.played (.error message))
      (Move.afterPlay cfg supply now why (.error message) ⟨x, e, []⟩) := by
  cases why with
  | resume => exact .declined message hpoint
  | refresh => exact .lapsed message hpoint hengine
  | _ => exact .balks message hpoint (by decide) hengine

/-- A wish is heard at rest, where an engine is in hand just when the
session has not failed. -/
private theorem lands_wish (hpoint : x.point = .resting) (hwishes : x.wishes ≠ 0) (hx : x.Placed e)
    : x.Lands cfg supply now e .wish (Move.userPlay cfg supply now ⟨x.heard, e, []⟩) := by
  rw [Placed, hpoint] at hx
  have hphase' : (⟨x.heard, e, []⟩ : Move).session.phase = x.phase := rfl
  rcases hx with ⟨hphase, -⟩ | ⟨hphase | hphase, hengine⟩
  · unfold Move.userPlay
    rw [hphase', hphase]
    exact .rebuilds hpoint hwishes hphase
  · unfold Move.userPlay
    rw [hphase', hphase]
    exact .goesOn hpoint hwishes hphase hengine
  · obtain ⟨engine, hheld⟩ := Option.isSome_iff_exists.1 hengine
    unfold Move.userPlay
    rw [hphase', hphase]
    dsimp only
    rw [Move.start_of_held hheld]
    exact .resumes hpoint hwishes hphase hheld

/-- A refresh that is due lands a playing session in a refresh. -/
private theorem lands_refresh {due : Nat} (hpoint : x.point = .resting)
    (hclock : x.refreshAt = some due) (hphase : x.phase = .playing) (hdue : due ≤ now)
    (hengine : x.engine.isSome = true) :
    x.Lands cfg supply now e .refreshDue
      (Move.refresh cfg supply now ⟨x.dated cfg now due, e, []⟩) := by
  unfold Move.refresh
  dsimp only
  split
  next url engine hsource hheld =>
    show x.Lands cfg supply now e .refreshDue ⟨_, _, [.source supply.source, _]⟩
    rw [hsource]
    exact .refreshes hpoint hclock hphase hdue hsource hheld
  next hnone =>
    obtain ⟨engine, hheld⟩ := Option.isSome_iff_exists.1 hengine
    cases hsource : supply.source with
    | ok url => exact absurd hheld (hnone url engine hsource)
    | error message => exact .skips hpoint hclock hphase hdue hsource hengine

/-- Every step of a sound session lands by a rule. -/
theorem Sound.lands (hx : x.Sound e) (hstep : Step cfg supply now x e signal m) :
    x.Lands cfg supply now e signal m := by
  have hp := hx.placed
  unfold Placed at hp
  cases hstep with
  | begins hpoint => exact .begins hpoint
  | attached hpoint => exact lands_built hpoint
  | refused message hpoint => exact lands_refused message hpoint
  | pauseOver why hpoint hdue => exact .pauseOver why hpoint hdue
  | reissued hpoint =>
      rw [hpoint] at hp
      obtain ⟨engine, hengine⟩ := Option.isSome_iff_exists.1 hp.1
      rw [Move.start_of_held hengine]
      exact .reissued hpoint hengine hp.2
  | outdated message hpoint =>
      rw [hpoint] at hp
      exact .outdated message hpoint hp.1
  | plays hpoint =>
      rw [hpoint] at hp
      exact lands_plays hpoint hp.1 hp.2
  | balks message hpoint =>
      rw [hpoint] at hp
      exact lands_balks message hpoint hp.1
  | wish hpoint hwishes => exact lands_wish hpoint hwishes hx.placed
  | fatal message hpoint hphase hengine => exact .fatal message hpoint hphase hengine
  | refreshDue hpoint hclock hphase hdue =>
      rw [hpoint] at hp
      rcases hp with ⟨hfailed, -⟩ | ⟨-, hengine⟩
      · rw [hfailed] at hphase
        cases hphase
      · exact lands_refresh hpoint hclock hphase hdue hengine

end Session

end VideoWall.Player
