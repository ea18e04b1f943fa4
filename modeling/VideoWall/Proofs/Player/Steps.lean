/-
The steps of a session as a relation, one rule for each thing that can
happen. `Session.step?` takes a step just when a rule allows it
(`step?_eq_some_iff`), so a proof about steps is a proof by cases on the
rules, and none of them has to open the function again. A step leads from
one point of waiting to another and never to an end (`Step.isRunning`).
-/
import VideoWall.Player.Session

namespace VideoWall.Player

open Media

-- ========================================================= no step ends

namespace Move

variable (cfg : Settings) (supply : Supply) (now : Nat) (m : Move)

/-- No move of a session ends it. -/
theorem isRunning_rest : (m.rest cfg now).session.isRunning = true := rfl

theorem isRunning_buildFailed (message : String) (why : Purpose) :
    (m.buildFailed cfg now message why).session.isRunning = true := by
  cases why with
  | firstStart => rfl
  | _ => exact isRunning_rest cfg now _

theorem isRunning_build (why : Purpose) :
    (m.build cfg supply now why).session.isRunning = true := by
  unfold build
  dsimp only
  split
  · exact isRunning_buildFailed cfg now _ _ why
  · split
    · exact isRunning_buildFailed cfg now _ _ why
    · rfl

theorem isRunning_afterPlay (why : Attempt) (outcome : Except String Unit) :
    (m.afterPlay cfg supply now why outcome).session.isRunning = true := by
  cases outcome with
  | ok _ => cases why <;> rfl
  | error message =>
      cases why with
      | resume => exact isRunning_build cfg supply now _ .userPlay
      | _ => rfl

theorem isRunning_start (why : Attempt) (muted : Bool) :
    (m.start cfg supply now why muted).session.isRunning = true := by
  unfold start
  split
  · rfl
  · exact isRunning_afterPlay cfg supply now m why _

theorem isRunning_built (why : Purpose) :
    (m.built cfg supply now why).session.isRunning = true := by
  cases why with
  | firstStart | secondStart =>
      unfold built
      dsimp only
      split
      · exact isRunning_start cfg supply now m _ _
      · rfl
  | userPlay | recovery => exact isRunning_start cfg supply now m _ _

theorem isRunning_userPlay : (m.userPlay cfg supply now).session.isRunning = true := by
  unfold userPlay
  split
  · rfl
  · exact isRunning_start cfg supply now m _ _
  · exact isRunning_build cfg supply now _ .userPlay

theorem isRunning_refresh : (m.refresh cfg supply now).session.isRunning = true := by
  unfold refresh
  dsimp only
  split
  · rfl
  · rfl

end Move

-- ============================================================== the rules

/-- What is built after a pause. -/
def Pause.purpose : Pause → Purpose
  | .secondStart => .secondStart
  | .recovery => .recovery

namespace Session

/-- A step of session `x` on element `e`, at time `now`, with `supply` to
be had from the outside. -/
inductive Step (cfg : Settings) (supply : Supply) (now : Nat) (x : Session) (e : Element) :
    Signal → Move → Prop where
  | begins (hpoint : x.point = .fresh) :
      Step cfg supply now x e .begins
        ((Move.enter .attaching ⟨x, e, []⟩).build cfg supply now .firstStart)
  | attached {why : Purpose} {engine : EngineId} (hpoint : x.point = .building why engine) :
      Step cfg supply now x e (.attached (.ok ()))
        (Move.built cfg supply now why ⟨{ x with engine := some engine }, e, []⟩)
  | refused {why : Purpose} {engine : EngineId} (message : String)
      (hpoint : x.point = .building why engine) :
      Step cfg supply now x e (.attached (.error message))
        (Move.buildFailed cfg now message why ⟨{ x with engine := some engine }, e, []⟩)
  | pauseOver (why : Pause) {due : Nat} (hpoint : x.point = .pausing why due) (hdue : due ≤ now) :
      Step cfg supply now x e .pauseOver (Move.build cfg supply now why.purpose ⟨x, e, []⟩)
  | reissued (hpoint : x.point = .refreshing) :
      Step cfg supply now x e (.attached (.ok ()))
        (Move.start cfg supply now .refresh cfg.autoplayMuted ⟨x, e, []⟩)
  | outdated (message : String) (hpoint : x.point = .refreshing) :
      Step cfg supply now x e (.attached (.error message))
        (Move.recover cfg now message ⟨x, e, []⟩)
  | plays {why : Attempt} {muted : Bool} (hpoint : x.point = .starting why muted) :
      Step cfg supply now x e (.played (.ok ()))
        ((Move.write (.playing muted) ⟨x, e, []⟩).afterPlay cfg supply now why (.ok ()))
  | balks {why : Attempt} {muted : Bool} (message : String)
      (hpoint : x.point = .starting why muted) :
      Step cfg supply now x e (.played (.error message))
        (Move.afterPlay cfg supply now why (.error message) ⟨x, e, []⟩)
  | wish (hpoint : x.point = .resting) (hwishes : x.wishes ≠ 0) :
      Step cfg supply now x e .wish
        (Move.userPlay cfg supply now
          ⟨{ x with wishes := x.wishes - 1, restarts := true }, e, []⟩)
  | fatal (message : String) (hpoint : x.point = .resting) (hphase : x.phase = .playing)
      (hengine : x.engine.isSome = true) :
      Step cfg supply now x e (.fatal message)
        (Move.recover cfg now message ⟨{ x with restarts := true }, e, []⟩)
  | refreshDue {due : Nat} (hpoint : x.point = .resting) (hclock : x.refreshAt = some due)
      (hphase : x.phase = .playing) (hdue : due ≤ now) :
      Step cfg supply now x e .refreshDue
        (Move.refresh cfg supply now
          ⟨{ x with refreshAt := some (nextRefresh cfg due now) }, e, []⟩)

variable {cfg : Settings} {supply : Supply} {now : Nat} {signal : Signal}
variable {x : Session} {e : Element} {m : Move}

/-- Every step is made by a rule. -/
theorem step_of_step? (h : x.step? cfg supply now signal e = some m) :
    Step cfg supply now x e signal m := by
  -- one rule for each branch that is not `none`, found by point and signal
  obtain ⟨serial, point, phase, epoch, engine, refreshAt, restarts, wishes⟩ := x
  cases point with
  | fresh =>
      cases signal with
      | begins => cases h; exact .begins rfl
      | _ => cases h
  | building why engine =>
      cases signal with
      | attached outcome =>
          cases outcome with
          | ok _ => cases h; exact .attached rfl
          | error message => cases h; exact .refused message rfl
      | _ => cases h
  | pausing why due =>
      cases signal with
      | pauseOver =>
          cases why with
          | secondStart =>
              simp only [step?, Option.ite_none_right_eq_some, Option.some.injEq] at h
              obtain ⟨hdue, rfl⟩ := h
              exact .pauseOver .secondStart rfl hdue
          | recovery =>
              simp only [step?, Option.ite_none_right_eq_some, Option.some.injEq] at h
              obtain ⟨hdue, rfl⟩ := h
              exact .pauseOver .recovery rfl hdue
      | _ => cases why <;> cases h
  | refreshing =>
      cases signal with
      | attached outcome =>
          cases outcome with
          | ok _ => cases h; exact .reissued rfl
          | error message => cases h; exact .outdated message rfl
      | _ => cases h
  | starting why muted =>
      cases signal with
      | played outcome =>
          cases outcome with
          | ok _ => cases h; exact .plays rfl
          | error message => cases h; exact .balks message rfl
      | _ => cases h
  | resting =>
      cases signal with
      | wish =>
          simp only [step?, Option.ite_none_left_eq_some, Option.some.injEq] at h
          obtain ⟨hwishes, rfl⟩ := h
          exact .wish rfl hwishes
      | fatal message =>
          simp only [step?, Option.ite_none_right_eq_some, Option.some.injEq] at h
          obtain ⟨⟨hphase, hengine⟩, rfl⟩ := h
          exact .fatal message rfl hphase hengine
      | refreshDue =>
          cases refreshAt with
          | none => cases h
          | some due =>
              simp only [step?, Option.ite_none_right_eq_some, Option.some.injEq] at h
              obtain ⟨⟨hphase, hdue⟩, rfl⟩ := h
              exact .refreshDue rfl rfl hphase hdue
      | _ => cases h
  | «over» => cases signal <;> cases h

/-- No rule ends a session. -/
theorem Step.isRunning (h : Step cfg supply now x e signal m) : m.session.isRunning = true := by
  cases h with
  | begins _ => exact Move.isRunning_build cfg supply now _ .firstStart
  | attached _ => exact Move.isRunning_built cfg supply now _ _
  | refused message _ => exact Move.isRunning_buildFailed cfg now _ message _
  | pauseOver why _ _ => exact Move.isRunning_build cfg supply now _ why.purpose
  | reissued _ => exact Move.isRunning_start cfg supply now _ _ _
  | plays _ | balks _ _ => exact Move.isRunning_afterPlay cfg supply now _ _ _
  | wish _ _ => exact Move.isRunning_userPlay cfg supply now _
  | refreshDue _ _ _ _ => exact Move.isRunning_refresh cfg supply now _
  | outdated _ _ | fatal _ _ _ _ => rfl

/-- Every rule makes a step. -/
theorem step?_of_step (h : Step cfg supply now x e signal m) :
    x.step? cfg supply now signal e = some m := by
  obtain ⟨serial, point, phase, epoch, engine, refreshAt, restarts, wishes⟩ := x
  cases h with
  | begins hpoint | attached hpoint | refused _ hpoint | reissued hpoint | outdated _ hpoint
  | plays hpoint | balks _ hpoint =>
      cases hpoint
      rfl
  | pauseOver why hpoint hdue =>
      cases hpoint
      cases why <;> exact if_pos hdue
  | wish hpoint hwishes =>
      cases hpoint
      exact if_neg hwishes
  | fatal _ hpoint hphase hengine =>
      cases hpoint
      exact if_pos ⟨hphase, hengine⟩
  | refreshDue hpoint hclock hphase hdue =>
      cases hpoint
      cases hclock
      exact if_pos ⟨hphase, hdue⟩

/-- A session takes a step just when a rule allows it. -/
theorem step?_eq_some_iff :
    x.step? cfg supply now signal e = some m ↔ Step cfg supply now x e signal m :=
  ⟨step_of_step?, step?_of_step⟩

/-- A session that is not cancelled acts when it takes a step. -/
theorem act?_of_none (h : x.step? cfg supply now signal e = none) :
    x.act? false cfg supply now signal e = none := by
  simp [act?, h]

/-- It crashes if the step leaves it with a date that the clock cannot tell. -/
theorem act?_of_some (h : x.step? cfg supply now signal e = some m) :
    x.act? false cfg supply now signal e
      = some (if m.session.InTime then m else x.crash signal e m) := by
  simp [act?, h]

end Session

end VideoWall.Player
