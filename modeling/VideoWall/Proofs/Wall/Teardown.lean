/-
Teardowns are final, whoever makes them: the owner of the players, of one
stream or of all, or the wall, which tears down what leaves the screen and
everything when it shuts down.

On a wall every stream that is not on screen is torn down
(`Controller.Sound`). So a stream that the wall has torn down is covered by
the same law as any other: it stays as it is until somebody starts a
session for it.
-/
import VideoWall.Proofs.Wall.History

namespace VideoWall.Player.Registry

variable {r : Registry} {name : String}

/-- What can be seen of a stream that was torn down: no session runs, it is
in no phase, nothing is left on its element, and tearing it down once more
would change nothing at all. -/
structure Silent (r : Registry) (name : String) : Prop where
  isAttached : r.isAttached name = false
  phase? : r.phase? name = none
  element : (r.element name).Off
  again : r.teardown name = r

/-- A stream that was torn down is silent. -/
private theorem TornDown.silent (h : r.TornDown name) : r.Silent name :=
  ⟨h.isAttached, h.phase?, h.element, h.teardown_eq⟩

end VideoWall.Player.Registry

namespace VideoWall.Wall

open Player

/-- From a teardown of a stream on, by the owner of the players or by a
wall whose screen it has left, the stream stays silent until it is
attached, replaced or asked for: whatever its old session was waiting for,
whatever the user had wished, and whatever that session, its engine and
its decoder still do. -/
theorem teardown_final (name : String) (later : List Player.Event)
    (hlater : ∀ event ∈ later, event.starts name = false) :
    (∀ settings supported before close, Player.Event.closes name close = true →
      ((Player.History.opened settings supported).run
        (before ++ close :: later)).players.Silent name)
    ∧ ∀ playing supported polling view events,
        name ∉ ((History.opened playing supported polling view).run events).wall.visible →
        (((History.opened playing supported polling view).run events).players.run
          later).players.Silent name := by
  refine ⟨?_, ?_⟩
  · intro settings supported before close hclose
    have hsound := Player.History.sound_run settings supported before
    have hclosed := Player.History.tornDown_closes hsound hclose
    rw [Player.History.run_append, Player.History.run_cons]
    exact (Player.History.tornDown_run (hsound.after close) hclosed hlater).silent
  · intro playing supported polling view events hoff
    have hsound := History.sound_run playing supported polling view events
    have hgone := hsound.wall.offScreen name hoff
    exact (Player.History.tornDown_run hsound.players hgone hlater).silent

/-- The gate is attached, and its engine is told to play. -/
def gateStarting : List Player.Event :=
  [ .attach "gate",
    .activity (.signal "gate" ⟨.ok default, .ok 7⟩ 0 .begins),
    .activity (.signal "gate" ⟨.ok default, .ok 8⟩ 10 (.attached (.ok ()))) ]

/-- What is under way when the gate is torn down: a wish of the user, the
engine's word that it plays, a frame, and the end of the old session. -/
def gateLate : List Player.Event :=
  [ .activity (.write "gate" 7 1 (.playing true)),
    .activity (.write "gate" 7 1 (.frame 1 1 #[0, 0, 0])),
    .activity (.wake ⟨.ok default, .ok 9⟩ 20 0 (.played (.ok ()))) ]

/-- A wall of one tile moves from the gate to the yard, after the gate has
been attached and its engine has been built. -/
def gateLeaves : List Event :=
  [ .operation (.setStreams [{ name := "gate" }, { name := "yard" }]),
    .operation (.setLayout .single),
    .playing (.signal "gate" ⟨.ok default, .ok 7⟩ 0 .begins),
    .playing (.signal "gate" ⟨.ok default, .ok 8⟩ 10 (.attached (.ok ()))),
    .operation (.stepPage 1) ]

theorem teardown_final_of_starting :
    (∀ event ∈ gateLate, event.starts "gate" = false)
      ∧ Player.Event.closes "gate" (.teardown "gate") = true
      ∧ ((Player.History.opened {} true).run
          (gateStarting ++ .teardown "gate" :: gateLate)).players.Silent "gate"
      ∧ "gate" ∉ ((History.opened {} true {} {}).run gateLeaves).wall.visible
      ∧ (((History.opened {} true {} {}).run gateLeaves).players.run
          gateLate).players.Silent "gate" := by
  have hlate : ∀ event ∈ gateLate, event.starts "gate" = false := by
    simp [gateLate, Player.Event.starts]
  have hclose : Player.Event.closes "gate" (.teardown "gate") = true := by
    simp [Player.Event.closes]
  have hvisible : ((History.opened {} true {} {}).run gateLeaves).wall.visible = ["yard"] := by
    decide
  have hoff : "gate" ∉ ((History.opened {} true {} {}).run gateLeaves).wall.visible := by
    simp [hvisible]
  have hfinal := teardown_final "gate" gateLate hlate
  exact ⟨hlate, hclose, hfinal.1 {} true gateStarting _ hclose, hoff,
    hfinal.2 {} true {} {} gateLeaves hoff⟩

end VideoWall.Wall
