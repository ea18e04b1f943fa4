/-
The refresh clock of a session: when the source is re-issued next.

# The law

A session that enters `playing` at some time is not refreshed before a
whole interval is over (`History.no_early_refresh`). That is so when it
set out for its first start, for a wish of the user or for a fatal error,
since each of these makes the clock begin anew when the session comes to
rest. It is not so when it set out for a refresh that went wrong: the
recovery from that leaves the clock at the date that the refresh had set,
and when it takes longer than an interval, the next refresh follows on
its heels (`History.refreshed_at_once`).

# Why it holds

While a session is at work its clock stays as it was set when it set out
(`Session.Ticks`, for every step). So one that set out for anything but a
refresh comes to rest with a clock that begins anew (`Session.Renewed`),
and from then on every date that is set is later still
(`Session.NotDueBefore`).
-/
import VideoWall.Proofs.Player.Notes

namespace VideoWall.Player

open Media

-- ============================================================== errands

/-- What a session may set out for. -/
inductive Errand where
  | start
  | wish
  | trouble
  | refresh
  deriving DecidableEq

/-- What a signal makes a session set out for. -/
def Signal.errand? : Signal → Option Errand
  | .begins => some .start
  | .wish => some .wish
  | .fatal _ => some .trouble
  | .refreshDue => some .refresh
  | _ => none

/-- Notes what a session has set out for. -/
def errandNote : Note Errand := fun _ signal _ => signal.errand?

-- ================================================================ clocks

namespace Session

/-- The date of the next refresh, and whether the clock begins anew at the
next rest. -/
def clock (x : Session) : Option Nat × Bool := (x.refreshAt, x.restarts)

/-- The clock that a session sets out with on a signal. -/
def clockFor (cfg : Settings) (now : Nat) (x : Session) : Signal → Option Nat × Bool
  | .wish | .fatal _ => (x.refreshAt, true)
  | .refreshDue => (x.refreshAt.map fun due => nextRefresh cfg due now, x.restarts)
  | _ => x.clock

/-- What a step that sets out with a clock makes of it. -/
structure Ticks (cfg : Settings) (now : Nat) (clock : Option Nat × Bool) (y : Session) : Prop where
  working : y.point ≠ .resting → y.clock = clock
  dated : y.refreshAt = clock.1 ∨ y.refreshAt = some (now + cfg.refreshInterval)
  begun : y.point ≠ .fresh
  rested : y.point = .resting →
    y.clock = (if clock.2 = true ∨ clock.1 = none then some (now + cfg.refreshInterval)
      else clock.1, false)

/-- A clock that begins anew is set a whole interval away. -/
theorem Ticks.anew {cfg : Settings} {now : Nat} {clock : Option Nat × Bool} {y : Session}
    (h : Ticks cfg now clock y) (hrest : y.point = .resting)
    (hanew : clock.2 = true ∨ clock.1 = none) :
    y.refreshAt = some (now + cfg.refreshInterval) := by
  have hdate : y.refreshAt = _ := congrArg Prod.fst (h.rested hrest)
  rw [hdate]
  exact if_pos hanew

private theorem Ticks.of_clock {cfg : Settings} {now : Nat} {clock clock' : Option Nat × Bool}
    {y : Session} (h : Ticks cfg now clock y) (hclock : clock = clock') :
    Ticks cfg now clock' y := hclock ▸ h

end Session

namespace Move

variable {cfg : Settings} {supply : Supply} {now : Nat} {m : Move}

theorem clock_dispose (m : Move) : m.dispose.session.clock = m.session.clock := by
  rw [session_dispose]
  rfl

/-- Coming to rest resets the clock or lets it tick. -/
theorem ticks_rest (m : Move) : Session.Ticks cfg now m.session.clock (m.rest cfg now).session := by
  refine ⟨fun hp => absurd rfl hp, ?_, by simp [rest], fun _ => rfl⟩
  unfold rest
  dsimp only
  split
  · exact Or.inr rfl
  · exact Or.inl rfl

/-- Going elsewhere lets the clock tick. -/
theorem ticks_goto (m : Move) {p : Point} (hp : p ≠ .fresh ∧ p ≠ .resting) :
    Session.Ticks cfg now m.session.clock (m.goto p).session :=
  ⟨fun _ => rfl, Or.inl rfl, hp.1, fun hrest => absurd hrest hp.2⟩

/-- A failure lets the clock tick. -/
theorem ticks_fail (m : Move) (message : String) :
    Session.Ticks cfg now m.session.clock (m.fail cfg now message).session := by
  rw [← clock_dispose m]
  exact ticks_rest ((m.dispose.write (.error message)).enter .failed)

private theorem ticks_buildFailed (m : Move) (message : String) (why : Purpose) :
    Session.Ticks cfg now m.session.clock (m.buildFailed cfg now message why).session := by
  unfold buildFailed
  split
  · exact ticks_goto m (by simp)
  · exact ticks_fail m message

/-- A building lets the clock tick. -/
private theorem ticks_build (m : Move) (why : Purpose) :
    Session.Ticks cfg now m.session.clock (m.build cfg supply now why).session := by
  obtain ⟨source, created⟩ := supply
  rw [← clock_dispose m]
  cases source with
  | error message => exact ticks_buildFailed (m.dispose.call _) message why
  | ok url =>
      cases created with
      | error message => exact ticks_buildFailed ((m.dispose.call _).call _) message why
      | ok engine => exact ⟨fun _ => rfl, Or.inl rfl, by simp [build, goto], by simp [build, goto]⟩

/-- A recovery lets the clock tick. -/
private theorem ticks_recover (m : Move) (message : String) :
    Session.Ticks cfg now m.session.clock (m.recover cfg now message).session := by
  have hclock := clock_dispose
    ((m.enter .recovering).write (.status ("reconnecting: " ++ message)))
  show Session.Ticks cfg now
    ((m.enter .recovering).write (.status ("reconnecting: " ++ message))).session.clock _
  rw [← hclock]
  exact ticks_goto _ (by simp)

theorem phase_dispose (m : Move) : m.dispose.session.phase = m.session.phase := by
  rw [session_dispose]

/-- A recovery is a phase. -/
theorem phase_recover (m : Move) (message : String) :
    (m.recover cfg now message).session.phase = .recovering :=
  phase_dispose ((m.enter .recovering).write (.status ("reconnecting: " ++ message)))

theorem phase_buildFailed (m : Move) (message : String) (why : Purpose) :
    (m.buildFailed cfg now message why).session.phase = m.session.phase
      ∨ (m.buildFailed cfg now message why).session.phase = .failed := by
  unfold buildFailed
  split
  · exact Or.inl rfl
  · exact Or.inr rfl

/-- A build that comes about leaves the phase as it is, and one that does
not may have failed. -/
theorem phase_build (cfg : Settings) (supply : Supply) (now : Nat) (m : Move) (why : Purpose) :
    (m.build cfg supply now why).session.phase = m.session.phase
      ∨ (m.build cfg supply now why).session.phase = .failed := by
  rw [← phase_dispose m]
  obtain ⟨source, created⟩ := supply
  cases source with
  | error message => exact phase_buildFailed (m.dispose.call _) message why
  | ok url =>
      cases created with
      | error message => exact phase_buildFailed ((m.dispose.call _).call _) message why
      | ok engine => exact Or.inl rfl

end Move

namespace Session

variable {cfg : Settings} {supply : Supply} {now t : Nat} {signal : Signal}
variable {x : Session} {e : Element} {m : Move} {errand : Option Errand}

/-- A refresh that is due dates the clock again. -/
theorem clockFor_refreshDue {due : Nat} (hclock : x.refreshAt = some due) :
    x.clockFor cfg now .refreshDue = (x.dated cfg now due).clock := by
  rw [clockFor, hclock]
  rfl

/-- Steps leave the clock alone while the session is at work, and at rest it
is at the date that was set or at a whole interval from now. -/
theorem Lands.ticks (h : x.Lands cfg supply now e signal m) :
    Ticks cfg now (x.clockFor cfg now signal) m.session := by
  cases h with
  | begins hpoint => exact .of_clock (Move.ticks_build _ _) rfl
  | told hpoint hplay => exact ⟨fun _ => rfl, Or.inl rfl, by simp, by simp⟩
  | offered hpoint hwhy hplay => exact .of_clock (Move.ticks_rest _) rfl
  | postponed message hpoint => exact .of_clock (Move.ticks_goto _ (by simp)) rfl
  | refused message hpoint hwhy => exact .of_clock (Move.ticks_fail _ message) rfl
  | pauseOver why hpoint hdue => exact .of_clock (Move.ticks_build _ _) rfl
  | reissued hpoint hengine hphase => exact ⟨fun _ => rfl, Or.inl rfl, by simp, by simp⟩
  | outdated message hpoint hengine => exact .of_clock (Move.ticks_recover _ message) rfl
  | plays hpoint hengine => exact .of_clock (Move.ticks_rest _) rfl
  | declined message hpoint => exact .of_clock (Move.ticks_build _ _) rfl
  | lapsed message hpoint hengine => exact .of_clock (Move.ticks_recover _ message) rfl
  | balks message hpoint hwhy hengine => exact .of_clock (Move.ticks_rest _) rfl
  | goesOn hpoint hwishes hphase hengine => exact .of_clock (Move.ticks_rest _) rfl
  | resumes hpoint hwishes hphase hengine => exact ⟨fun _ => rfl, Or.inl rfl, by simp, by simp⟩
  | rebuilds hpoint hwishes hphase => exact .of_clock (Move.ticks_build _ _) rfl
  | fatal message hpoint hphase hengine => exact .of_clock (Move.ticks_recover _ message) rfl
  | refreshes hpoint hclock hphase hdue hsource hengine =>
      exact .of_clock ⟨fun _ => rfl, Or.inl rfl, by simp, by simp⟩ (clockFor_refreshDue hclock).symm
  | skips hpoint hclock hphase hdue hsource hengine =>
      exact .of_clock (Move.ticks_rest _) (clockFor_refreshDue hclock).symm

/-- A session whose refresh clock runs: it is set to a date that the clock can
tell, and is not to begin anew. -/
structure Clocked (x : Session) : Prop where
  isSet : x.refreshAt.isSome = true
  kept : x.restarts = false
  inTime : x.InTime

/-- A clock that runs is left alone by a rest. -/
theorem Clocked.rest {m : Move} (h : m.session.Clocked) :
    (m.rest cfg now).session = { m.session with point := .resting } := by
  have hrun : ¬ (m.session.restarts = true ∨ m.session.refreshAt = none) := by
    rintro (hanew | hnone)
    · rw [h.kept] at hanew
      cases hanew
    · have hset := h.isSet
      rw [hnone] at hset
      cases hset
  unfold Move.rest
  rw [if_neg hrun]
  dsimp only
  rw [← h.kept]

/-- A session that comes to rest in time has a clock that runs. -/
private theorem Lands.clocked (h : x.Lands cfg supply now e signal m) (htime : m.session.InTime)
    (hrest : m.session.point = .resting) : m.session.Clocked := by
  have hclock := h.ticks.rested hrest
  have hdate : m.session.refreshAt = _ := congrArg Prod.fst hclock
  refine ⟨?_, congrArg Prod.snd hclock, htime⟩
  rw [hdate]
  dsimp only
  split
  case isTrue => rfl
  case isFalse hset =>
    rw [not_or] at hset
    exact Option.isSome_iff_ne_none.2 hset.2

/-- Only a session at work takes a signal that is no errand. -/
theorem Lands.working (h : x.Lands cfg supply now e signal m) (herrand : signal.errand? = none) :
    x.point ≠ .resting := by
  cases h with
  | begins | goesOn | resumes | rebuilds | fatal | refreshes | skips => cases herrand
  | told hpoint | offered hpoint | postponed _ hpoint | refused _ hpoint | pauseOver _ hpoint
  | reissued hpoint | outdated _ hpoint | plays hpoint | declined _ hpoint | lapsed _ hpoint
  | balks _ hpoint =>
      rw [hpoint]
      simp

/-- A session enters `playing` at the end of a piece of work, when its engine
plays. -/
private theorem Lands.enters (h : x.Lands cfg supply now e signal m) (hbefore : x.phase ≠ .playing)
    (hafter : m.session.phase = .playing) :
    signal.errand? = none ∧ m.session.refreshAt
      = if x.restarts ∨ x.refreshAt = none then some (now + cfg.refreshInterval)
        else x.refreshAt := by
  -- a build that ends in `playing` has begun in it
  have hbuild : ∀ (y : Session) (why : Purpose), y.phase ≠ .playing →
      (Move.build cfg supply now why ⟨y, e, []⟩).session.phase ≠ .playing := by
    intro y why hy
    rcases Move.phase_build cfg supply now ⟨y, e, []⟩ why with hsame | hfailed
    · rw [hsame]
      exact hy
    · rw [hfailed]
      simp
  cases h with
  | plays hpoint hengine => exact ⟨rfl, rfl⟩
  | begins hpoint => exact absurd hafter (hbuild _ _ (by simp))
  | pauseOver why hpoint hdue => exact absurd hafter (hbuild _ _ hbefore)
  | declined message hpoint => exact absurd hafter (hbuild _ _ (by simp))
  | rebuilds hpoint hwishes hphase => exact absurd hafter (hbuild _ _ (by simp))
  | told | reissued | resumes | postponed => exact absurd hafter hbefore
  | offered | balks | refused => cases hafter
  | outdated | lapsed | fatal =>
      rw [Move.phase_recover] at hafter
      cases hafter
  | goesOn hpoint hwishes hphase hengine => exact absurd hphase hbefore
  | refreshes hpoint hclock hphase hdue hsource hengine => exact absurd hphase hbefore
  | skips hpoint hclock hphase hdue hsource hengine => exact absurd hphase hbefore

-- ============================================================ renewal

/-- A session at work that set out for anything but a refresh comes to rest
with a clock that begins anew. -/
structure Renewed (errand : Option Errand) (x : Session) : Prop where
  fresh : x.point = .fresh → x.refreshAt = none
  working : errand ≠ some .refresh → x.point ≠ .resting → x.restarts = true ∨ x.refreshAt = none

/-- A landing renews the clock or passes its errand on. -/
theorem Renewed.step (h : x.Renewed errand) (hlands : x.Lands cfg supply now e signal m) :
    m.session.Renewed (signal.errand?.or errand) := by
  have hticks := hlands.ticks
  refine ⟨fun hp => absurd hp hticks.begun, fun herrand hpoint => ?_⟩
  have hclock := hticks.working hpoint
  have hrefreshAt : m.session.refreshAt = (x.clockFor cfg now signal).1 := congrArg Prod.fst hclock
  have hrestarts : m.session.restarts = (x.clockFor cfg now signal).2 := congrArg Prod.snd hclock
  rw [hrefreshAt, hrestarts]
  cases signal with
  | begins =>
      have hfresh : x.point = .fresh := by
        cases hlands with
        | begins hfresh => exact hfresh
      exact Or.inr (h.fresh hfresh)
  | wish => exact Or.inl rfl
  | fatal message => exact Or.inl rfl
  | refreshDue => exact absurd rfl herrand
  | attached outcome => exact h.working herrand (hlands.working rfl)
  | played outcome => exact h.working herrand (hlands.working rfl)
  | pauseOver => exact h.working herrand (hlands.working rfl)

/-- No refresh is due before some time. -/
def NotDueBefore (t : Nat) (x : Session) : Prop := ∀ due, x.refreshAt = some due → t ≤ due

/-- Dates that are set from some time on are not before an interval later. -/
theorem NotDueBefore.step (h : x.NotDueBefore (t + cfg.refreshInterval)) (ht : t ≤ now)
    (hlands : x.Lands cfg supply now e signal m) :
    m.session.NotDueBefore (t + cfg.refreshInterval) := by
  intro due hdue
  rcases hlands.ticks.dated with hset | hanew
  · rw [hset] at hdue
    cases signal with
    | refreshDue =>
        obtain ⟨old, hold, rfl⟩ := Option.map_eq_some_iff.1 hdue
        have hle := h old hold
        unfold nextRefresh
        split
        · omega
        · omega
    | _ => exact h due hdue
  · rw [hanew] at hdue
    cases hdue
    omega

/-- A session that enters `playing` is not refreshed before a whole interval
is over, unless it set out for a refresh. -/
private theorem Renewed.enters (h : x.Renewed errand) (herrand : errand ≠ some .refresh)
    (hlands : x.Lands cfg supply now e signal m) (hbefore : x.phase ≠ .playing)
    (hafter : m.session.phase = .playing) :
    m.session.NotDueBefore (now + cfg.refreshInterval) := by
  obtain ⟨hworking, hdate⟩ := hlands.enters hbefore hafter
  intro due hdue
  rw [if_pos (h.working herrand (hlands.working hworking))] at hdate
  rw [hdate] at hdue
  cases hdue
  exact Nat.le_refl _

/-- A refresh is made when its date has come. -/
theorem NotDueBefore.le_of_step (h : x.NotDueBefore t)
    (hstep : Step cfg supply now x e .refreshDue m) : t ≤ now := by
  cases hstep with
  | refreshDue hpoint hclock hphase hdue => exact Nat.le_trans (h _ hclock) hdue

end Session

-- =========================================================== histories

/-- Nothing happens before some time. -/
def Event.notBefore (t : Nat) : Event → Prop
  | .activity (.signal _ _ now _) => t ≤ now
  | _ => True

/-- Renewal is carried along by sessions. -/
private theorem carried_renewed (cfg : Settings) :
    Carried errandNote cfg (fun _ => True) (fun errand x _ => x.Renewed errand) where
  fresh _ _ _ _ := ⟨fun _ => rfl, fun _ _ => Or.inr rfl⟩
  wish _ _ _ h := ⟨h.fresh, h.working⟩
  write _ _ _ _ _ h := h
  step _ _ _ _ _ _ hlands _ h := h.step hlands

/-- At rest the refresh clock of a session runs. -/
private theorem carried_clocked (cfg : Settings) :
    Carried errandNote cfg (fun _ => True) (fun _ x _ => x.point = .resting → x.Clocked) where
  fresh _ _ _ _ := fun hp => by cases hp
  wish _ _ _ h := fun hp => ⟨(h hp).isSet, (h hp).kept, (h hp).inTime⟩
  write _ _ _ _ _ h := h
  step _ _ _ _ _ _ hlands htime _ := hlands.clocked htime

/-- A date is kept from some time on. -/
private theorem carried_notDueBefore (cfg : Settings) (t : Nat) :
    Carried errandNote cfg (Event.notBefore t)
      (fun _ x _ => x.NotDueBefore (t + cfg.refreshInterval)) where
  fresh _ _ _ _ := fun _ hdue => by cases hdue
  wish _ _ _ h := h
  write _ _ _ _ _ h := h
  step _ _ _ _ ht _ hlands _ h := h.step ht hlands

namespace History

variable {h : History} {name : String} {supply : Supply} {t : Nat} {signal : Signal}

/-- What the session of a stream has set out for last, when some events are
over. -/
def errand (h : History) (name : String) (events : List Event) : Option Errand :=
  h.latest errandNote name none events

/-- In every history the refresh clocks of the sessions at rest run. -/
theorem clocked_run (settings : Settings) (supported : Bool) (events : List Event) {x : Session}
    (hx : ((opened settings supported).run events).players.sessions.get? name = some x)
    (hrest : x.point = .resting) : x.Clocked :=
  (carried_clocked settings).opened supported events (fun _ _ => trivial) name x hx hrest

/-- A session that plays, in a stream that did not play before, has entered
`playing` with a step. -/
private theorem step_of_phase (hbefore : h.players.phase? name ≠ some .playing) {y : Session}
    (hy : (h.after (.activity (.signal name supply t signal))).players.sessions.get? name
      = some y) (hplays : y.phase = .playing) :
    ∃ x m, h.players.sessions.get? name = some x
      ∧ Session.Step h.players.settings supply t x (h.players.element name) signal m
      ∧ y = m.session ∧ x.phase ≠ .playing := by
  unfold after act at hy
  dsimp only at hy
  cases hstep : h.players.step? supply t name signal with
  | none =>
      rw [hstep] at hy
      dsimp only at hy
      refine absurd ?_ hbefore
      rw [Registry.phase?, hy, Option.map_some, hplays, Option.some_or]
  | some result =>
      obtain ⟨players, calls⟩ := result
      rw [hstep] at hy
      dsimp only at hy
      cases Registry.step?_inv hstep with
      | @goesOn x m hx hrule htime =>
          rw [ByName.get?_set_self] at hy
          cases hy
          refine ⟨x, m, hx, hrule, rfl, fun hphase => hbefore ?_⟩
          rw [Registry.phase?, hx, Option.map_some, hphase, Option.some_or]
      | crashes =>
          rw [ByName.get?_erase_self] at hy
          cases hy

/-- A session that enters `playing` sets a date a whole interval away. -/
private theorem notDueBefore_enters (hs : h.Sound) {errand : Option Errand}
    (hrenewed : h.players.Holds name fun x _ => x.Renewed errand)
    (herrand : errand ≠ some .refresh) (hbefore : h.players.phase? name ≠ some .playing)
    (hafter : (h.after (.activity (.signal name supply t signal))).players.phase? name
      = some .playing) :
    (h.after (.activity (.signal name supply t signal))).players.Holds name
      fun x _ => x.NotDueBefore (t + h.players.settings.refreshInterval) := by
  intro y hy
  have hplays : y.phase = .playing := by
    rw [Registry.phase?, hy, Option.map_some, Option.some_or] at hafter
    exact Option.some.inj hafter
  obtain ⟨x, m, hx, hrule, rfl, hphase⟩ := step_of_phase hbefore hy hplays
  have hlands := ((hs.players name).session x hx).lands hrule
  exact (hrenewed x hx).enters herrand hlands hphase hplays

/-- Nothing that happens from some time on brings a date forward. -/
theorem step?_refreshDue_run (hs : h.Sound)
    (hdue : h.players.Holds name
      fun x _ => x.NotDueBefore (t + h.players.settings.refreshInterval))
    {later : List Event} (hlater : ∀ event ∈ later, event.notBefore t) {now : Nat}
    (hnow : now < t + h.players.settings.refreshInterval) :
    (h.run later).players.step? supply now name .refreshDue = none := by
  have hkept := (carried_notDueBefore h.players.settings t).run hs none hlater hdue
  cases hstep : (h.run later).players.step? supply now name .refreshDue with
  | none => rfl
  | some result =>
      obtain ⟨players, calls⟩ := result
      obtain ⟨x, m, hx, hrule⟩ := (Registry.step?_inv hstep).step
      exact absurd ((hkept x hx).le_of_step hrule) (Nat.not_le_of_lt hnow)

/-- From the moment at which a session enters `playing`, no refresh is made
before a whole interval is over, whatever happens to the stream, unless
what the session had set out for was itself a refresh. -/
theorem no_early_refresh (settings : Settings) (supported : Bool) (before later : List Event)
    (hbefore : ((opened settings supported).run before).players.phase? name ≠ some .playing)
    (hafter : (((opened settings supported).run before).after
      (.activity (.signal name supply t signal))).players.phase? name = some .playing)
    (herrand : (opened settings supported).errand name before ≠ some .refresh)
    (hlater : ∀ event ∈ later, event.notBefore t) {now : Nat}
    (hnow : now < t + settings.refreshInterval) (supply' : Supply) :
    ((((opened settings supported).run before).after
      (.activity (.signal name supply t signal))).run later).players.step? supply' now name
        .refreshDue = none := by
  have hsound := sound_run settings supported before
  have hsettings : ((opened settings supported).run before).players.settings = settings :=
    settings_run _ _
  have hrenewed := (carried_renewed settings).opened supported before
    (fun _ _ => trivial) name
  generalize (opened settings supported).run before = h at hbefore hafter hsound hsettings hrenewed
  subst hsettings
  have hdue := notDueBefore_enters hsound hrenewed herrand hbefore hafter
  rw [← settings_after h (.activity (.signal name supply t signal))] at hdue hnow
  exact step?_refreshDue_run (hsound.after _) hdue hlater hnow

/-- A stream plays from the start. -/
def yardPlays (url : Url) : List Event :=
  [ .attach "yard",
    .activity (.signal "yard" ⟨.ok url, .ok 1⟩ 0 .begins),
    .activity (.signal "yard" ⟨.ok url, .ok 1⟩ 0 (.attached (.ok ()))),
    .activity (.signal "yard" ⟨.ok url, .ok 1⟩ 0 (.played (.ok ()))) ]

/-- It fails, and is recovered after a pause that is longer than the interval
between refreshes. -/
def yardRecovers (url : Url) : List Event :=
  [ .activity (.signal "yard" ⟨.ok url, .ok 2⟩ 1000 (.fatal "manifest gone")),
    .activity (.signal "yard" ⟨.ok url, .ok 2⟩ 3500 .pauseOver),
    .activity (.signal "yard" ⟨.ok url, .ok 2⟩ 3500 (.attached (.ok ()))) ]

/-- A refresh of it fails, and the same recovery follows. -/
def yardRefreshFails (url : Url) : List Event :=
  [ .activity (.signal "yard" ⟨.ok url, .ok 2⟩ 1000 .refreshDue),
    .activity (.signal "yard" ⟨.ok url, .ok 2⟩ 1000 (.attached (.ok ()))),
    .activity (.signal "yard" ⟨.ok url, .ok 2⟩ 1000 (.played (.error "play rejected"))),
    .activity (.signal "yard" ⟨.ok url, .ok 2⟩ 3500 .pauseOver),
    .activity (.signal "yard" ⟨.ok url, .ok 2⟩ 3500 (.attached (.ok ()))) ]

/-- The engine plays again. -/
def yardPlaysAgain : Event :=
  .activity (.signal "yard" ⟨.ok default, .ok 3⟩ 3500 (.played (.ok ())))

/-- A second is to lie between refreshes. -/
def hasty : Settings := { refreshInterval := 1000, retryDelay := 2500 }

theorem no_early_refresh_of_recovery :
    (((opened hasty true).run (yardPlays default ++ yardRecovers default)).players.phase? "yard"
        = some .recovering
      ∧ (((opened hasty true).run (yardPlays default ++ yardRecovers default)).after
          yardPlaysAgain).players.phase? "yard" = some .playing)
      ∧ ((((opened hasty true).run (yardPlays default ++ yardRecovers default)).after
          yardPlaysAgain).run []).players.step? ⟨.ok default, .ok 3⟩ 4499 "yard" .refreshDue
        = none := by
  have hbefore : ((opened hasty true).run
      (yardPlays default ++ yardRecovers default)).players.phase? "yard" = some .recovering := by
    decide
  have hafter : (((opened hasty true).run (yardPlays default ++ yardRecovers default)).after
      yardPlaysAgain).players.phase? "yard" = some .playing := by decide
  refine ⟨⟨hbefore, hafter⟩, ?_⟩
  exact no_early_refresh hasty true _ [] (by rw [hbefore]; decide) hafter (by decide)
    (by simp) (by decide) _

/-- The recovery from a refresh that went wrong leaves the clock as it was.
Here it takes longer than the interval, and as soon as the stream plays the
source is re-issued again. -/
theorem refreshed_at_once :
    ((opened hasty true).run (yardPlays default ++ yardRefreshFails default)).players.phase? "yard"
        = some .recovering
      ∧ (((opened hasty true).run (yardPlays default ++ yardRefreshFails default)).after
          yardPlaysAgain).players.phase? "yard" = some .playing
      ∧ ((((opened hasty true).run (yardPlays default ++ yardRefreshFails default)).after
          yardPlaysAgain).players.step? ⟨.ok default, .ok 3⟩ 3500 "yard" .refreshDue).isSome
        = true
      ∧ 3500 < 3500 + hasty.refreshInterval := by
  decide

end History

end VideoWall.Player
