/-
A wish to play a stream that plays already.

# Two runs

Somebody asks for a stream to be played while its session rests in
`playing`. The run with this wish is compared with the run without it:
first as they stand when the wish has been heard, then after any events
that may follow in both.

# The law

The wish moves the refresh clock and does nothing else
(`History.wish_moves_clock`). When it has been heard, the two registries
differ in one date. From there on both runs make the same calls and show
the same elements and phases, as long as nothing happens in either that
asks the clock of this session: its refresh. That refresh is put off by the
wish to a whole interval from then, so whoever wishes often enough keeps a
stream that plays from ever being refreshed
(`History.refresh_put_off`). Only where the clock cannot tell the new date
is the session lost.

# Why the runs agree

A session looks at its clock only when it is asked to refresh, and a date
is looked at for nothing else but whether the clock can tell it. So what any
other step does to a session is the same with all else of its date blurred
(`Session.clockless_act?`), and with the date of one stream blurred
everywhere (`Registry.veiled`), every event but that refresh leads from
equal histories to equal ones (`History.veiled_after`, then
`History.veiled_run`).
-/
import Mathlib.Data.List.InsertIdx
import VideoWall.Proofs.Player.RefreshClock

namespace VideoWall

-- =========================================================== mapped tables

namespace ByName

variable {α : Type} {g : String → α → α}

/-- A table with each entry changed, knowing its name. -/
def mapWith (g : String → α → α) (t : ByName α) : ByName α :=
  ⟨t.entries.map fun p => (p.1, g p.1 p.2)⟩

/-- What is kept under a name is mapped with the name. -/
theorem get?_mapWith (t : ByName α) (name : String) :
    (t.mapWith g).get? name = (t.get? name).map (g name) := by
  unfold get? mapWith
  induction t.entries with
  | nil => rfl
  | cons p rest ih =>
      obtain ⟨n, a⟩ := p
      rw [List.map_cons, List.lookup_cons, List.lookup_cons]
      by_cases hn : name = n
      · subst hn
        rw [beq_self_eq_true]
        rfl
      · rw [beq_eq_false_iff_ne.2 hn]
        exact ih

theorem mapWith_set (t : ByName α) (name : String) (a : α) :
    (t.set name a).mapWith g = (t.mapWith g).set name (g name a) := by
  unfold set mapWith
  rw [mk.injEq]
  induction t.entries with
  | nil => rfl
  | cons p rest ih =>
      obtain ⟨n, b⟩ := p
      by_cases hn : n = name
      · subst hn
        simp [put]
      · simpa [put, hn] using ih

theorem mapWith_erase (t : ByName α) (name : String) :
    (t.erase name).mapWith g = (t.mapWith g).erase name := by
  unfold erase mapWith
  rw [mk.injEq, List.filter_map]
  rfl

private theorem mapWith_modify (t : ByName α) (name : String) {f : α → α}
    (hf : ∀ a, g name (f a) = f (g name a)) :
    (t.modify name f).mapWith g = (t.mapWith g).modify name f := by
  unfold modify
  rw [get?_mapWith]
  cases t.get? name with
  | none => rfl
  | some a =>
      show (t.set name (f a)).mapWith g = (t.mapWith g).set name (f (g name a))
      rw [mapWith_set, hf]

/-- Of two entries for a name the later one stays. -/
private theorem set_set (t : ByName α) (name : String) (a b : α) :
    (t.set name a).set name b = t.set name b := by
  unfold set
  rw [mk.injEq]
  show put name b (put name a t.entries) = put name b t.entries
  induction t.entries with
  | nil => simp [put]
  | cons p rest ih =>
      obtain ⟨n, c⟩ := p
      by_cases hn : n = name
      · simp [put, hn]
      · simpa [put, hn] using ih

/-- An entry that is taken away again leaves nothing. -/
private theorem erase_set (t : ByName α) (name : String) (a : α) :
    (t.set name a).erase name = t.erase name := by
  unfold set erase
  rw [mk.injEq]
  show (put name a t.entries).filter _ = _
  induction t.entries with
  | nil => simp [put]
  | cons p rest ih =>
      obtain ⟨n, b⟩ := p
      by_cases hn : n = name
      · simp [put, hn]
      · simpa [put, hn] using ih

end ByName

namespace Player

open Media

-- ============================================================ without a date

/-- A date of which all is erased but whether the clock can tell it. -/
def blur (date : Nat) : Nat := if Clock.IsInstant date then 0 else date

/-- A blurred date is an instant when the date is. -/
theorem isInstant_blur (date : Nat) : Clock.IsInstant (blur date) ↔ Clock.IsInstant date := by
  unfold blur
  split
  case isTrue h => exact iff_of_true (h.of_le (Nat.zero_le date)) h
  case isFalse => rfl

theorem blur_of_isInstant {date : Nat} (h : Clock.IsInstant date) : blur date = 0 := if_pos h

@[simp]
theorem blur_blur (date : Nat) : blur (blur date) = blur date := by
  by_cases h : Clock.IsInstant date
  · rw [blur_of_isInstant h, blur_of_isInstant (by decide)]
  · exact if_neg fun hblurred => h ((isInstant_blur date).1 hblurred)

/-- A session with its date blurred. -/
def Session.clockless (x : Session) : Session := { x with refreshAt := x.refreshAt.map blur }

/-- A session's clock is removed once. -/
@[simp]
theorem Session.clockless_clockless (x : Session) : x.clockless.clockless = x.clockless := by
  unfold clockless
  simp [Function.comp_def]

/-- With its date blurred, a session is in time just if it was. -/
private theorem Session.inTime_clockless (x : Session) : x.clockless.InTime ↔ x.InTime := by
  unfold InTime clockless
  cases x.refreshAt with
  | none => simp
  | some date => simp [isInstant_blur]

namespace Move

variable {cfg : Settings} {supply : Supply} {now : Nat}

/-- A move of a session with its date blurred. -/
def clockless (m : Move) : Move := { m with session := m.session.clockless }

@[simp]
theorem clockless_clockless (m : Move) : m.clockless.clockless = m.clockless := by
  simp [clockless]

theorem clockless_dispose (m : Move) : m.dispose.clockless = m.clockless.dispose := by
  obtain ⟨⟨serial, point, phase, epoch, engine, refreshAt, restarts, wishes⟩, e, calls⟩ := m
  cases engine with
  | none => rfl
  | some engine => rfl

/-- Whether a rest sets the clock does not depend on the date. -/
theorem clockless_rest (m : Move) :
    (m.rest cfg now).clockless = (m.clockless.rest cfg now).clockless := by
  obtain ⟨⟨serial, point, phase, epoch, engine, refreshAt, restarts, wishes⟩, e, calls⟩ := m
  cases restarts with
  | true => rfl
  | false =>
      cases refreshAt with
      | none => rfl
      | some date => simp [rest, clockless, Session.clockless]

theorem clockless_fail (m : Move) (message : String) :
    (m.fail cfg now message).clockless = (m.clockless.fail cfg now message).clockless := by
  unfold fail
  rw [← clockless_dispose]
  exact clockless_rest _

/-- What waits or is built does not look at the date. -/
theorem clockless_of_eq {m m' : Move} (h : m.clockless = m') : m.clockless = m'.clockless := by
  rw [← h, clockless_clockless]

theorem clockless_buildFailed (m : Move) (message : String) (why : Purpose) :
    (m.buildFailed cfg now message why).clockless
      = (m.clockless.buildFailed cfg now message why).clockless := by
  cases why with
  | firstStart => exact clockless_of_eq rfl
  | secondStart | userPlay | recovery => exact clockless_fail m message

theorem clockless_build (m : Move) (why : Purpose) :
    (m.build cfg supply now why).clockless = (m.clockless.build cfg supply now why).clockless := by
  obtain ⟨source, created⟩ := supply
  unfold build
  rw [← clockless_dispose]
  cases source with
  | error message => exact clockless_buildFailed (m.dispose.call _) message why
  | ok url =>
      cases created with
      | error message => exact clockless_buildFailed ((m.dispose.call _).call _) message why
      | ok engine => exact clockless_of_eq rfl

theorem clockless_recover (m : Move) (message : String) :
    (m.recover cfg now message).clockless = (m.clockless.recover cfg now message).clockless := by
  refine clockless_of_eq ?_
  unfold recover
  show (Move.clockless (Move.dispose _)).goto _ = (Move.dispose _).goto _
  rw [clockless_dispose]
  rfl

theorem clockless_awaitUser (m : Move) :
    (m.awaitUser cfg now).clockless = (m.clockless.awaitUser cfg now).clockless :=
  clockless_rest ((m.write .playPrompt).enter .awaitingUser)

theorem clockless_afterPlay (m : Move) (why : Attempt) (outcome : Except String Unit) :
    (m.afterPlay cfg supply now why outcome).clockless
      = (m.clockless.afterPlay cfg supply now why outcome).clockless := by
  cases outcome with
  | ok u =>
      cases why with
      | refresh => exact clockless_rest m
      | autoplay | resume | userPlay | recovery => exact clockless_rest (m.enter .playing)
  | error message =>
      cases why with
      | resume => exact clockless_build (m.enter .attaching) .userPlay
      | refresh => exact clockless_recover m message
      | autoplay | userPlay | recovery => exact clockless_awaitUser m

theorem clockless_start (m : Move) (why : Attempt) (muted : Bool) :
    (m.start cfg supply now why muted).clockless
      = (m.clockless.start cfg supply now why muted).clockless := by
  have hengine : m.clockless.session.engine = m.session.engine := rfl
  unfold start
  rw [hengine]
  cases m.session.engine with
  | none => exact clockless_afterPlay m why _
  | some engine => exact clockless_of_eq rfl

theorem clockless_built (m : Move) (why : Purpose) :
    (m.built cfg supply now why).clockless = (m.clockless.built cfg supply now why).clockless := by
  have hfirst : (if cfg.autoplay then m.start cfg supply now .autoplay cfg.autoplayMuted
        else m.awaitUser cfg now).clockless
      = (if cfg.autoplay then m.clockless.start cfg supply now .autoplay cfg.autoplayMuted
        else m.clockless.awaitUser cfg now).clockless := by
    split
    · exact clockless_start m _ _
    · exact clockless_awaitUser m
  cases why with
  | firstStart | secondStart => exact hfirst
  | userPlay | recovery => exact clockless_start m _ _

theorem clockless_userPlay (m : Move) :
    (m.userPlay cfg supply now).clockless = (m.clockless.userPlay cfg supply now).clockless := by
  have hphase : m.clockless.session.phase = m.session.phase := rfl
  unfold userPlay
  rw [hphase]
  cases m.session.phase with
  | playing => exact clockless_rest m
  | awaitingUser => exact clockless_start m _ _
  | attaching | recovering | failed => exact clockless_build (m.enter .attaching) .userPlay

/-- What does the same without the clock does the same with another one. -/
theorem clockless_congr {f : Move → Move} (hf : ∀ m, (f m).clockless = (f m.clockless).clockless)
    {m m' : Move} (h : m.clockless = m'.clockless) : (f m).clockless = (f m').clockless := by
  rw [hf m, h, ← hf m']

end Move

namespace Session

variable {cfg : Settings} {supply : Supply} {now : Nat} {signal : Signal}

/-- What a step does is the same with the date blurred, unless the step is a
refresh. -/
theorem clockless_step? (hsignal : signal ≠ .refreshDue) (x : Session) (e : Element) :
    (x.step? cfg supply now signal e).map Move.clockless
      = (x.clockless.step? cfg supply now signal e).map Move.clockless := by
  -- the record is taken apart, so that both steps compute to one branch each
  obtain ⟨serial, point, phase, epoch, engine, refreshAt, restarts, wishes⟩ := x
  cases point with
  | fresh =>
      cases signal with
      | begins => exact congrArg some (Move.clockless_build _ _)
      | _ => rfl
  | building why engine =>
      cases signal with
      | attached outcome =>
          cases outcome with
          | ok _ => exact congrArg some (Move.clockless_built _ why)
          | error message => exact congrArg some (Move.clockless_buildFailed _ message why)
      | _ => rfl
  | pausing why due =>
      cases signal with
      | pauseOver =>
          cases why with
          | secondStart =>
              by_cases hdue : due ≤ now
              · simp only [step?, clockless, if_pos hdue]
                exact congrArg some (Move.clockless_build _ _)
              · simp only [step?, clockless, if_neg hdue]
          | recovery =>
              by_cases hdue : due ≤ now
              · simp only [step?, clockless, if_pos hdue]
                exact congrArg some (Move.clockless_build _ _)
              · simp only [step?, clockless, if_neg hdue]
      | _ => cases why <;> rfl
  | refreshing =>
      cases signal with
      | attached outcome =>
          cases outcome with
          | ok _ => exact congrArg some (Move.clockless_start _ _ _)
          | error message => exact congrArg some (Move.clockless_recover _ message)
      | _ => rfl
  | starting why muted =>
      cases signal with
      | played outcome =>
          cases outcome with
          | ok _ => exact congrArg some (Move.clockless_afterPlay (Move.write _ _) why _)
          | error message => exact congrArg some (Move.clockless_afterPlay _ why _)
      | _ => rfl
  | resting =>
      cases signal with
      | wish =>
          show Option.map _ (if wishes = 0 then none else _)
            = Option.map _ (if wishes = 0 then none else _)
          by_cases hwishes : wishes = 0
          · rw [if_pos hwishes, if_pos hwishes]
          · rw [if_neg hwishes, if_neg hwishes]
            exact congrArg some
              (Move.clockless_congr Move.clockless_userPlay (Move.clockless_of_eq rfl))
      | fatal message =>
          show Option.map _ (if phase = .playing ∧ engine.isSome then _ else none)
            = Option.map _ (if phase = .playing ∧ engine.isSome then _ else none)
          by_cases hplays : phase = .playing ∧ engine.isSome
          · rw [if_pos hplays, if_pos hplays]
            exact congrArg some (Move.clockless_congr (fun m => Move.clockless_recover m message)
              (Move.clockless_of_eq rfl))
          · rw [if_neg hplays, if_neg hplays]
      -- the one signal that looks at the clock
      | refreshDue => exact absurd rfl hsignal
      | _ => rfl
  | «over» => cases signal <;> rfl

/-- So is what comes of it. Whether a session crashes is still told by a date
that is blurred. -/
theorem clockless_act? (hsignal : signal ≠ .refreshDue) (x : Session) (e : Element) :
    (x.act? false cfg supply now signal e).map Move.clockless
      = (x.clockless.act? false cfg supply now signal e).map Move.clockless := by
  have hsame : (x.step? cfg supply now signal e).map Move.clockless
      = (x.clockless.step? cfg supply now signal e).map Move.clockless :=
    clockless_step? hsignal x e
  cases hleft : x.step? cfg supply now signal e with
  | none =>
      rw [hleft, Option.map_none, eq_comm, Option.map_eq_none_iff] at hsame
      rw [act?_of_none hleft, act?_of_none hsame]
  | some m =>
      rw [hleft, Option.map_some, eq_comm, Option.map_eq_some_iff] at hsame
      obtain ⟨m', hright, hm⟩ := hsame
      rw [act?_of_some hleft, act?_of_some hright]
      have hsession : m'.session.clockless = m.session.clockless := congrArg Move.session hm
      have htime : m'.session.InTime ↔ m.session.InTime := by
        rw [← inTime_clockless, hsession, inTime_clockless]
      by_cases hintime : m.session.InTime
      · rw [if_pos hintime, if_pos (htime.2 hintime), Option.map_some, Option.map_some, hm]
      · rw [if_neg hintime, if_neg (htime.not.2 hintime)]
        have hcrash : ∀ (y : Session) (m : Move), (y.crash signal e m).clockless
            = { m.clockless with session := m.clockless.session.ended } := by
          intro y m
          cases signal with
          | refreshDue => exact absurd rfl hsignal
          | _ => rfl
        rw [Option.map_some, Option.map_some, hcrash, hcrash, hm]

/-- A session that plays hears a wish by setting its clock anew. -/
private theorem step?_wish_of_playing {x : Session} (hpoint : x.point = .resting)
    (hphase : x.phase = .playing) (e : Element) :
    Session.step? cfg supply now .wish { x with wishes := x.wishes + 1 } e
      = some ⟨{ x with
          refreshAt := some (now + cfg.refreshInterval), restarts := false }, e, []⟩ := by
  obtain ⟨serial, point, phase, epoch, engine, refreshAt, restarts, wishes⟩ := x
  cases hpoint
  cases hphase
  rfl

/-- A session with its date blurred if it is that of a stream. -/
def veil (name stream : String) (x : Session) : Session :=
  if stream = name then x.clockless else x

variable {name stream : String}

/-- A veiled session has no clock. -/
@[simp]
theorem veil_self (name : String) (x : Session) : x.veil name name = x.clockless := if_pos rfl

@[simp]
theorem veil_veil (x : Session) : (x.veil name stream).veil name stream = x.veil name stream := by
  unfold veil
  split
  · exact x.clockless_clockless
  · rfl

/-- Who does not look at the date does not see that it is blurred. -/
theorem apply_veil {α : Type} {f : Session → α} (hf : ∀ x : Session, f x.clockless = f x)
    (x : Session) : f (x.veil name stream) = f x := by
  unfold veil
  split
  · exact hf x
  · rfl

theorem isRunning_veil (x : Session) : (x.veil name stream).isRunning = x.isRunning :=
  apply_veil (f := isRunning) (fun _ => rfl) x

private theorem cancel_veil (x : Session) : (x.veil name stream).cancel.2 = x.cancel.2 :=
  apply_veil (f := fun y => y.cancel.2) (fun _ => rfl) x

theorem phase_veil (x : Session) : (x.veil name stream).phase = x.phase :=
  apply_veil (f := phase) (fun _ => rfl) x

end Session

/-- A move of a session with its date blurred if it is that of a stream. -/
def Move.veil (name stream : String) (m : Move) : Move :=
  { m with session := m.session.veil name stream }

/-- What the session of a stream does on a signal is the same with a date
blurred, unless the signal asks for that date. -/
private theorem Session.veil_act? {cfg : Settings} {supply : Supply} {now : Nat} {signal : Signal}
    {name stream : String} (hsignal : stream = name → signal ≠ .refreshDue) (x : Session)
    (e : Element) :
    (x.act? false cfg supply now signal e).map (Move.veil name stream)
      = ((x.veil name stream).act? false cfg supply now signal e).map (Move.veil name stream) := by
  by_cases hname : stream = name
  · have hveil : Move.veil name stream = Move.clockless := by
      funext m
      unfold Move.veil Move.clockless veil
      rw [if_pos hname]
    rw [hveil, veil, if_pos hname]
    exact clockless_act? (hsignal hname) x e
  · rw [veil, if_neg hname]

-- ================================================================ registries

namespace Registry

variable {r : Registry} {name stream : String}

/-- A registry with the dates of a stream blurred, of its session and of its
sessions on their way out. -/
def veiled (name : String) (r : Registry) : Registry :=
  { r with
    sessions := r.sessions.mapWith (Session.veil name)
    departing := r.departing.map fun p => (p.1, p.2.veil name p.1) }

@[simp]
theorem veiled_veiled (name : String) (r : Registry) :
    (r.veiled name).veiled name = r.veiled name := by
  simp [veiled, ByName.mapWith, Function.comp_def]

@[simp]
theorem element_veiled (name stream : String) (r : Registry) :
    (r.veiled name).element stream = r.element stream := rfl

theorem isAttached_veiled (name stream : String) (r : Registry) :
    (r.veiled name).isAttached stream = r.isAttached stream := by
  unfold isAttached veiled
  rw [ByName.get?_mapWith, Option.any_map]
  exact congrArg (Option.any · _) (funext Session.isRunning_veil)

theorem veiled_teardown (r : Registry) (stream : String) :
    (r.teardown stream).veiled name = (r.veiled name).teardown stream := by
  unfold teardown veiled
  rw [ByName.mapWith_erase, ByName.get?_mapWith]
  cases r.sessions.get? stream with
  | none => simp
  | some x => simp

theorem veiled_withElement (r : Registry) (stream : String) :
    (r.withElement stream).veiled name = (r.veiled name).withElement stream := rfl

theorem veiled_attach (r : Registry) (stream : String) :
    (r.attach stream).veiled name = (r.veiled name).attach stream := by
  unfold attach
  rw [isAttached_veiled, ← veiled_teardown, ← veiled_withElement]
  generalize (r.teardown stream).withElement stream = off
  have hfresh : Session.veil name stream { serial := off.attaches }
      = { serial := off.attaches } := by
    unfold Session.veil
    split
    · rfl
    · rfl
  by_cases hrun : r.isAttached stream = true
  · rw [if_pos hrun, if_pos hrun]
  · rw [if_neg hrun, if_neg hrun]
    show (if off.supported then _ else _ : Registry).veiled name
      = if off.supported then _ else _
    by_cases hs : off.supported = true
    · rw [if_pos hs, if_pos hs]
      unfold veiled
      dsimp only
      rw [ByName.mapWith_set, hfresh]
    · rw [if_neg hs, if_neg hs]
      rfl

theorem veiled_replace (r : Registry) (stream : String) :
    (r.replace stream).veiled name = (r.veiled name).replace stream := by
  rw [replace, replace, veiled_attach, veiled_teardown]

theorem veiled_teardownAll (r : Registry) :
    r.teardownAll.veiled name = (r.veiled name).teardownAll := by
  have hfold : ∀ (names : List String) (r : Registry),
      (names.foldl teardown r).veiled name = names.foldl teardown (r.veiled name) := by
    intro names
    induction names with
    | nil => exact fun r => rfl
    | cons stream rest ih =>
        intro r
        rw [List.foldl_cons, List.foldl_cons, ih, veiled_teardown]
  exact hfold r.elements.names r

theorem veiled_requestPlay (r : Registry) (stream : String) :
    (r.requestPlay stream).veiled name = (r.veiled name).requestPlay stream := by
  unfold requestPlay
  rw [isAttached_veiled]
  split
  · have hwish : ∀ x : Session, Session.veil name stream { x with wishes := x.wishes + 1 }
        = { Session.veil name stream x with
            wishes := (Session.veil name stream x).wishes + 1 } := by
      intro x
      unfold Session.veil
      split
      · rfl
      · rfl
    unfold veiled
    dsimp only
    rw [ByName.mapWith_modify _ _ hwish]
  · exact veiled_replace r stream

/-- Where a move leads a registry. -/
def landed (r : Registry) (stream : String) (m : Move) : Registry × List Call :=
  (r.settle stream m, m.calls)

/-- The registry with a date blurred, and the calls. -/
def veiledWith {α : Type} (name : String) (result : Registry × α) : Registry × α :=
  (result.1.veiled name, result.2)

/-- A landing is veiled by veiling the registry and the move. -/
private theorem veiledWith_landed (r : Registry) (stream : String) (m : Move) :
    veiledWith name (r.landed stream m) = (r.veiled name).landed stream (m.veil name stream) := by
  have hruns : (m.veil name stream).session.isRunning = m.session.isRunning :=
    m.session.isRunning_veil
  have hphase : (m.veil name stream).session.phase = m.session.phase := m.session.phase_veil
  unfold landed veiledWith settle
  dsimp only
  rw [hruns, hphase]
  split
  · unfold veiled
    dsimp only
    rw [ByName.mapWith_set]
    rfl
  · unfold veiled
    dsimp only
    rw [ByName.mapWith_erase]
    rfl

/-- A step is what its session may do, landed. -/
private theorem step?_eq (supply : Supply) (now : Nat) (stream : String) (signal : Signal)
    (r : Registry) : r.step? supply now stream signal = (r.sessions.get? stream).bind fun x =>
      (x.act? false r.settings supply now signal (r.element stream)).map (r.landed stream) := by
  unfold step?
  cases r.sessions.get? stream with
  | none => rfl
  | some x =>
      show (x.act? false r.settings supply now signal (r.element stream)).bind _
        = (x.act? false r.settings supply now signal (r.element stream)).map _
      cases x.act? false r.settings supply now signal (r.element stream) with
      | none => rfl
      | some m => rfl

/-- A step that is not the veiled stream's refresh is seen through the veil. -/
theorem veiled_step? (supply : Supply) (now : Nat) {signal : Signal}
    (hsignal : stream = name → signal ≠ .refreshDue) (r : Registry) :
    (r.step? supply now stream signal).map (veiledWith name)
      = ((r.veiled name).step? supply now stream signal).map (veiledWith name) := by
  rw [step?_eq, step?_eq, element_veiled]
  have hsession : (r.veiled name).sessions.get? stream
      = (r.sessions.get? stream).map (Session.veil name stream) := ByName.get?_mapWith _ _
  rw [hsession]
  cases r.sessions.get? stream with
  | none => rfl
  | some x =>
      have hlands : ∀ (r : Registry) (moves : Option Move),
          (moves.map (r.landed stream)).map (veiledWith name)
            = (moves.map (Move.veil name stream)).map ((r.veiled name).landed stream) := by
        intro r moves
        rw [Option.map_map, Option.map_map]
        exact congrArg (moves.map ·) (funext (veiledWith_landed r stream))
      show (Option.map _ (x.act? false r.settings supply now signal _)).map _
        = (Option.map _ ((x.veil name stream).act? false r.settings supply now signal _)).map _
      rw [hlands, hlands, veiled_veiled, Session.veil_act? hsignal]

/-- A waking is seen through the veil. -/
theorem veiled_wake? (supply : Supply) (now i : Nat) (signal : Signal) (r : Registry) :
    (r.wake? supply now i signal).map (veiledWith name)
      = (r.veiled name).wake? supply now i signal := by
  unfold wake?
  have hdeparting : (r.veiled name).departing[i]?
      = r.departing[i]?.map fun p => (p.1, p.2.veil name p.1) := List.getElem?_map
  rw [hdeparting]
  cases r.departing[i]? with
  | none => rfl
  | some p =>
      obtain ⟨stream, x⟩ := p
      have hcalls : x.cancel.2.map (fun call => (stream, call))
          = (x.veil name stream).cancel.2.map fun call => (stream, call) := by
        rw [Session.cancel_veil]
      show some (veiledWith name (_, x.cancel.2.map fun call => (stream, call))) = some (_, _)
      rw [hcalls]
      unfold veiledWith veiled
      dsimp only
      rw [List.eraseIdx_map]
      rfl

end Registry

-- ================================================================== histories

/-- Whether an event asks the session of a stream for its clock. -/
def Event.refreshes (name : String) : Event → Bool
  | .activity (.signal stream _ _ .refreshDue) => stream == name
  | _ => false

namespace History

variable {h h' : History} {name : String}

/-- A history with the dates of a stream blurred. -/
def veiled (name : String) (h : History) : History := { h with players := h.players.veiled name }

@[simp]
theorem veiled_veiled (name : String) (h : History) :
    (h.veiled name).veiled name = h.veiled name := by
  simp [veiled]

/-- What does not see a date keeps it blurred. -/
theorem veiled_of_eq (heq : h.veiled name = h') : h.veiled name = h'.veiled name := by
  rw [← heq, veiled_veiled]

/-- An operation on the registry that does not see the date. -/
theorem veiled_operation {op : Registry → Registry}
    (hop : ∀ r, (op r).veiled name = op (r.veiled name)) (h : History) :
    ({ h with players := op h.players } : History).veiled name
      = ({ h.veiled name with players := op (h.players.veiled name) } : History).veiled name := by
  refine veiled_of_eq ?_
  show History.mk ((op h.players).veiled name) _ = History.mk _ _
  rw [hop]
  rfl

theorem veiled_signal {stream : String} {supply : Supply} {now : Nat} {signal : Signal}
    (hsignal : stream = name → signal ≠ .refreshDue) (h : History) :
    (h.act (.signal stream supply now signal)).veiled name
      = ((h.veiled name).act (.signal stream supply now signal)).veiled name := by
  have hstep := Registry.veiled_step? supply now hsignal h.players
  unfold act
  dsimp only
  rw [show (h.veiled name).players = h.players.veiled name from rfl]
  cases hleft : h.players.step? supply now stream signal with
  | none =>
      rw [hleft, Option.map_none, eq_comm, Option.map_eq_none_iff] at hstep
      rw [hstep, veiled_veiled]
  | some result =>
      rw [hleft, Option.map_some, eq_comm, Option.map_eq_some_iff] at hstep
      obtain ⟨result', hright, hsame⟩ := hstep
      obtain ⟨players, calls⟩ := result
      obtain ⟨players', calls'⟩ := result'
      rw [hright]
      obtain ⟨hplayers, rfl⟩ := Prod.mk.inj hsame
      show History.mk (players.veiled name) _ = History.mk (players'.veiled name) _
      rw [hplayers]
      rfl

/-- An activity that does not refresh the stream is seen through the veil. -/
theorem veiled_act {a : Activity} (ha : Event.refreshes name (.activity a) = false) (h : History) :
    (h.act a).veiled name = ((h.veiled name).act a).veiled name := by
  cases a with
  | signal stream supply now signal =>
      refine veiled_signal ?_ h
      rintro rfl rfl
      simp [Event.refreshes] at ha
  | write stream engine epoch w =>
      refine veiled_of_eq ?_
      have hattached : (h.veiled name).wasAttached stream engine epoch
          = h.wasAttached stream engine epoch := rfl
      unfold act
      dsimp only
      rw [hattached]
      split
      · rfl
      · rfl
  | wake supply now i signal =>
      refine veiled_of_eq ?_
      unfold act
      dsimp only
      rw [show (h.veiled name).players = h.players.veiled name from rfl,
        ← Registry.veiled_wake?]
      cases h.players.wake? supply now i signal with
      | none => rfl
      | some result => rfl

/-- Every event but a refresh of the stream does the same with its dates
blurred. -/
theorem veiled_after {event : Event} (hevent : event.refreshes name = false) (h : History) :
    (h.after event).veiled name = ((h.veiled name).after event).veiled name := by
  cases event with
  | attach stream => exact veiled_operation (fun r => Registry.veiled_attach r stream) h
  | replace stream => exact veiled_operation (fun r => Registry.veiled_replace r stream) h
  | teardown stream => exact veiled_operation (fun r => Registry.veiled_teardown r stream) h
  | teardownAll => exact veiled_operation Registry.veiled_teardownAll h
  | requestPlay stream => exact veiled_operation (fun r => Registry.veiled_requestPlay r stream) h
  | activity a => exact veiled_act hevent h

/-- A run that does not refresh the stream is seen through the veil. -/
theorem veiled_run {events : List Event} (hevents : ∀ event ∈ events, event.refreshes name = false)
    (h : History) : (h.run events).veiled name = ((h.veiled name).run events).veiled name := by
  induction events generalizing h with
  | nil => exact (veiled_veiled name h).symm
  | cons event later ih =>
      have hlater := fun e he => hevents e (List.mem_cons_of_mem event he)
      rw [run_cons, run_cons, ih hlater (h.after event),
        veiled_after (hevents event List.mem_cons_self) h, ← ih hlater]

/-- Two histories that differ in the clock of a stream at most. -/
structure Alike (name : String) (h h' : History) : Prop where
  calls : h.calls = h'.calls
  elements : h.players.elements = h'.players.elements
  phases : ∀ stream, h.players.phase? stream = h'.players.phase? stream
  sessions : ∀ stream, (h.players.sessions.get? stream).map (Session.veil name stream)
    = (h'.players.sessions.get? stream).map (Session.veil name stream)

/-- Histories that are veiled alike are alike but for the stream's clock. -/
private theorem alike_of_veiled (heq : h.veiled name = h'.veiled name) : Alike name h h' := by
  have hsessions : ∀ stream, (h.players.sessions.get? stream).map (Session.veil name stream)
      = (h'.players.sessions.get? stream).map (Session.veil name stream) := by
    intro stream
    have hsame := congrArg (fun k : History => k.players.sessions.get? stream) heq
    exact (ByName.get?_mapWith _ _).symm.trans (hsame.trans (ByName.get?_mapWith _ _))
  have hcalls : (h.veiled name).calls = (h'.veiled name).calls := by rw [heq]
  have helements : (h.veiled name).players.elements = (h'.veiled name).players.elements := by
    rw [heq]
  have hended : (h.veiled name).players.ended = (h'.veiled name).players.ended := by rw [heq]
  refine ⟨hcalls, helements, ?_, hsessions⟩
  intro stream
  have hsame := congrArg (Option.map (·.phase)) (hsessions stream)
  rw [Option.map_map, Option.map_map] at hsame
  have hphases : (h.players.sessions.get? stream).map (·.phase)
      = (h'.players.sessions.get? stream).map (·.phase) := by
    simpa [Function.comp_def, Session.phase_veil] using hsame
  unfold Registry.phase?
  rw [hphases]
  exact congrArg (fun table : ByName Phase => Option.or _ (table.get? stream)) hended

-- ===================================================================== wishes

/-- A wish to play a stream, which is heard at once. -/
def wishAt (name : String) (supply : Supply) (now : Nat) : List Event :=
  [.requestPlay name, .activity (.signal name supply now .wish)]

/-- A history in which the session of a stream has another clock. -/
def redated (h : History) (name : String) (x : Session) (date : Nat) : History :=
  { h with
    players.sessions :=
      h.players.sessions.set name { x with refreshAt := some date, restarts := false } }

/-- A history in which the session of a stream has crashed while it played. -/
def cutOff (h : History) (name : String) : History :=
  { h with
    players.sessions := h.players.sessions.erase name
    players.ended := h.players.ended.set name .playing }

/-- A date that the clock can tell is the same as another one but for the
clock. -/
theorem veiled_redated {x : Session} (hx : h.players.sessions.get? name = some x)
    (hclocked : x.Clocked) {date : Nat} (hdate : Clock.IsInstant date) :
    (h.redated name x date).veiled name = h.veiled name := by
  have hblurred : ({ x with refreshAt := some date, restarts := false } : Session).clockless
      = x.clockless := by
    obtain ⟨due, hdue⟩ := Option.isSome_iff_exists.1 hclocked.isSet
    unfold Session.clockless
    dsimp only
    rw [hdue, Option.map_some, Option.map_some, blur_of_isInstant hdate,
      blur_of_isInstant (hclocked.inTime due hdue), hclocked.kept]
  have hkept : (h.players.sessions.mapWith (Session.veil name)).set name x.clockless
      = h.players.sessions.mapWith (Session.veil name) := by
    apply ByName.set_self
    rw [ByName.get?_mapWith, hx, Option.map_some, Session.veil_self]
  unfold veiled redated Registry.veiled
  dsimp only
  rw [ByName.mapWith_set, Session.veil_self, hblurred]
  exact congrArg (fun sessions => ({ h with players := { h.players with
    sessions
    departing := h.players.departing.map fun p => (p.1, p.2.veil name p.1) } } : History)) hkept

/-- A wish for a stream that plays gives its session another date for its
refresh. If the clock cannot tell that date, the session crashes. -/
private theorem run_wishAt (hs : h.Sound) {x : Session} (hx : h.players.sessions.get? name = some x)
    (hpoint : x.point = .resting) (hphase : x.phase = .playing) (supply : Supply) (now : Nat) :
    h.run (wishAt name supply now)
      = if Clock.IsInstant (now + h.players.settings.refreshInterval) then
          h.redated name x (now + h.players.settings.refreshInterval)
        else h.cutOff name := by
  have hrun : h.players.isAttached name = true := by
    rw [Registry.isAttached, hx, Option.any_some, Session.isRunning, hpoint]
    rfl
  have hasked : h.players.requestPlay name = { h.players with
      sessions := h.players.sessions.set name { x with wishes := x.wishes + 1 } } := by
    rw [Registry.requestPlay_of_attached hrun, ByName.modify, hx]
  have hhoused : h.players.elements.set name (h.players.element name) = h.players.elements := by
    obtain ⟨e, he⟩ := Option.isSome_iff_exists.1
      ((hs.players name).housed (Or.inl (by rw [hx]; rfl)))
    apply ByName.set_self
    rw [Registry.element, he]
    rfl
  have hself : (h.players.requestPlay name).sessions.get? name
      = some { x with wishes := x.wishes + 1 } := by
    rw [hasked]
    exact ByName.get?_set_self _ _ _
  have hstep : Session.step? (h.players.requestPlay name).settings supply now .wish
      { x with wishes := x.wishes + 1 } ((h.players.requestPlay name).element name) = some
        ⟨{ x with refreshAt := some (now + h.players.settings.refreshInterval), restarts := false },
          h.players.element name, []⟩ := by
    rw [hasked]
    exact Session.step?_wish_of_playing hpoint hphase _
  show act { h with players := h.players.requestPlay name } (.signal name supply now .wish) = _
  unfold act
  dsimp only
  by_cases hinstant : Clock.IsInstant (now + h.players.settings.refreshInterval)
  · rw [if_pos hinstant, Registry.step?_of_some hself hstep (by simpa [Session.InTime])]
    simp [redated, hasked, ByName.set_set, hhoused]
  · rw [if_neg hinstant, Registry.step?_of_crash hself hstep (by simpa [Session.InTime])]
    simp [cutOff, hasked, ByName.erase_set, hhoused, Session.crash, Session.ended, hphase]

/-- A wish to play a stream that plays, heard at once.

- It changes the date of the next refresh of the stream to a whole interval
  from then, and nothing else.
- As long as the stream is not refreshed in either run, the calls, the
  elements, the phases and all of the sessions but that clock are the same
  with the wish and without it.
- With the wish, no refresh of the stream is made before the new date.
- If the clock cannot tell the new date, the session of the stream crashes
  instead, and all else stays as it is. -/
theorem wish_moves_clock {settings : Settings} {supported : Bool} {before : List Event}
    (hreached : h = (opened settings supported).run before) {x : Session}
    (hx : h.players.sessions.get? name = some x) (hpoint : x.point = .resting)
    (hphase : x.phase = .playing) (supply : Supply) (now : Nat) :
    (Clock.IsInstant (now + settings.refreshInterval) →
        h.run (wishAt name supply now) = h.redated name x (now + settings.refreshInterval)
          ∧ ∀ later, (∀ event ∈ later, event.refreshes name = false) →
            Alike name ((h.run (wishAt name supply now)).run later) (h.run later))
      ∧ (¬ Clock.IsInstant (now + settings.refreshInterval) →
        h.run (wishAt name supply now) = h.cutOff name)
      ∧ ∀ later, (∀ event ∈ later, event.notBefore now) →
        ∀ t supply', t < now + settings.refreshInterval →
          ((h.run (wishAt name supply now)).run later).players.step? supply' t name .refreshDue
            = none := by
  have hsound : h.Sound := hreached ▸ sound_run settings supported before
  have hclocked : x.Clocked := clocked_run settings supported before (hreached ▸ hx) hpoint
  have hsettings : h.players.settings = settings := by
    rw [hreached]
    exact settings_run _ _
  clear hreached
  subst hsettings
  -- the wish itself dates the clock anew; from then on the runs differ in the clock
  -- alone
  have hwish := run_wishAt hsound hx hpoint hphase supply now
  refine ⟨fun hinstant => ?_, fun hlate => ?_, ?_⟩
  · rw [if_pos hinstant] at hwish
    rw [hwish]
    refine ⟨rfl, fun later hlater => alike_of_veiled ?_⟩
    rw [veiled_run hlater, veiled_redated hx hclocked hinstant, ← veiled_run hlater]
  · rwa [if_neg hlate] at hwish
  · intro later hlater t supply' ht
    have hsettings : (h.run (wishAt name supply now)).players.settings = h.players.settings :=
      settings_run _ _
    rw [← hsettings] at ht
    refine step?_refreshDue_run (hsound.run _) ?_ hlater ht
    rw [hsettings, hwish]
    intro y hy due hdue
    split at hy
    · unfold redated at hy
      rw [ByName.get?_set_self] at hy
      cases hy
      cases hdue
      exact Nat.le_refl _
    · unfold cutOff at hy
      rw [ByName.get?_erase_self] at hy
      cases hy

/-- What there is for the yard to be had. -/
def yardSupply : Supply := ⟨.ok default, .ok 2⟩

/-- The yard plays from 0 on and is asked for at 600. Its refresh, which was
due at 1000, is put off to 1600. -/
theorem wish_moves_clock_of_yard :
    ∃ x, ((opened hasty true).run (yardPlays default)).players.sessions.get? "yard" = some x
      ∧ x.point = .resting ∧ x.phase = .playing ∧ x.refreshAt = some 1000
      ∧ Alike "yard" ((((opened hasty true).run (yardPlays default)).run
          (wishAt "yard" yardSupply 600)).run [])
        (((opened hasty true).run (yardPlays default)).run [])
      ∧ ((((opened hasty true).run (yardPlays default)).run
          (wishAt "yard" yardSupply 600)).run []).players.step? yardSupply 1599 "yard" .refreshDue
        = none := by
  obtain ⟨x, hx⟩ : ∃ x, ((opened hasty true).run (yardPlays default)).players.sessions.get? "yard"
      = some x := ⟨_, rfl⟩
  have hpoint : x.point = .resting := by
    cases hx
    rfl
  have hphase : x.phase = .playing := by
    cases hx
    rfl
  obtain ⟨hmoves, -, hlate⟩ := wish_moves_clock rfl hx hpoint hphase yardSupply 600
  obtain ⟨-, halike⟩ := hmoves (by decide)
  refine ⟨x, hx, hpoint, hphase, ?_, halike [] (by simp), hlate [] (by simp) 1599 _ (by decide)⟩
  cases hx
  rfl

/-- Without a wish the yard is refreshed at 1000. With one at 600 it is not,
and with another one at 1200 it is not refreshed at 2000 either. -/
theorem refresh_put_off :
    (((opened hasty true).run (yardPlays default)).players.step? yardSupply 1000 "yard"
        .refreshDue).isSome = true
      ∧ (((opened hasty true).run (yardPlays default ++ wishAt "yard" yardSupply 600)).players.step?
          yardSupply 1000 "yard" .refreshDue).isSome = false
      ∧ (((opened hasty true).run (yardPlays default ++ wishAt "yard" yardSupply 600
          ++ wishAt "yard" yardSupply 1200)).players.step? yardSupply 2000 "yard"
            .refreshDue).isSome = false := by
  decide

end History

end Player

end VideoWall
