/-
Retries are bounded: how many engines a session makes by itself, and that
it leaves a dead camera alone.

# Dormant sessions

A session that rests without playing, all wishes of the user being heard,
waits for the next wish and for nothing else. Fatal errors, queued
refreshes and time that passes are no signals to it, so it takes no step
at all (`Dormant.step?_eq_none`), and its registry keeps it as it is until
the user does something about it.

# The budget

`Session.allowance` is how many more engines a session may make before it
comes to rest: two when it starts, none at rest. A step pays for the
engine it makes out of the allowance, and only a wish, a fatal error or a
refresh that failed, each heard by the session, adds to it, and adds one
(`Session.Lands.pays`). Summed over a history, a session makes two engines
and one for each of these at most, and from rest to rest no more than
there were of them.
-/
import VideoWall.Proofs.Player.AtRest
import VideoWall.Proofs.Player.Ledger

namespace VideoWall.Player

open Media

-- ============================================================= dormant

/-- A session that rests until the user wishes for something. -/
structure Session.Dormant (x : Session) : Prop where
  point : x.point = .resting
  phase : x.phase = .awaitingUser ∨ x.phase = .failed
  wishes : x.wishes = 0

/-- Whether an event is not the user's doing for a stream. -/
def Event.spares (name : String) : Event → Bool
  | .replace n | .teardown n | .requestPlay n => n != name
  | .teardownAll => false
  | _ => true

namespace Session

variable {cfg : Settings} {supply : Supply} {now : Nat} {signal : Signal}
variable {x : Session} {e : Element} {m : Move}

/-- A dormant session does not play. -/
theorem Dormant.phase_ne (h : x.Dormant) : x.phase ≠ .playing := by
  rcases h.phase with hphase | hphase
  · rw [hphase]
    decide
  · rw [hphase]
    decide

/-- A dormant session is running. -/
private theorem Dormant.isRunning (h : x.Dormant) : x.isRunning = true := by
  simp [Session.isRunning, h.point]

/-- Nothing but a wish is a signal to a dormant session, and there is none. -/
private theorem Dormant.step?_eq_none (h : x.Dormant) : x.step? cfg supply now signal e = none := by
  rw [Option.eq_none_iff_forall_ne_some]
  intro m hm
  have hpoint := h.point
  cases step_of_step? hm with
  | begins hp | attached hp | refused _ hp | pauseOver _ hp | reissued hp | outdated _ hp
  | plays hp | balks _ hp =>
      rw [hp] at hpoint
      cases hpoint
  | wish _ hwishes => exact hwishes h.wishes
  | fatal _ _ hphase => exact h.phase_ne hphase
  | refreshDue _ _ hphase => exact h.phase_ne hphase

-- ============================================================== spurs

/-- What makes a session build another engine. -/
inductive Spur where
  | wish
  | fatal (message : String)
  | refreshFailed (message : String)
  deriving DecidableEq

/-- Whether something went wrong, as opposed to a wish of the user. -/
def Spur.isTrouble : Spur → Bool
  | .wish => false
  | _ => true

/-- What a signal spurs a session to do. A refresh fails when its attach is
refused or when its engine will not play. -/
def spur? (x : Session) : Signal → Option Spur
  | .wish => some .wish
  | .fatal message => some (.fatal message)
  | .attached (.error message) =>
      if x.point = .refreshing then some (.refreshFailed message) else none
  | .played (.error message) =>
      match x.point with
      | .starting .refresh _ => some (.refreshFailed message)
      | _ => none
  | _ => none

/-- How many engines a session may still make before it rests. -/
def allowance (x : Session) : Nat :=
  match x.point with
  | .fresh => 2
  | .building .firstStart _ | .pausing _ _ | .starting .resume _ => 1
  | _ => 0

end Session

-- ------------------------------------------------------------- the moves

/-- Engines are counted deed by deed. -/
theorem created_append (deeds more : List Deed) :
    created (deeds ++ more) = created deeds ++ created more :=
  List.filterMap_append ..

/-- Only calls make engines. -/
private theorem created_of_silent {deeds : List Deed} (h : ∀ d ∈ deeds, d.call? = none) :
    created deeds = [] := by
  refine List.filterMap_eq_nil_iff.2 fun d hd => ?_
  have hnone := h d hd
  cases d with
  | call => cases hnone
  | _ => rfl

/-- The engines that calls make. -/
def madeIn (calls : List Call) : List EngineId := created (calls.map .call)

namespace Move

variable {m : Move} {cfg : Settings} {supply : Supply} {now : Nat}

/-- What a step on its way has made, and may still make. -/
def outlay (m : Move) : Nat := (madeIn m.calls).length + m.session.allowance

theorem madeIn_call {c : Call} (hc : Deed.created? (.call c) = none) :
    madeIn (m.call c).calls = madeIn m.calls := by
  simp [madeIn, created, Move.call, List.filterMap_append, hc]

theorem madeIn_dispose (m : Move) : madeIn m.dispose.calls = madeIn m.calls := by
  unfold dispose
  split
  · rfl
  · exact madeIn_call (m := { m with session.engine := none }) rfl

theorem outlay_fail (m : Move) (message : String) :
    (m.fail cfg now message).outlay = (madeIn m.calls).length :=
  congrArg List.length (madeIn_dispose m)

private theorem outlay_recover (m : Move) (message : String) :
    (m.recover cfg now message).outlay = (madeIn m.calls).length + 1 :=
  congrArg (·.length + 1)
    (madeIn_dispose ((m.enter .recovering).write (.status ("reconnecting: " ++ message))))

/-- The first start that fails may be tried once more. -/
private theorem outlay_buildFailed (cfg : Settings) (now : Nat) (m : Move) (message : String)
    (why : Purpose) :
    (m.buildFailed cfg now message why).outlay
      ≤ (madeIn m.calls).length + if why = .firstStart then 1 else 0 := by
  unfold buildFailed
  split
  · exact Nat.le_refl _
  · rw [outlay_fail]
    exact Nat.le_add_right _ _

/-- A build makes one engine at most; the first one may be followed by
another. -/
private theorem outlay_build (cfg : Settings) (supply : Supply) (now : Nat) (m : Move)
    (why : Purpose) :
    (m.build cfg supply now why).outlay
      ≤ (madeIn m.calls).length + if why = .firstStart then 2 else 1 := by
  obtain ⟨source, made⟩ := supply
  have hasked : madeIn (m.dispose.call (.source source)).calls = madeIn m.calls :=
    (madeIn_call rfl).trans (madeIn_dispose m)
  -- what fails has made nothing, and a first start may be tried once more
  have hfailed : ∀ (m' : Move) (message : String), madeIn m'.calls = madeIn m.calls →
      (m'.buildFailed cfg now message why).outlay
        ≤ (madeIn m.calls).length + if why = .firstStart then 2 else 1 := by
    intro m' message hnothing
    have hleft := outlay_buildFailed cfg now m' message why
    rw [hnothing] at hleft
    refine Nat.le_trans hleft (Nat.add_le_add_left ?_ _)
    split
    · omega
    · omega
  cases source with
  | error message => exact hfailed _ message hasked
  | ok url =>
      cases made with
      | error message => exact hfailed _ message ((madeIn_call rfl).trans hasked)
      | ok engine =>
          have hmade : madeIn (m.build cfg ⟨.ok url, .ok engine⟩ now why).calls
              = madeIn m.calls ++ [engine] := by
            rw [← hasked]
            simp [Move.build, madeIn, created, Move.call, Move.goto, List.filterMap_cons,
              Deed.created?]
          have hwaits : (m.build cfg ⟨.ok url, .ok engine⟩ now why).session.point
              = .building why engine := rfl
          unfold outlay Session.allowance
          rw [hmade, hwaits, List.length_append, List.length_singleton]
          cases why with
          | firstStart => exact Nat.le_refl _
          | _ => exact Nat.le_refl _

end Move

-- ------------------------------------------------------------- the steps

namespace Session

variable {cfg : Settings} {supply : Supply} {now : Nat} {signal : Signal}
variable {x : Session} {e : Element} {m : Move}

/-- A step pays for the engine it makes out of the allowance, to which only
a spur adds. -/
private theorem Lands.pays (h : x.Lands cfg supply now e signal m) :
    m.outlay ≤ x.allowance + (x.spur? signal).toList.length := by
  have hbuilds : ∀ (y : Session) (why : Purpose) (k : Nat),
      (if why = .firstStart then 2 else 1) ≤ k →
      (Move.build cfg supply now why ⟨y, e, []⟩).outlay ≤ k := by
    intro y why k hk
    have hbuild := Move.outlay_build cfg supply now ⟨y, e, []⟩ why
    have hnothing : (madeIn (⟨y, e, []⟩ : Move).calls).length = 0 := rfl
    omega
  cases h with
  | begins hpoint =>
      have hallowed : x.allowance = 2 := by simp [allowance, hpoint]
      exact hbuilds _ .firstStart _ (by simp [hallowed])
  | @told why engine hpoint =>
      -- nothing that is told to play after a build is resumed
      cases why with
      | firstStart | secondStart | userPlay | recovery => exact Nat.zero_le _
  | offered | reissued | plays | balks | goesOn | refreshes | skips => exact Nat.zero_le _
  | postponed message hpoint =>
      have hallowed : x.allowance = 1 := by simp [allowance, hpoint]
      rw [hallowed]
      exact Nat.le_add_right _ _
  | refused message hpoint hwhy =>
      rw [Move.outlay_fail]
      exact Nat.zero_le _
  | pauseOver why hpoint hdue =>
      have hallowed : x.allowance = 1 := by simp [allowance, hpoint]
      refine hbuilds _ why.purpose _ ?_
      cases why with
      | secondStart | recovery => simp [hallowed, Pause.purpose]
  | outdated message hpoint hengine =>
      have hspur : x.spur? (.attached (.error message)) = some (.refreshFailed message) := by
        simp [spur?, hpoint]
      rw [Move.outlay_recover, hspur]
      exact Nat.le_add_left _ _
  | declined message hpoint =>
      have hallowed : x.allowance = 1 := by simp [allowance, hpoint]
      exact hbuilds _ .userPlay _ (by simp [hallowed])
  | lapsed message hpoint hengine =>
      have hspur : x.spur? (.played (.error message)) = some (.refreshFailed message) := by
        simp [spur?, hpoint]
      rw [Move.outlay_recover, hspur]
      exact Nat.le_add_left _ _
  | resumes => exact Nat.le_add_left _ _
  | rebuilds => exact hbuilds _ .userPlay _ (Nat.le_add_left _ _)
  | fatal message =>
      rw [Move.outlay_recover]
      exact Nat.le_add_left _ _

-- ------------------------------------------------------------- wishes

end Session

namespace Move

variable {m : Move} {cfg : Settings} {supply : Supply} {now : Nat}

@[simp]
theorem wishes_dispose (m : Move) : m.dispose.session.wishes = m.session.wishes := by
  rw [session_dispose]

@[simp]
theorem wishes_fail (m : Move) (message : String) :
    (m.fail cfg now message).session.wishes = m.session.wishes :=
  wishes_dispose m

@[simp]
theorem wishes_recover (m : Move) (message : String) :
    (m.recover cfg now message).session.wishes = m.session.wishes :=
  wishes_dispose _

@[simp]
theorem wishes_buildFailed (m : Move) (message : String) (why : Purpose) :
    (m.buildFailed cfg now message why).session.wishes = m.session.wishes := by
  unfold buildFailed
  split
  · rfl
  · exact wishes_fail m message

@[simp]
theorem wishes_build (m : Move) (why : Purpose) :
    (m.build cfg supply now why).session.wishes = m.session.wishes := by
  obtain ⟨source, made⟩ := supply
  cases source with
  | error message => exact (wishes_buildFailed _ message why).trans (wishes_dispose m)
  | ok url =>
      cases made with
      | error message => exact (wishes_buildFailed _ message why).trans (wishes_dispose m)
      | ok engine => exact wishes_dispose m

end Move

namespace Session

variable {cfg : Settings} {supply : Supply} {now : Nat} {signal : Signal}
variable {x : Session} {e : Element} {m : Move}

/-- Only a wish spurs as a wish. -/
private theorem spur?_eq_wish (h : x.spur? signal = some .wish) : signal = .wish := by
  unfold spur? at h
  split at h
  · rfl
  · cases h
  · split at h
    · cases h
    · cases h
  · split at h
    · cases h
    · cases h
  · cases h

/-- By itself a session has no wishes, and it hears one only if it has one. -/
private theorem Lands.wishes (h : x.Lands cfg supply now e signal m) (hx : x.wishes = 0) :
    m.session.wishes = 0 ∧ x.spur? signal ≠ some .wish := by
  refine ⟨?_, fun hspur => ?_⟩
  · cases h with
    | goesOn _ hwishes | resumes _ hwishes | rebuilds _ hwishes => exact absurd hx hwishes
    | begins | pauseOver | declined => exact (Move.wishes_build _ _).trans hx
    | refused message => exact (Move.wishes_fail _ message).trans hx
    | outdated message | lapsed message | fatal message =>
        exact (Move.wishes_recover _ message).trans hx
    | told | offered | reissued | plays | refreshes | skips | postponed | balks => exact hx
  · obtain rfl := spur?_eq_wish hspur
    cases h with
    | goesOn _ hwishes | resumes _ hwishes | rebuilds _ hwishes => exact hwishes hx

end Session

-- ========================================================== operations

/-- Whether an event is a wish of the user. -/
def Event.isRequest : Event → Bool
  | .requestPlay _ => true
  | _ => false

namespace Registry

variable {r r' : Registry} {name : String} {n : Nat} {asked : Bool}

/-- What an operation makes of the running sessions: each was there before,
with more wishes if the user has asked for something, or it is new. -/
structure Renews (r r' : Registry) (asked : Bool) : Prop where
  attaches : r.attaches ≤ r'.attaches
  session : ∀ name y, r'.sessions.get? name = some y →
    (∃ x more, r.sessions.get? name = some x ∧ y = { x with wishes := x.wishes + more }
        ∧ (asked = false → more = 0))
      ∨ (r.attaches ≤ y.serial ∧ y.point = .fresh ∧ (asked = false → y.wishes = 0))

/-- Sessions that are as they were. -/
theorem renews_of_old (hattaches : r.attaches ≤ r'.attaches)
    (hold : ∀ name y, r'.sessions.get? name = some y → r.sessions.get? name = some y)
    (asked : Bool) : Renews r r' asked :=
  ⟨hattaches, fun name y hy => Or.inl ⟨y, 0, hold name y hy, rfl, fun _ => rfl⟩⟩

/-- A renewal may be renewed. -/
theorem Renews.trans {r₁ r₂ r₃ : Registry} (h : Renews r₁ r₂ asked)
    (h' : Renews r₂ r₃ asked) : Renews r₁ r₃ asked := by
  refine ⟨Nat.le_trans h.attaches h'.attaches, fun name z hz => ?_⟩
  rcases h'.session name z hz with ⟨y, more', hy, rfl, hmore'⟩ | ⟨hserial, hfresh, hwishes⟩
  · rcases h.session name y hy with ⟨x, more, hx, rfl, hmore⟩ | ⟨hserial, hfresh, hwishes⟩
    · refine Or.inl ⟨x, more + more', hx, ?_, fun ha => ?_⟩
      · simp [Nat.add_assoc]
      · rw [hmore ha, hmore' ha]
    · refine Or.inr ⟨hserial, hfresh, fun ha => ?_⟩
      simp [hwishes ha, hmore' ha]
  · exact Or.inr ⟨Nat.le_trans h.attaches hserial, hfresh, hwishes⟩

/-- A teardown renews nothing. -/
theorem renews_teardown (r : Registry) (name : String) (asked : Bool) :
    Renews r (r.teardown name) asked := by
  have hattaches : r.attaches ≤ (r.teardown name).attaches := Nat.le_refl _
  refine renews_of_old hattaches (fun other y hy => ?_) asked
  rw [get?_sessions_teardown] at hy
  split at hy
  · cases hy
  · exact hy

theorem renews_teardowns (r : Registry) (names : List String) (asked : Bool) :
    Renews r (names.foldl teardown r) asked := by
  induction names generalizing r with
  | nil => exact renews_of_old (Nat.le_refl _) (fun _ _ hy => hy) asked
  | cons name rest ih => exact (renews_teardown r name asked).trans (ih (r.teardown name))

/-- A session that an attach starts is fresh and has the next number. -/
theorem renews_attach (r : Registry) (name : String) (asked : Bool) :
    Renews r (r.attach name) asked := by
  cases hrun : r.isAttached name with
  | true =>
      rw [attach_of_attached hrun]
      exact renews_of_old (Nat.le_refl _) (fun _ _ hy => hy) asked
  | false =>
      cases hs : r.supported with
      | true =>
          refine ⟨?_, fun other y hy => ?_⟩
          · rw [attach_of_supported hrun hs]
            exact Nat.le_succ _
          · rw [get?_sessions_attach hrun hs] at hy
            split at hy
            · cases hy
              exact Or.inr ⟨Nat.le_refl _, rfl, fun _ => rfl⟩
            · exact Or.inl ⟨y, 0, hy, rfl, fun _ => rfl⟩
      | false =>
          refine renews_of_old ?_ (fun other y hy => ?_) asked
          · rw [attach_of_unsupported hrun hs]
            exact Nat.le_refl _
          · rw [(attach_unsupported hrun hs).1 other] at hy
            split at hy
            · cases hy
            · exact hy

/-- A replacement renews one session. -/
theorem renews_replace (r : Registry) (name : String) (asked : Bool) :
    Renews r (r.replace name) asked :=
  (renews_teardown r name asked).trans (renews_attach _ name asked)

/-- A wish to play renews one session at most. -/
theorem renews_requestPlay (r : Registry) (name : String) : Renews r (r.requestPlay name) true := by
  cases hrun : r.isAttached name with
  | false =>
      rw [requestPlay_of_not_attached hrun]
      exact renews_replace r name true
  | true =>
      rw [requestPlay_of_attached hrun]
      refine ⟨Nat.le_refl _, fun other y hy => Or.inl ?_⟩
      rw [ByName.get?_modify] at hy
      split at hy
      case isTrue ho =>
        obtain ⟨x, hx, rfl⟩ := Option.map_eq_some_iff.1 hy
        rw [ho]
        exact ⟨x, 1, hx, rfl, fun ha => by cases ha⟩
      case isFalse => exact ⟨y, 0, hy, rfl, fun _ => rfl⟩

/-- A frame changes nothing that lies over it. -/
private theorem overlay_frame (r : Registry) (name : String) (k width height : Nat)
    (rgb : Array UInt8) : ((r.write name k (.frame width height rgb)).element name).overlay
      = (r.element name).overlay := by
  unfold element
  rw [get?_elements_write, if_pos rfl]
  cases r.elements.get? name with
  | none => rfl
  | some e => exact (Element.after_frame e k width height rgb).2

end Registry

-- ============================================================ the events

namespace History

variable {h : History} {event : Event} {n k : Nat}

/-- What an event spurs the session of a number to do. -/
def spurred (n : Nat) (h : History) : Event → List Session.Spur
  | .activity (.signal name supply now signal) =>
      match h.players.sessions.get? name with
      | none => []
      | some x =>
          if x.serial = n
              ∧ (x.step? h.players.settings supply now signal (h.players.element name)).isSome then
            (x.spur? signal).toList
          else []
  | _ => []

/-- All that events spur the session of a number to do. -/
def spurs (n : Nat) (h : History) : List Event → List Session.Spur
  | [] => []
  | event :: later => h.spurred n event ++ (h.after event).spurs n later

/-- What happens to the running sessions: an operation renews them, or one
of them takes a step. It may crash in it, and then there is nothing left of
the session, and of its calls all or none. -/
inductive Stirs (h : History) (n : Nat) :
    Event → History → List Deed → List Session.Spur → Prop where
  | renews {event : Event} {players : Registry} {calls : List (String × Call)} {deeds : List Deed}
      (hrenews : h.players.Renews players event.isRequest) (hmade : created deeds = []) :
      Stirs h n event ⟨players, calls⟩ deeds []
  | steps {name : String} {supply : Supply} {now : Nat} {signal : Signal} {x : Session}
      {m left : Move} {players : Registry} {calls : List (String × Call)}
      (hx : h.players.sessions.get? name = some x)
      (hstep : x.Step h.players.settings supply now (h.players.element name) signal m)
      (hleft : left.calls = m.calls ∨ left.calls = [])
      (hattaches : players.attaches = h.players.attaches)
      (hself : ∀ y, players.sessions.get? name = some y → y = m.session)
      (hothers : ∀ other, other ≠ name →
        players.sessions.get? other = h.players.sessions.get? other) :
      Stirs h n (.activity (.signal name supply now signal)) ⟨players, calls⟩
        (if x.serial = n then x.returns signal ++ left.calls.map .call ++ left.session.outcome
          else [])
        (if x.serial = n then (x.spur? signal).toList else [])

/-- A session that is taken off makes no engine. -/
private theorem created_cancel (x : Session) :
    created (x.cancel.2.map .call ++ [.ended]) = [] := by
  unfold Session.cancel
  cases x.engine with
  | none => rfl
  | some engine => rfl

/-- Every event stirs a session by what it is spurred with. -/
theorem stirs (h : History) (n : Nat) (event : Event) :
    h.Stirs n event (h.after event) (deedsOf n (h.entries event)) (h.spurred n event) := by
  cases event with
  | attach name => exact .renews (Registry.renews_attach _ name false) rfl
  | replace name => exact .renews (Registry.renews_replace _ name false) rfl
  | teardown name => exact .renews (Registry.renews_teardown _ name false) rfl
  | teardownAll => exact .renews (Registry.renews_teardowns _ _ false) rfl
  | requestPlay name => exact .renews (Registry.renews_requestPlay _ name) rfl
  | activity a =>
      -- what starts no session and makes no engine stirs nobody
      have hstays : ∀ {players : Registry} {calls : List (String × Call)} {deeds : List Deed},
          players.attaches = h.players.attaches → players.sessions = h.players.sessions →
          created deeds = [] → h.Stirs n (.activity a) ⟨players, calls⟩ deeds [] := by
        intro players calls deeds hattaches hsessions hmade
        refine .renews (Registry.renews_of_old (Nat.le_of_eq hattaches.symm) ?_ false) hmade
        intro name y hy
        rwa [hsessions] at hy
      show h.Stirs n _ (h.act a) _ _
      cases a with
      | signal name supply now signal =>
          cases hx : h.players.sessions.get? name with
          | none =>
              simp only [act, entries, spurred, Registry.step?_of_absent hx, hx]
              exact hstays rfl rfl rfl
          | some x =>
              cases hm : x.step? h.players.settings supply now signal (h.players.element name) with
              | none =>
                  simp only [act, entries, spurred, Registry.step?_of_none hx hm, hx, hm,
                    Session.act?_of_none hm]
                  simp only [Option.isSome_none, Bool.false_eq_true, and_false, if_false]
                  exact hstays rfl rfl rfl
              | some m =>
                  have hrule := Session.step_of_step? hm
                  by_cases htime : m.session.InTime
                  · simp only [act, entries, spurred, Registry.step?_of_some hx hm htime, hx, hm,
                      Session.act?_of_some hm, if_pos htime, deedsOf_enter]
                    simp only [Option.isSome_some, and_true]
                    refine .steps hx hrule (Or.inl rfl) rfl (fun y hy => ?_)
                      fun other ho => ByName.get?_set_of_ne ho _ _
                    rw [ByName.get?_set_self] at hy
                    exact (Option.some.inj hy).symm
                  -- the step ends in a crash, which drops what it would have made
                  · simp only [act, entries, spurred, Registry.step?_of_crash hx hm htime, hx, hm,
                      Session.act?_of_some hm, if_neg htime, deedsOf_enter]
                    simp only [Option.isSome_some, and_true]
                    refine .steps hx hrule ?_ rfl (fun y hy => ?_)
                      fun other ho => ByName.get?_erase_of_ne ho _
                    · exact (Registry.crash_cases x signal _ m).imp And.right And.right
                    · rw [ByName.get?_erase_self] at hy
                      cases hy
      | write name engine epoch w =>
          unfold act
          dsimp only
          split
          · exact hstays rfl rfl rfl
          · exact hstays rfl rfl rfl
      | wake supply now i signal =>
          cases hwake : h.players.wake? supply now i signal with
          | none =>
              simp only [act, entries, spurred, hwake, Registry.departing_of_wake?_none hwake]
              exact hstays rfl rfl rfl
          | some result =>
              obtain ⟨players, calls⟩ := result
              obtain ⟨name, x, hx, rfl, rfl⟩ := Registry.wake?_inv hwake
              simp only [act, entries, spurred, hwake, hx, deedsOf_enter]
              refine hstays rfl rfl ?_
              split
              · exact created_cancel x
              · rfl

-- ============================================================ the budget

/-- What the session of a number may still make is `k` at most, be it yet to
start, running or gone. -/
structure Allows (h : History) (n k : Nat) : Prop where
  unstarted : h.players.attaches ≤ n → 2 ≤ k
  running : ∀ name x, h.players.sessions.get? name = some x → x.serial = n → x.allowance ≤ k

/-- Every event is paid for. -/
theorem Allows.after (ha : h.Allows n k) (hs : h.Sound) (hn : h.players.Numbered) (event : Event) :
    ∃ k', (h.after event).Allows n k'
      ∧ (created (deedsOf n (h.entries event))).length + k' ≤ k + (h.spurred n event).length := by
  have hshape := h.stirs n event
  -- of the event only its shape matters: sessions renewed, or one step taken
  generalize h.after event = h', deedsOf n (h.entries event) = deeds,
    h.spurred n event = spurs at hshape
  cases hshape with
  | renews hrenews hmade =>
      refine ⟨k, ⟨fun hle => ha.unstarted (Nat.le_trans hrenews.attaches hle), ?_⟩, ?_⟩
      · intro name y hy hserial
        rcases hrenews.session name y hy with ⟨x, more, hx, rfl, -⟩ | ⟨hnew, hfresh, -⟩
        · exact ha.running name x hx hserial
        · have hallowed : y.allowance = 2 := by simp [Session.allowance, hfresh]
          rw [hallowed]
          exact ha.unstarted (hserial ▸ hnew)
      · rw [hmade]
        exact Nat.le_of_eq (Nat.zero_add k)
  | @steps name supply now signal x m left players calls hx hstep hleft hattaches hself hothers =>
      have hlands := ((hs.players name).session x hx).lands hstep
      by_cases hsame : x.serial = n
      · rw [if_pos hsame, if_pos hsame]
        -- the step is one of session `n`, which pays for what it makes
        have hpays := hlands.pays
        have hallowed := ha.running name x hx hsame
        have hmade : created (x.returns signal ++ left.calls.map .call ++ left.session.outcome)
            = madeIn left.calls := by
          rw [created_append, created_append, created_of_silent (x.call?_returns signal),
            created_of_silent left.session.call?_outcome, List.nil_append, List.append_nil]
          rfl
        have hfewer : (madeIn left.calls).length ≤ (madeIn m.calls).length := by
          rcases hleft with hcalls | hcalls
          · exact Nat.le_of_eq (congrArg (List.length ∘ madeIn) hcalls)
          · rw [hcalls]
            exact Nat.zero_le _
        unfold Move.outlay at hpays
        refine ⟨k + (x.spur? signal).toList.length - (madeIn m.calls).length, ⟨?_, ?_⟩, ?_⟩
        · intro hle
          have hbelow := hn.below name x (Or.inl hx)
          rw [hattaches] at hle
          omega
        · intro other y hy hserial
          by_cases ho : other = name
          · subst ho
            rw [hself y hy]
            omega
          · rw [hothers other ho] at hy
            exact absurd (hn.running other name y x hy hx (hserial.trans hsame.symm)) ho
        · rw [hmade]
          omega
      · rw [if_neg hsame, if_neg hsame]
        -- another session's step leaves session `n` what it may make
        refine ⟨k, ⟨fun hle => ha.unstarted (hattaches ▸ hle), ?_⟩, Nat.le_of_eq (Nat.zero_add k)⟩
        intro other y hy hserial
        by_cases ho : other = name
        · subst ho
          rw [hself y hy] at hserial
          exact absurd (hlands.serial.symm.trans hserial) hsame
        · rw [hothers other ho] at hy
          exact ha.running other y hy hserial

/-- A run makes no more engines than it is spurred to and was allowed before.
-/
theorem Allows.run {book : List Entry} (ha : h.Allows n k) (hs : h.Sound) (hk : h.Kept book)
    (events : List Event) :
    ∃ k', (h.run events).Allows n k'
      ∧ (created (deedsOf n (h.ledger events))).length + k' ≤ k + (h.spurs n events).length := by
  induction events generalizing h k book with
  | nil => exact ⟨k, ha, Nat.le_of_eq (Nat.zero_add k)⟩
  | cons event later ih =>
      obtain ⟨k₁, ha₁, hpaid₁⟩ := ha.after hs hk.numbered event
      obtain ⟨k₂, ha₂, hpaid₂⟩ := ih ha₁ (hs.after event) (hk.after hs event)
      refine ⟨k₂, ha₂, ?_⟩
      unfold ledger spurs
      rw [deedsOf_append, created_append, List.length_append, List.length_append]
      omega

/-- Nobody has wished for anything that is still to be heard. -/
def Wishless (h : History) : Prop :=
  ∀ name x, h.players.sessions.get? name = some x → x.wishes = 0

/-- What is not a wish leaves none to be heard, and spurs nothing but what
went wrong. -/
theorem Wishless.after (hw : h.Wishless) (hs : h.Sound) (hevent : event.isRequest = false)
    (n : Nat) : (h.after event).Wishless ∧ ∀ spur ∈ h.spurred n event, spur.isTrouble = true := by
  have hshape := h.stirs n event
  generalize h.after event = h', deedsOf n (h.entries event) = deeds,
    h.spurred n event = spurs at hshape
  cases hshape with
  | renews hrenews =>
      refine ⟨fun name y hy => ?_, fun spur hspur => by cases hspur⟩
      rcases hrenews.session name y hy with ⟨x, more, hx, rfl, hmore⟩ | ⟨-, -, hnone⟩
      · simp [hw name x hx, hmore hevent]
      · exact hnone hevent
  | @steps name supply now signal x m left players calls hx hstep hleft hattaches hself hothers =>
      have hlands := ((hs.players name).session x hx).lands hstep
      obtain ⟨hnone, hunheard⟩ := hlands.wishes (hw name x hx)
      refine ⟨fun other y hy => ?_, fun spur hspur => ?_⟩
      · by_cases ho : other = name
        · subst ho
          rw [hself y hy]
          exact hnone
        · rw [hothers other ho] at hy
          exact hw other y hy
      · split at hspur
        · cases spur with
          | wish => exact absurd (Option.mem_toList.1 hspur) hunheard
          | fatal | refreshFailed => rfl
        · cases hspur

/-- Without wishes only trouble spurs a session. -/
theorem Wishless.run (hw : h.Wishless) (hs : h.Sound) {events : List Event}
    (hevents : ∀ event ∈ events, event.isRequest = false) (n : Nat) :
    ∀ spur ∈ h.spurs n events, spur.isTrouble = true := by
  induction events generalizing h with
  | nil =>
      intro spur hspur
      cases hspur
  | cons event later ih =>
      obtain ⟨hw', hfirst⟩ := hw.after hs (hevents event List.mem_cons_self) n
      intro spur hspur
      rcases List.mem_append.1 hspur with hspur | hspur
      · exact hfirst spur hspur
      · exact ih hw' (hs.after event) (fun e he => hevents e (List.mem_cons_of_mem event he))
          spur hspur

-- =============================================================== dormancy

variable {name : String} {x : Session}

/-- What becomes of a stream whose session does nothing: it stays, its
element shows what it showed, and of a session of its number there are no
deeds. -/
structure Idles (h h' : History) (name : String) (x : Session) (book : List Entry)
    (presents : Bool) : Prop where
  session : h'.players.sessions.get? name = some x
  deeds : deedsOf x.serial book = []
  overlay : presents = true →
    (h'.players.element name).overlay = (h.players.element name).overlay

theorem idles_of_agrees {h' : History} (presents : Bool)
    (hx : h.players.sessions.get? name = some x)
    (ha : Registry.Agrees h.players h'.players name) : h.Idles h' name x [] presents :=
  ⟨ha.session.trans hx, rfl, fun _ => congrArg (·.overlay) ha.element⟩

/-- A write leaves the session, and a frame leaves the overlay too. -/
private theorem idles_write (hx : h.players.sessions.get? name = some x) (other : String)
    (engine : EngineId) (k : Nat) (w : Element.Write) :
    h.Idles (h.act (.write other engine k w)) name x []
      (Event.presents (.activity (.write other engine k w))) := by
  unfold act
  dsimp only
  split
  case isFalse => exact ⟨hx, rfl, fun _ => rfl⟩
  case isTrue hattached =>
    by_cases ho : name = other
    · subst ho
      refine ⟨hx, rfl, fun hpresents => ?_⟩
      cases w with
      | frame width height rgb => exact Registry.overlay_frame _ name k width height rgb
      | _ => cases hpresents
    · exact idles_of_agrees _ hx (Registry.agrees_write ho)

/-- A signal to another stream is no deed of a session. -/
private theorem deedsOf_signal (hn : h.players.Numbered)
    (hx : h.players.sessions.get? name = some x)
    {other : String} (ho : name ≠ other) {supply : Supply} {now : Nat} {signal : Signal} :
    deedsOf x.serial (h.entries (.activity (.signal other supply now signal))) = [] := by
  unfold entries
  dsimp only
  cases hy : h.players.sessions.get? other with
  | none => rfl
  | some y =>
      dsimp only
      split
      · rfl
      · rw [deedsOf_enter, if_neg]
        intro hserial
        exact ho (hn.running name other x y hx hy hserial.symm)

/-- Nor is it a deed of a running session that one on its way out ends. -/
private theorem deedsOf_wake (hn : h.players.Numbered) (hx : h.players.sessions.get? name = some x)
    {supply : Supply} {now i : Nat} {signal : Signal} :
    deedsOf x.serial (h.entries (.activity (.wake supply now i signal))) = [] := by
  unfold entries
  dsimp only
  split
  · rfl
  · rename_i stream y hy
    rw [deedsOf_enter, if_neg]
    exact fun hserial => hn.parted name x (stream, y) hx (List.mem_of_getElem? hy) hserial.symm

/-- A dormant session is left alone by everything but the user's doing for
its stream. -/
theorem idles_after (hx : h.players.sessions.get? name = some x) (hd : x.Dormant)
    (hn : h.players.Numbered) (hspares : event.spares name = true) :
    h.Idles (h.after event) name x (h.entries event) event.presents := by
  have hruns : h.players.isAttached name = true := Registry.isAttached_of_get? hx hd.isRunning
  cases event with
  | attach other =>
      exact idles_of_agrees _ hx (Registry.agrees_attach_of_attached hruns other)
  | replace other =>
      exact idles_of_agrees _ hx (Registry.agrees_replace (bne_iff_ne.1 hspares).symm)
  | teardown other =>
      exact idles_of_agrees _ hx (Registry.agrees_teardown (bne_iff_ne.1 hspares).symm)
  | teardownAll => cases hspares
  | requestPlay other =>
      exact idles_of_agrees _ hx (Registry.agrees_requestPlay (bne_iff_ne.1 hspares).symm)
  | activity a =>
      show h.Idles (h.act a) _ _ _ _
      cases a with
      | signal other supply now signal =>
          by_cases ho : name = other
          · subst ho
            -- a dormant session heeds none of the signals that may come
            have hnone : h.players.step? supply now name signal = none :=
              Registry.step?_of_none hx hd.step?_eq_none
            have hentries : h.entries (.activity (.signal name supply now signal)) = [] := by
              simp [entries, hx, Session.act?_of_none hd.step?_eq_none]
            rw [hentries, act, hnone]
            exact idles_of_agrees _ hx (.refl _ _)
          · have hagrees : Registry.Agrees h.players
                (h.act (.signal other supply now signal)).players name := by
              unfold act
              dsimp only
              cases hstep : h.players.step? supply now other signal with
              | none => exact .refl _ _
              | some result => exact Registry.agrees_step hstep ho
            have hidles := idles_of_agrees true hx hagrees
            exact ⟨hidles.session, deedsOf_signal hn hx ho, fun _ => hidles.overlay rfl⟩
      | write other engine k w => exact idles_write hx other engine k w
      | wake supply now i signal =>
          have hagrees : Registry.Agrees h.players
              (h.act (.wake supply now i signal)).players name := by
            unfold act
            dsimp only
            cases hwake : h.players.wake? supply now i signal with
            | none => exact .refl _ _
            | some result =>
                obtain ⟨players, calls⟩ := result
                obtain ⟨stream, y, -, rfl, -⟩ := Registry.wake?_inv hwake
                exact ⟨rfl, rfl, rfl⟩
          have hidles := idles_of_agrees true hx hagrees
          exact ⟨hidles.session, deedsOf_wake hn hx, fun _ => hidles.overlay rfl⟩

/-- A dormant session idles as long as it is spared. -/
theorem idles_run {book : List Entry} (hx : h.players.sessions.get? name = some x)
    (hd : x.Dormant) (hs : h.Sound) (hk : h.Kept book) {events : List Event}
    (hspares : ∀ event ∈ events, event.spares name = true) :
    h.Idles (h.run events) name x (h.ledger events) (events.all Event.presents) := by
  induction events generalizing h book with
  | nil => exact ⟨hx, rfl, fun _ => rfl⟩
  | cons event later ih =>
      have hfirst := idles_after hx hd hk.numbered (hspares event List.mem_cons_self)
      have hrest := ih hfirst.session (hs.after event) (hk.after hs event)
        fun e he => hspares e (List.mem_cons_of_mem event he)
      refine ⟨hrest.session, ?_, fun hpresents => ?_⟩
      · unfold ledger
        rw [deedsOf_append, hfirst.deeds, hrest.deeds, List.nil_append]
      · rw [List.all_cons, Bool.and_eq_true] at hpresents
        exact (hrest.overlay hpresents.2).trans (hfirst.overlay hpresents.1)

-- ================================================================ a run

/-- The session of a number has started, and it rests if it still runs. -/
def Rests (h : History) (n : Nat) : Prop :=
  n < h.players.attaches
    ∧ ∀ name x, h.players.sessions.get? name = some x → x.serial = n → x.point = .resting

/-- At first a session is allowed two engines. -/
theorem allows_opened (settings : Settings) (supported : Bool) (n : Nat) :
    (opened settings supported).Allows n 2 := by
  refine ⟨fun _ => Nat.le_refl 2, fun name x hx => ?_⟩
  cases hx

/-- From rest a session may make no engine on its own account. -/
private theorem Rests.allows (hr : h.Rests n) : h.Allows n 0 := by
  refine ⟨fun hle => absurd hr.1 (Nat.not_lt.2 hle), fun name x hx hserial => ?_⟩
  have hpoint := hr.2 name x hx hserial
  simp [Session.allowance, hpoint]

/-- Retries are bounded.

- A dormant session stays dormant whatever happens, for as long as the user
  does nothing about its stream: it makes no call, keeps its phase, and its
  element goes on to show what it shows.
- A session makes two engines at most, and one more for each thing that
  spurs it. From rest on it makes one at most for each thing that spurs it
  from then on.
- Unless the user wishes for something, what spurs a session is a fatal
  error that it handles or a refresh of it that fails. -/
theorem retries_bounded (settings : Settings) (supported : Bool) (before later : List Event) :
    (∀ name x, ((opened settings supported).run before).players.sessions.get? name = some x →
        x.Dormant → (∀ event ∈ later, event.spares name = true) →
          ((opened settings supported).run (before ++ later)).players.sessions.get? name = some x
            ∧ deedsOf x.serial (((opened settings supported).run before).ledger later) = []
            ∧ ((∀ event ∈ later, event.presents = true) →
                (((opened settings supported).run (before ++ later)).players.element
                    name).overlay
                  = (((opened settings supported).run before).players.element name).overlay))
      ∧ (∀ n, (created (deedsOf n ((opened settings supported).ledger before))).length
            ≤ 2 + ((opened settings supported).spurs n before).length)
      ∧ (∀ n, ((opened settings supported).run before).Rests n →
          (created (deedsOf n (((opened settings supported).run before).ledger later))).length
            ≤ (((opened settings supported).run before).spurs n later).length)
      ∧ ((∀ event ∈ before, event.isRequest = false) →
          ∀ n, ∀ spur ∈ (opened settings supported).spurs n before, spur.isTrouble = true) := by
  have hopened := sound_opened settings supported
  have hsound := sound_run settings supported before
  have hkept := kept_run settings supported before
  refine ⟨fun name x hx hd hspares => ?_, fun n => ?_, fun n hrests => ?_, fun hnone n => ?_⟩
  · have hidles := idles_run hx hd hsound hkept hspares
    rw [run_append]
    exact ⟨hidles.session, hidles.deeds, fun hall => hidles.overlay (List.all_eq_true.2 hall)⟩
  · have hstart := kept_run settings supported []
    obtain ⟨k, -, hpaid⟩ := (allows_opened settings supported n).run hopened hstart before
    omega
  · obtain ⟨k, -, hpaid⟩ := hrests.allows.run hsound hkept later
    omega
  · have hwishless : (opened settings supported).Wishless := by
      intro name x hx
      cases hx
    exact hwishless.run hopened hnone n

/-- A stream plays. -/
def gatePlays : List Event :=
  [ .attach "gate",
    .activity (.signal "gate" ⟨.ok default, .ok 7⟩ 0 .begins),
    .activity (.signal "gate" ⟨.ok default, .ok 7⟩ 0 (.attached (.ok ()))),
    .activity (.signal "gate" ⟨.ok default, .ok 7⟩ 0 (.played (.ok ()))) ]

/-- Its engine fails, and the one built instead is refused the source. -/
def gateBreaks : List Event :=
  [ .activity (.signal "gate" ⟨.ok default, .ok 8⟩ 1000 (.fatal "manifest gone")),
    .activity (.signal "gate" ⟨.ok default, .ok 8⟩ 3500 .pauseOver),
    .activity (.signal "gate" ⟨.ok default, .ok 8⟩ 3500 (.attached (.error "no route"))) ]

/-- Whatever is still armed then goes off. -/
def gateIsLeft : List Event :=
  [ .activity (.signal "gate" ⟨.ok default, .ok 9⟩ 4000 (.fatal "segment gone")),
    .activity (.signal "gate" ⟨.ok default, .ok 9⟩ 900000 .refreshDue),
    .attach "gate" ]

/-- The session at rest, playing and failed. -/
def gateAtRest : Session :=
  { point := .resting, phase := .playing, epoch := 1, engine := some 7, refreshAt := some 30000 }

/-- The session of the gate, which has failed. -/
def gateFailed : Session :=
  { point := .resting, phase := .failed, epoch := 2, refreshAt := some 33500 }

/-- From rest one engine is made for one fatal error, and once the session has
failed none. -/
theorem one_retry_of_gate :
    created (deedsOf 0 (((opened {} true).run gatePlays).ledger gateBreaks)) = [8]
      ∧ ((opened {} true).run gatePlays).spurs 0 gateBreaks = [.fatal "manifest gone"]
      ∧ (created (deedsOf 0 (((opened {} true).run gatePlays).ledger gateBreaks))).length
          ≤ (((opened {} true).run gatePlays).spurs 0 gateBreaks).length
      ∧ (∀ spur ∈ (opened {} true).spurs 0 (gatePlays ++ gateBreaks), spur.isTrouble = true)
      ∧ ((opened {} true).run ((gatePlays ++ gateBreaks) ++ gateIsLeft)).players.sessions.get?
          "gate" = some gateFailed
      ∧ deedsOf 0 (((opened {} true).run (gatePlays ++ gateBreaks)).ledger gateIsLeft) = [] := by
  have hrests : ((opened {} true).run gatePlays).Rests 0 := by
    have hplays : ((opened {} true).run gatePlays).players.sessions.get? "gate"
        = some gateAtRest := by decide
    refine ⟨by decide, fun name x hx hserial => ?_⟩
    obtain rfl := (kept_run {} true gatePlays).numbered.running name "gate" x gateAtRest hx hplays
      hserial
    rw [hplays] at hx
    cases hx
    rfl
  have hnone : ∀ event ∈ gatePlays ++ gateBreaks, event.isRequest = false := by
    simp [gatePlays, gateBreaks, Event.isRequest]
  have hfailed : ((opened {} true).run (gatePlays ++ gateBreaks)).players.sessions.get? "gate"
      = some gateFailed := by decide
  have hspares : ∀ event ∈ gateIsLeft, event.spares "gate" = true := by
    simp [gateIsLeft, Event.spares]
  obtain ⟨-, -, hpaid, -⟩ := retries_bounded {} true gatePlays gateBreaks
  obtain ⟨hidle, -, -, htrouble⟩ := retries_bounded {} true (gatePlays ++ gateBreaks) gateIsLeft
  obtain ⟨hstays, hnothing, -⟩ :=
    hidle "gate" gateFailed hfailed ⟨rfl, Or.inr rfl, rfl⟩ hspares
  exact ⟨by decide, by decide, hpaid 0 hrests, htrouble hnone 0, hstays, hnothing⟩

end History

end VideoWall.Player
