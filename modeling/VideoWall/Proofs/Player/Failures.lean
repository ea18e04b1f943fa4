/-
What the element shows of a session that has failed.

# The law

A session fails when it cannot build an engine, and says why on its
element. The word is taken as long as the session is of the element's
epoch, and then the element shows the message of the build that failed,
whichever step of it that was; otherwise the word is refused, and the
element shows nothing (`History.failed_session_shows`).

A session is of another epoch just when it has not come to point its
element at a source and another session before it had: it begins at epoch
nought, and the element has moved on (`History.failure_unseen`).

# Why it holds

A session is of the element's epoch, or the element is off
(`Session.InTouch`): it begins on an element that is off, it takes the
epoch whenever it changes the source, and to an element that is off its
writes either come for the present epoch or change nothing.
-/
import VideoWall.Proofs.Player.AtRest
import VideoWall.Proofs.Player.Notes

namespace VideoWall.Player

open Media

-- ============================================================== failures

/-- The message of a call that refuses what a build asks for. -/
def Call.failure? : Call → Option String
  | .source (.error message) | .create (.error message) => some message
  | _ => none

/-- The first failure that calls tell of. -/
def failureIn (calls : List Call) : Option String := calls.findSome? Call.failure?

/-- Notes why a build failed: there was no source or no engine to be had, or
the engine would not attach. A refresh is no build. -/
def failureNote : Note String := fun x signal calls =>
  match x.point, signal with
  | .resting, .refreshDue => none
  | .building _ _, .attached (.error message) => some message
  | _, _ => failureIn calls

/-- The last failure counts. -/
theorem failureIn_append (calls more : List Call) :
    failureIn (calls ++ more) = (failureIn calls).or (failureIn more) :=
  List.findSome?_append

namespace Session

/-- The session is of the element's epoch, or the element is off. -/
def InTouch (x : Session) (e : Element) : Prop := x.epoch = e.epoch ∨ e.Off

/-- What is shown of a session and of the build that failed last. -/
structure Admits (failure : Option String) (x : Session) (e : Element) : Prop where
  touch : x.InTouch e
  shown : x.point = .resting → x.phase = .failed →
    e.playing = false ∧ ∃ message, failure = some message
      ∧ (x.epoch = e.epoch → e.overlay = .error message)

variable {x : Session} {e : Element} {failure : Option String}

/-- A session that works admits any failure. -/
theorem InTouch.working (h : x.InTouch e) (hpoint : x.point ≠ .resting) :
    x.Admits failure e :=
  ⟨h, fun hp => absurd hp hpoint⟩

/-- A session that has not failed admits any failure. -/
private theorem InTouch.unfailed (h : x.InTouch e) (hphase : x.phase ≠ .failed) :
    x.Admits failure e :=
  ⟨h, fun _ hp => absurd hp hphase⟩

/-- A write for the session's epoch is taken, or finds an element that is off
and changes nothing. -/
theorem InTouch.after (h : x.InTouch e) (w : Element.Write) : x.InTouch (e.after x.epoch w) := by
  by_cases hepoch : x.epoch = e.epoch
  · left
    rw [Element.epoch_after]
    exact hepoch
  · rw [Element.after_of_ne (Ne.symm hepoch)]
    exact h

end Session

namespace Move

variable {m : Move} {cfg : Settings} {supply : Supply} {now : Nat}

theorem epoch_dispose (m : Move) : m.dispose.session.epoch = m.session.epoch := by
  rw [session_dispose]

/-- To dispose an engine is no failure. -/
theorem failure_dispose (m : Move) : failureIn m.dispose.calls = failureIn m.calls := by
  unfold dispose
  split
  · rfl
  · exact (failureIn_append _ _).trans Option.or_none

private theorem failure_call (m : Move) (c : Call) :
    failureIn (m.call c).calls = (failureIn m.calls).or (failureIn [c]) := failureIn_append _ _

/-- A session that fails says why, and stops playing. -/
theorem admits_fail (h : m.session.InTouch m.element) (message : String) :
    (m.fail cfg now message).session.Admits (some message) (m.fail cfg now message).element := by
  have hwritten : (m.fail cfg now message).element
      = m.element.after m.session.epoch (.error message) := by
    show m.dispose.element.after m.dispose.session.epoch _ = _
    rw [element_dispose, epoch_dispose]
  have hepoch : (m.fail cfg now message).session.epoch = m.session.epoch := epoch_dispose m
  rw [hwritten]
  refine ⟨?_, fun _ _ => ?_⟩
  · unfold Session.InTouch
    rw [hepoch]
    exact h.after _
  · by_cases heq : m.element.epoch = m.session.epoch
    · rw [Element.after_of_eq heq (fun _ _ _ => by simp)]
      exact ⟨rfl, message, rfl, fun _ => rfl⟩
    · rw [Element.after_of_ne heq, hepoch]
      refine ⟨?_, message, rfl, fun hsame => absurd hsame.symm heq⟩
      exact (h.resolve_left (Ne.symm heq)).playing

private theorem admits_buildFailed (h : m.session.InTouch m.element) (message : String)
    (why : Purpose) : (m.buildFailed cfg now message why).session.Admits (some message)
      (m.buildFailed cfg now message why).element := by
  unfold buildFailed
  split
  · exact Session.InTouch.working h (by simp [goto])
  · exact admits_fail h message

private theorem failure_buildFailed (m : Move) (message : String) (why : Purpose) :
    failureIn (m.buildFailed cfg now message why).calls = failureIn m.calls := by
  unfold buildFailed
  split
  · rfl
  · exact failure_dispose m

/-- A build that fails tells why, and one that does not is on the new source. -/
private theorem admits_build (h : m.session.InTouch m.element) (hcalls : m.calls = [])
    (why : Purpose) {last : Option String} : (m.build cfg supply now why).session.Admits
      ((failureIn (m.build cfg supply now why).calls).or last)
      (m.build cfg supply now why).element := by
  obtain ⟨source, created⟩ := supply
  have hnone : failureIn m.dispose.calls = none := by
    rw [failure_dispose, hcalls]
    rfl
  have htouch : m.dispose.session.InTouch m.dispose.element := by
    unfold Session.InTouch
    rw [epoch_dispose, element_dispose]
    exact h
  cases source with
  | error message =>
      have htold : failureIn (m.build cfg ⟨.error message, created⟩ now why).calls
          = some message := by
        refine (failure_buildFailed (m.dispose.call _) message why).trans ?_
        rw [failure_call, hnone]
        rfl
      rw [htold]
      exact admits_buildFailed (m := m.dispose.call _) htouch message why
  | ok url =>
      cases created with
      | error message =>
          have htold : failureIn (m.build cfg ⟨.ok url, .error message⟩ now why).calls
              = some message := by
            refine (failure_buildFailed ((m.dispose.call _).call _) message why).trans ?_
            rw [failure_call, failure_call, hnone]
            rfl
          rw [htold]
          exact admits_buildFailed (m := (m.dispose.call _).call _) htouch message why
      | ok engine => exact Session.InTouch.working (Or.inl rfl) (fun hp => by cases hp)

/-- A recovery writes to the element, and waits. -/
private theorem touch_recover (cfg : Settings) (now : Nat) (h : m.session.InTouch m.element)
    (message : String) :
    (m.recover cfg now message).session.InTouch (m.recover cfg now message).element := by
  have hwritten := h.after (.status ("reconnecting: " ++ message))
  unfold Session.InTouch at hwritten ⊢
  show (dispose _).session.epoch = (dispose _).element.epoch ∨ (dispose _).element.Off
  rw [epoch_dispose, element_dispose]
  exact hwritten

end Move

-- ============================================================= the steps

namespace Session

variable {cfg : Settings} {supply : Supply} {now : Nat} {signal : Signal}
variable {x : Session} {e : Element} {m : Move} {last : Option String}

/-- Elsewhere than at rest, calls alone tell of a build that failed, but for
an engine that would not attach. -/
private theorem failureNote_calls (hpoint : x.point ≠ .resting)
    (hsignal : ∀ message, signal ≠ .attached (.error message)) (calls : List Call) :
    failureNote x signal calls = failureIn calls := by
  unfold failureNote
  split
  · contradiction
  · exact absurd rfl (hsignal _)
  · rfl

/-- Every step keeps a session in touch, and one that fails says why. -/
theorem Admits.step (h : x.Admits last e) (hlands : x.Lands cfg supply now e signal m) :
    m.session.Admits ((failureNote x signal m.calls).or last) m.element := by
  have ht := h.touch
  -- by where the step lands: it fails, or it leaves the session working, or not failed
  cases hlands with
  | begins hpoint =>
      rw [failureNote_calls (by rw [hpoint]; simp) (by simp)]
      exact Move.admits_build ht rfl _
  | told hpoint hplay => exact InTouch.working ht (fun hp => by cases hp)
  | offered hpoint hwhy hplay =>
      exact InTouch.unfailed (ht.after .playPrompt) (fun hp => by cases hp)
  | postponed message hpoint => exact InTouch.working ht (fun hp => by cases hp)
  | @refused why engine message hpoint hwhy =>
      have hnoted : ∀ calls, failureNote x (.attached (.error message)) calls = some message := by
        intro calls
        unfold failureNote
        rw [hpoint]
      rw [hnoted]
      exact Move.admits_fail (m := ⟨{ x with engine := some engine }, e, []⟩) ht message
  | pauseOver why hpoint hdue =>
      rw [failureNote_calls (by rw [hpoint]; simp) (by simp)]
      exact Move.admits_build ht rfl _
  | reissued hpoint hengine hphase => exact InTouch.working ht (fun hp => by cases hp)
  | outdated message hpoint hengine =>
      have htouch := Move.touch_recover cfg now (m := ⟨x, e, []⟩) ht message
      exact htouch.working (fun hp => by cases hp)
  | plays hpoint hengine =>
      exact InTouch.unfailed (ht.after (.playing _)) (fun hp => by cases hp)
  | declined message hpoint =>
      rw [failureNote_calls (by rw [hpoint]; simp) (by simp)]
      exact Move.admits_build ht rfl _
  | lapsed message hpoint hengine =>
      have htouch := Move.touch_recover cfg now (m := ⟨x, e, []⟩) ht message
      exact htouch.working (fun hp => by cases hp)
  | balks message hpoint hwhy hengine =>
      exact InTouch.unfailed (ht.after .playPrompt) (fun hp => by cases hp)
  | goesOn hpoint hwishes hphase hengine =>
      exact InTouch.unfailed ht (fun hp => by cases hphase.symm.trans hp)
  | resumes hpoint hwishes hphase hengine => exact InTouch.working ht (fun hp => by cases hp)
  | rebuilds hpoint hwishes hphase =>
      have hnoted : ∀ calls, failureNote x .wish calls = failureIn calls := by
        intro calls
        unfold failureNote
        rw [hpoint]
      rw [hnoted]
      exact Move.admits_build (m := ⟨{ x.heard with phase := .attaching }, e, []⟩) ht rfl _
  | fatal message hpoint hphase hengine =>
      have htouch := Move.touch_recover cfg now (m := ⟨{ x with restarts := true }, e, []⟩) ht
        message
      exact htouch.working (fun hp => by cases hp)
  | refreshes hpoint hclock hphase hdue hsource hengine =>
      exact InTouch.working (Or.inl rfl) (fun hp => by cases hp)
  | skips hpoint hclock hphase hdue hsource hengine =>
      exact InTouch.unfailed ht (fun hp => by cases hphase.symm.trans hp)

end Session

-- =========================================================== histories

/-- As long as engines and decoders only present frames, what is shown of a
failed session stays. -/
private theorem carried_admits (cfg : Settings) :
    Carried failureNote cfg (fun event => event.presents = true)
      (fun failure x e => x.Admits failure e) where
  fresh _ _ _ hoff := Session.InTouch.working (Or.inr hoff) (fun hp => by cases hp)
  wish _ _ _ h := ⟨h.touch, h.shown⟩
  write := by
    intro name engine k w failure x e hpresents hknows h
    cases w with
    | frame width height rgb =>
        obtain ⟨hplaying, hoverlay⟩ := Element.after_frame e k width height rgb
        refine ⟨?_, ?_⟩
        · rcases h.touch with hepoch | hoff
          · left
            rw [Element.epoch_after]
            exact hepoch
          · right
            rw [hoff.after_eq hknows]
            exact hoff
        · rw [hplaying, hoverlay, Element.epoch_after]
          exact h.shown
    | _ => cases hpresents
  step _ _ _ _ _ _ hlands _ h := h.step hlands

namespace History

/-- Why a build for a stream failed last, when some events are over. -/
def failure (h : History) (name : String) (events : List Event) : Option String :=
  h.latest failureNote name none events

/-- In every history in which engines and decoders only present frames,
apart from saying that they play when they are asked to, the element of a
session that rests failed does not play. It shows the message of the build
that failed just when the session is of its epoch. One that is not has
never pointed the element at a source, and the element shows nothing. -/
theorem failed_session_shows (settings : Settings) (supported : Bool) {events : List Event}
    (hevents : ∀ event ∈ events, event.presents = true) {name : String} {x : Session}
    (hx : ((opened settings supported).run events).players.sessions.get? name = some x)
    (hrest : x.point = .resting) (hfailed : x.phase = .failed) :
    (((opened settings supported).run events).players.element name).playing = false
      ∧ (∃ message, (opened settings supported).failure name events = some message
          ∧ ((((opened settings supported).run events).players.element name).overlay
                = .error message
              ↔ x.epoch = (((opened settings supported).run events).players.element name).epoch))
      ∧ (x.epoch ≠ (((opened settings supported).run events).players.element name).epoch →
          x.epoch = 0 ∧ (((opened settings supported).run events).players.element name).Off) := by
  have hsound := ((sound_run settings supported events).players name).session x hx
  have hadmits := (carried_admits settings).opened supported events hevents name x hx
  obtain ⟨hplaying, message, hmessage, hoverlay⟩ := hadmits.shown hrest hfailed
  refine ⟨hplaying, ⟨message, hmessage, fun hshown => ?_, hoverlay⟩, fun hne => ⟨?_, ?_⟩⟩
  · refine hadmits.touch.resolve_right fun hoff => ?_
    rw [hoff.overlay] at hshown
    cases hshown
  · exact hsound.epoch.resolve_right fun hon => hne hon.1
  · exact hadmits.touch.resolve_left hne

/-- A first start that finds no source, twice. -/
def noSource (now : Nat) : List Event :=
  [ .attach "yard",
    .activity (.signal "yard" ⟨.error "no source URL", .ok 2⟩ now .begins),
    .activity (.signal "yard" ⟨.error "no source URL", .ok 2⟩ (now + 1000) .pauseOver) ]

/-- A stream that has played and was torn down. -/
def playedBefore (url : Url) : List Event :=
  [ .attach "yard",
    .activity (.signal "yard" ⟨.ok url, .ok 1⟩ 0 .begins),
    .activity (.signal "yard" ⟨.ok url, .ok 1⟩ 0 (.attached (.ok ()))),
    .activity (.signal "yard" ⟨.ok url, .ok 1⟩ 0 (.played (.ok ()))),
    .teardown "yard" ]

/-- The first session of a stream that finds no source. -/
def sourceless : Session :=
  { point := .resting, phase := .failed, refreshAt := some 31000 }

theorem failed_session_shows_no_source :
    ((opened {} true).run (noSource 0)).players.sessions.get? "yard" = some sourceless
      ∧ (opened {} true).failure "yard" (noSource 0) = some "no source URL"
      ∧ (((opened {} true).run (noSource 0)).players.element "yard").overlay
          = .error "no source URL" := by
  have hevents : ∀ event ∈ noSource 0, event.presents = true := by
    simp [noSource, Event.presents, Activity.presents]
  have hsession : ((opened {} true).run (noSource 0)).players.sessions.get? "yard"
      = some sourceless := by decide
  have hnoted : (opened {} true).failure "yard" (noSource 0) = some "no source URL" := by decide
  obtain ⟨-, ⟨message, hmessage, hshown⟩, -⟩ :=
    failed_session_shows {} true hevents hsession rfl rfl
  rw [hnoted] at hmessage
  cases hmessage
  exact ⟨hsession, hnoted, hshown.2 (by decide)⟩

/-- When the same happens to a stream that has played before, its element
shows nothing: the new session writes for epoch nought, and the element is
two epochs on. -/
theorem failure_unseen :
    (((opened {} true).run (playedBefore default ++ noSource 10)).players.sessions.get?
        "yard").map (fun x => (x.point, x.phase)) = some (.resting, .failed)
      ∧ (opened {} true).failure "yard" (playedBefore default ++ noSource 10)
          = some "no source URL"
      ∧ (((opened {} true).run (playedBefore default ++ noSource 10)).players.element
          "yard").overlay = .none
      ∧ (((opened {} true).run (playedBefore default ++ noSource 10)).players.element
          "yard").status = "idle" := by
  decide

end History

end VideoWall.Player
