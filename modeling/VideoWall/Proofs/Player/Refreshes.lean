/-
What a refresh of the source changes on screen.

# The law

A refresh whose source is refused changes nothing on any element, and of
the session only the date of the next refresh.

A refresh that succeeds is not seen: until the engine plays, source and
epoch of the element are new, and what else changes are frames of the new
epoch. When the engine plays, it is muted as an autoplay is. So a refresh
is not heard either, unless the session came to play by the user's wish on
a device where an autoplay is muted: there the sound goes off
(`History.refresh_shows`, and `History.muted_by_refresh` for a run of it).

# Why it holds

While a session waits for its engine nothing but frames comes to its
element (`History.stays_run`), and three steps make a refresh: they are
evaluated. How an element sounds is known from what its engine was told to
play for when it last did (`Session.Sounds`), which every step keeps.
-/
import VideoWall.Proofs.Player.AtRest
import VideoWall.Proofs.Player.RefreshClock

namespace VideoWall.Media.Element

-- ========================================================== the element

/-- The last frame stays until there is one of the epoch `k`. -/
def KeepsFrame (k : Nat) (e e' : Element) : Prop :=
  (e'.frame = e.frame ∧ e'.frameSeq = e.frameSeq)
    ∨ (e.frameSeq < e'.frameSeq ∧ ∃ f, e'.frame = some f ∧ f.epoch = k)

/-- An element that is left alone, but for frames of its epoch. -/
structure Keeps (e e' : Element) : Prop where
  source : e'.source = e.source
  epoch : e'.epoch = e.epoch
  playing : e'.playing = e.playing
  muted : e'.muted = e.muted
  overlay : e'.overlay = e.overlay
  status : e'.status = e.status
  frame : KeepsFrame e.epoch e e'

/-- An element whose source has been re-issued. -/
structure Reissued (url : Url) (e e' : Element) : Prop where
  source : e'.source = some url
  epoch : e'.epoch = e.epoch + 1
  playing : e'.playing = e.playing
  overlay : e'.overlay = e.overlay
  status : e'.status = e.status
  frame : KeepsFrame (e.epoch + 1) e e'

variable {e e' e'' : Element} {url : Url}

theorem KeepsFrame.refl (k : Nat) (e : Element) : KeepsFrame k e e := Or.inl ⟨rfl, rfl⟩

theorem KeepsFrame.trans {k : Nat} (h : KeepsFrame k e e') (h' : KeepsFrame k e' e'') :
    KeepsFrame k e e'' := by
  rcases h' with ⟨hframe, hseq⟩ | ⟨hlater, hframe⟩
  · unfold KeepsFrame
    rw [hframe, hseq]
    exact h
  · rcases h with ⟨-, hseq⟩ | ⟨hfirst, -⟩
    · exact Or.inr ⟨by omega, hframe⟩
    · exact Or.inr ⟨by omega, hframe⟩

theorem Keeps.refl (e : Element) : e.Keeps e :=
  ⟨rfl, rfl, rfl, rfl, rfl, rfl, .refl _ e⟩

theorem Keeps.trans (h : e.Keeps e') (h' : e'.Keeps e'') : e.Keeps e'' := by
  refine ⟨h'.source.trans h.source, h'.epoch.trans h.epoch, h'.playing.trans h.playing,
    h'.muted.trans h.muted, h'.overlay.trans h.overlay, h'.status.trans h.status, ?_⟩
  have hframe := h'.frame
  rw [h.epoch] at hframe
  exact h.frame.trans hframe

/-- A frame is taken for the present epoch, and changes nothing else. -/
theorem keeps_frame (e : Element) (k width height : Nat) (rgb : Array UInt8) :
    e.Keeps (e.after k (.frame width height rgb)) := by
  unfold after write
  split
  · refine ⟨rfl, rfl, rfl, rfl, rfl, rfl, Or.inr ⟨Nat.lt_succ_self _, _, rfl, rfl⟩⟩
  · exact .refl e

/-- A refreshed source is issued again. -/
private theorem reissued_refreshSource (e : Element) (url : Url) :
    e.Reissued url (e.refreshSource url) :=
  ⟨rfl, rfl, rfl, rfl, rfl, .refl _ e⟩

theorem Reissued.keeps (h : e.Reissued url e') (h' : e'.Keeps e'') : e.Reissued url e'' := by
  refine ⟨h'.source.trans h.source, h'.epoch.trans h.epoch, h'.playing.trans h.playing,
    h'.overlay.trans h.overlay, h'.status.trans h.status, ?_⟩
  have hframe := h'.frame
  rw [h.epoch] at hframe
  exact h.frame.trans hframe

/-- An engine that says again that it plays is not seen. -/
private theorem Reissued.plays (h : e.Reissued url e') (hplaying : e.playing = true)
    (hoverlay : e.overlay = .none) (hstatus : e.status = "playing") (muted : Bool) :
    e.Reissued url (e'.apply (.playing muted)) :=
  ⟨h.source, h.epoch, hplaying.symm, hoverlay.symm, hstatus.symm, h.frame⟩

end VideoWall.Media.Element

namespace VideoWall.Player

open Media

-- ============================================================== the sound

/-- Whether an engine is told to play because the user wishes it. -/
def Attempt.isWish : Attempt → Bool
  | .resume | .userPlay => true
  | _ => false

/-- Whether an engine is told to play muted. -/
def Attempt.muted (cfg : Settings) (why : Attempt) : Bool :=
  if why.isWish then false else cfg.autoplayMuted

/-- Notes what an engine that plays was told to play for. -/
def attemptNote : Note Attempt := fun x signal _ =>
  match x.point, signal with
  | .starting why _, .played (.ok _) => some why
  | _, _ => none

/-- Where a session that plays may be: at rest, or on the way through a
refresh. -/
def Point.mayPlay : Point → Bool
  | .resting | .refreshing | .starting .refresh _ => true
  | _ => false

namespace Session

/-- What a session that plays and its element say of how it sounds. -/
structure Sounds (cfg : Settings) (last : Option Attempt) (x : Session) (e : Element) : Prop where
  place : x.phase = .playing → x.point.mayPlay = true
  shown : x.phase = .playing →
    e.status = "playing" ∧ ∃ why, last = some why ∧ e.muted = why.muted cfg
  told : ∀ why muted, x.point = .starting why muted → muted = why.muted cfg

variable {cfg : Settings} {supply : Supply} {now : Nat} {signal : Signal}
variable {x : Session} {e : Element} {m : Move} {last : Option Attempt}

/-- A session that neither plays nor tells an engine to play. -/
theorem sounds_of_silent (hphase : x.phase ≠ .playing)
    (hpoint : ∀ why muted, x.point ≠ .starting why muted) : x.Sounds cfg last e :=
  ⟨fun hp => absurd hp hphase, fun hp => absurd hp hphase,
    fun why muted hp => absurd hp (hpoint why muted)⟩

end Session

namespace Move

variable {m : Move} {cfg : Settings} {supply : Supply} {now : Nat} {last : Option Attempt}

theorem sounds_fail (m : Move) (message : String) :
    (m.fail cfg now message).session.Sounds cfg last (m.fail cfg now message).element :=
  Session.sounds_of_silent (fun hp => by cases hp) (fun _ _ hp => by cases hp)

private theorem sounds_awaitUser (m : Move) :
    (m.awaitUser cfg now).session.Sounds cfg last (m.awaitUser cfg now).element :=
  Session.sounds_of_silent (fun hp => by cases hp) (fun _ _ hp => by cases hp)

private theorem sounds_recover (m : Move) (message : String) :
    (m.recover cfg now message).session.Sounds cfg last (m.recover cfg now message).element := by
  refine Session.sounds_of_silent ?_ (fun _ _ hp => by cases hp)
  rw [phase_recover]
  simp

private theorem sounds_buildFailed (m : Move) (message : String) (why : Purpose)
    (hphase : m.session.phase ≠ .playing) :
    (m.buildFailed cfg now message why).session.Sounds cfg last
      (m.buildFailed cfg now message why).element := by
  unfold buildFailed
  split
  · exact Session.sounds_of_silent hphase (fun _ _ hp => by cases hp)
  · exact sounds_fail m message

private theorem sounds_build (m : Move) (why : Purpose) (hphase : m.session.phase ≠ .playing) :
    (m.build cfg supply now why).session.Sounds cfg last (m.build cfg supply now why).element := by
  obtain ⟨source, created⟩ := supply
  have hkept : m.dispose.session.phase ≠ .playing := by
    rw [phase_dispose]
    exact hphase
  cases source with
  | error message => exact sounds_buildFailed (m.dispose.call _) message why hkept
  | ok url =>
      cases created with
      | error message => exact sounds_buildFailed ((m.dispose.call _).call _) message why hkept
      | ok engine => exact Session.sounds_of_silent hkept (fun _ _ hp => by cases hp)

end Move

namespace Session

variable {cfg : Settings} {supply : Supply} {now : Nat} {signal : Signal}
variable {x : Session} {e : Element} {m : Move} {last : Option Attempt}

/-- What is not the word of an engine that plays is not noted. -/
private theorem attemptNote_none (h : ∀ outcome, signal ≠ .played (.ok outcome)) (calls : List Call)
    : (attemptNote x signal calls).or last = last := by
  unfold attemptNote
  split
  · exact absurd rfl (h _)
  · rfl

/-- Every step keeps what is known of the sound. -/
theorem Sounds.step (h : x.Sounds cfg last e) (hx : x.Sound e)
    (hlands : x.Lands cfg supply now e signal m) :
    m.session.Sounds cfg ((attemptNote x signal m.calls).or last) m.element := by
  -- a session that builds or pauses does not play
  have hsilent : x.point.mayPlay = false → x.phase ≠ .playing := by
    intro hpoint hphase
    rw [h.place hphase] at hpoint
    cases hpoint
  cases hlands with
  | begins hpoint => exact Move.sounds_build _ _ (by simp)
  | @told why engine hpoint hplay =>
      have hphase := hsilent (by simp [hpoint, Point.mayPlay])
      refine ⟨fun hp => absurd hp hphase, fun hp => absurd hp hphase, fun attempt muted hp => ?_⟩
      cases hp
      cases why with
      | firstStart | secondStart | userPlay | recovery => rfl
  | offered hpoint hwhy hplay => exact Move.sounds_awaitUser _
  | postponed message hpoint =>
      have hphase := hsilent (by simp [hpoint, Point.mayPlay])
      exact sounds_of_silent hphase (fun _ _ hp => by cases hp)
  | refused message hpoint hwhy => exact Move.sounds_fail _ message
  | pauseOver why hpoint hdue =>
      exact Move.sounds_build _ _ (hsilent (by simp [hpoint, Point.mayPlay]))
  | @reissued engine hpoint hengine hphase =>
      rw [attemptNote_none (by simp)]
      refine ⟨fun _ => rfl, h.shown, fun attempt muted hp => ?_⟩
      cases hp
      rfl
  | outdated message hpoint hengine => exact Move.sounds_recover _ message
  | @plays why muted hpoint hengine =>
      have htaken : e.after x.epoch (.playing muted) = e.apply (.playing muted) :=
        Element.after_of_eq (hx.engine hengine).1.symm (fun _ _ _ => by simp)
      have hnoted : ∀ calls, attemptNote x (.played (.ok ())) calls = some why := by
        intro calls
        unfold attemptNote
        rw [hpoint]
      rw [hnoted]
      refine ⟨fun _ => rfl, fun _ => ?_, fun _ _ hp => by cases hp⟩
      show (e.after x.epoch (.playing muted)).status = "playing"
        ∧ ∃ attempt, some why = some attempt
          ∧ (e.after x.epoch (.playing muted)).muted = attempt.muted cfg
      rw [htaken]
      exact ⟨rfl, why, rfl, h.told why muted hpoint⟩
  | declined message hpoint => exact Move.sounds_build _ _ (by simp)
  | lapsed message hpoint hengine => exact Move.sounds_recover _ message
  | balks message hpoint hwhy hengine => exact Move.sounds_awaitUser _
  | goesOn hpoint hwishes hphase hengine =>
      rw [attemptNote_none (by simp)]
      exact ⟨fun _ => rfl, h.shown, fun _ _ hp => by cases hp⟩
  | resumes hpoint hwishes hphase hengine =>
      have hawaits : x.heard.phase ≠ .playing := by
        rw [show x.heard.phase = x.phase from rfl, hphase]
        simp
      refine ⟨fun hp => absurd hp hawaits, fun hp => absurd hp hawaits, fun attempt muted hp => ?_⟩
      cases hp
      rfl
  | rebuilds hpoint hwishes hphase => exact Move.sounds_build _ _ (by simp)
  | fatal message hpoint hphase hengine => exact Move.sounds_recover _ message
  | refreshes hpoint hclock hphase hdue hsource hengine =>
      rw [attemptNote_none (by simp)]
      exact ⟨fun _ => rfl, h.shown, fun _ _ hp => by cases hp⟩
  | skips hpoint hclock hphase hdue hsource hengine =>
      rw [attemptNote_none (by simp)]
      exact ⟨fun _ => rfl, h.shown, fun _ _ hp => by cases hp⟩

end Session

/-- As long as engines and decoders only present frames, what is known of the
sound is carried along. -/
private theorem carried_sounds (cfg : Settings) :
    Carried attemptNote cfg (fun event => event.presents = true)
      (fun last x e => x.Sounds cfg last e) where
  fresh _ _ _ _ := Session.sounds_of_silent (fun hp => by cases hp) (fun _ _ hp => by cases hp)
  wish _ _ _ h := ⟨h.place, h.shown, h.told⟩
  write := by
    intro name engine k w last x e hpresents _ h
    cases w with
    | frame width height rgb =>
        have hkeeps := e.keeps_frame k width height rgb
        refine ⟨h.place, fun hp => ?_, h.told⟩
        rw [hkeeps.status, hkeeps.muted]
        exact h.shown hp
    | _ => cases hpresents
  step _ _ _ _ _ hx hlands _ h := h.step hx hlands

-- ============================================================== waiting

/-- Whether a signal is the answer of an engine. -/
def Signal.answers : Signal → Bool
  | .attached _ | .played _ => true
  | _ => false

/-- What may happen while the session of a stream waits for its engine: the
session is not taken off, and the engine has not answered yet. -/
def Event.leaves (name : String) : Event → Bool
  | .replace n | .teardown n => n != name
  | .teardownAll => false
  | .activity (.signal n _ _ signal) => n != name || !signal.answers
  | .activity a => a.presents
  | _ => true

/-- The clock can tell when a refresh follows on one that is made now. -/
def Session.HasNext (cfg : Settings) (now : Nat) (x : Session) : Prop :=
  ∀ due, x.refreshAt = some due → (x.dated cfg now due).InTime

/-- A session that waits for its engine on the way to rest. -/
def Session.Waits (x : Session) : Prop :=
  x.point = .refreshing ∨ ∃ why muted, x.point = .starting why muted

namespace Session.Waits

variable {x : Session} {cfg : Settings} {supply : Supply} {now : Nat} {signal : Signal}
variable {e : Element}

/-- A session that waits is running. -/
private theorem isRunning (h : x.Waits) : x.isRunning = true := by
  unfold Session.isRunning
  rcases h with hp | ⟨why, muted, hp⟩
  · simp [hp]
  · simp [hp]

/-- A session that waits takes no step on its own. -/
private theorem step?_eq_none (h : x.Waits) (hsignal : signal.answers = false) :
    x.step? cfg supply now signal e = none := by
  unfold Session.step?
  rcases h with hp | ⟨why, muted, hp⟩
  · rw [hp]
    cases signal with
    | attached | played => cases hsignal
    | begins | pauseOver | wish | fatal | refreshDue => rfl
  · rw [hp]
    cases signal with
    | attached | played => cases hsignal
    | begins | pauseOver | wish | fatal | refreshDue => rfl

end Session.Waits

namespace History

variable {h : History} {name : String} {x : Session} {event : Event}

/-- The session of a stream stays where it is, and its element is left alone
but for frames. -/
structure Stays (h h' : History) (name : String) (x : Session) : Prop where
  session : ∃ wishes, h'.players.sessions.get? name = some { x with wishes }
  element : (h.players.element name).Keeps (h'.players.element name)

/-- What leaves a stream alone leaves its waiting session there. -/
theorem stays_of_agrees {h' : History} (hx : h.players.sessions.get? name = some x)
    (ha : Registry.Agrees h.players h'.players name) : h.Stays h' name x := by
  refine ⟨⟨x.wishes, ha.session.trans hx⟩, ?_⟩
  rw [ha.element]
  exact .refl _

/-- Nothing that leaves the session alone does more than wish and present. -/
theorem stays_after (hx : h.players.sessions.get? name = some x) (hwaits : x.Waits)
    (hleaves : event.leaves name = true) : h.Stays (h.after event) name x := by
  have hruns : h.players.isAttached name = true := Registry.isAttached_of_get? hx hwaits.isRunning
  cases event with
  | attach other =>
      exact stays_of_agrees hx (Registry.agrees_attach_of_attached hruns other)
  | replace other =>
      exact stays_of_agrees hx (Registry.agrees_replace (bne_iff_ne.1 hleaves).symm)
  | teardown other =>
      exact stays_of_agrees hx (Registry.agrees_teardown (bne_iff_ne.1 hleaves).symm)
  | teardownAll => cases hleaves
  | requestPlay other =>
      by_cases ho : name = other
      · subst ho
        -- a wish is noted with the session, which does not look at it before it rests
        refine ⟨⟨x.wishes + 1, ?_⟩, ?_⟩
        · show (h.players.requestPlay name).sessions.get? name = _
          rw [Registry.requestPlay_of_attached hruns]
          dsimp only
          rw [ByName.get?_modify, if_pos rfl, hx]
          rfl
        · show (h.players.element name).Keeps ((h.players.requestPlay name).element name)
          rw [Registry.requestPlay_of_attached hruns]
          exact .refl _
      · exact stays_of_agrees hx (Registry.agrees_requestPlay ho)
  | activity a =>
      have hshape := h.acts a
      show h.Stays (h.act a) name x
      generalize h.act a = h' at hshape
      cases hshape with
      | nothing => exact stays_of_agrees hx (.refl _ _)
      | @steps other supply now signal players calls hstep =>
          by_cases ho : name = other
          · subst ho
            -- a session that waits heeds answers alone
            have hsignal : signal.answers = false := by
              simpa [Event.leaves] using hleaves
            rw [Registry.step?_of_none hx (hwaits.step?_eq_none hsignal)] at hstep
            cases hstep
          · exact stays_of_agrees hx (Registry.agrees_step hstep ho)
      | @writes other engine k w hattached =>
          cases w with
          | frame width height rgb =>
              have hkept : h.players.Holds name fun _ e => (h.players.element name).Keeps e :=
                fun _ _ => .refl _
              refine ⟨⟨x.wishes, hx⟩, ?_⟩
              refine Registry.Holds.write hkept (fun _ _ hkeeps => ?_) x hx
              exact hkeeps.trans (Element.keeps_frame _ _ _ _ _)
          | _ => cases hleaves
      | wakes supply now i signal stream y => exact stays_of_agrees hx ⟨rfl, rfl, rfl⟩

/-- While a session waits for its engine, only frames come to its element. -/
theorem stays_run (hx : h.players.sessions.get? name = some x) (hwaits : x.Waits)
    {events : List Event} (hleaves : ∀ event ∈ events, event.leaves name = true) :
    h.Stays (h.run events) name x := by
  induction events generalizing h x with
  | nil => exact stays_of_agrees hx (.refl _ _)
  | cons event later ih =>
      obtain ⟨⟨wishes, hfirst⟩, hkeeps⟩ :=
        stays_after hx hwaits (hleaves event List.mem_cons_self)
      obtain ⟨⟨wishes', hrest⟩, hkeeps'⟩ :=
        ih hfirst hwaits fun e he => hleaves e (List.mem_cons_of_mem event he)
      exact ⟨⟨wishes', hrest⟩, hkeeps.trans hkeeps'⟩

-- ============================================================= refreshes

/-- A signal that the session of a stream waits for. -/
theorem after_signal {supply : Supply} {now : Nat} {signal : Signal} {m : Move}
    (hx : h.players.sessions.get? name = some x)
    (hm : x.step? h.players.settings supply now signal (h.players.element name) = some m)
    (htime : m.session.InTime) :
    let h' := h.after (.activity (.signal name supply now signal))
    h'.players.sessions.get? name = some m.session ∧ h'.players.element name = m.element
      ∧ (∀ other, other ≠ name → h'.players.element other = h.players.element other)
      ∧ h'.calls = h.calls ++ m.calls.map fun call => (name, call) := by
  have hstep := Registry.step?_of_some hx hm htime
  have hafter : h.after (.activity (.signal name supply now signal))
      = ⟨{ h.players with
            sessions := h.players.sessions.set name m.session
            elements := h.players.elements.set name m.element },
          h.calls ++ m.calls.map fun call => (name, call)⟩ := by
    unfold after act
    dsimp only
    rw [hstep]
  dsimp only
  rw [hafter]
  refine ⟨ByName.get?_set_self _ _ _, ?_, fun other ho => ?_, rfl⟩
  · unfold Registry.element
    dsimp only
    rw [ByName.get?_set_self]
    rfl
  · exact (Registry.agrees_step hstep ho).element

/-- A refresh that succeeds: there is a source when it is due, and in the
end the engine attaches and plays; and what happens meanwhile. -/
structure Refresh where
  url : Url
  created : Except String EngineId
  now : Nat
  waiting : List Event
  attached : Supply × Nat
  starting : List Event
  played : Supply × Nat

/-- Meanwhile the session is left alone. -/
def Refresh.undisturbed (name : String) (r : Refresh) : Prop :=
  (∀ event ∈ r.waiting, event.leaves name = true) ∧ ∀ event ∈ r.starting, event.leaves name = true

/-- The engine is being attached. -/
def reissuing (h : History) (name : String) (r : Refresh) : History :=
  (h.after (.activity (.signal name ⟨.ok r.url, r.created⟩ r.now .refreshDue))).run r.waiting

/-- The engine is being told to play. -/
def restarting (h : History) (name : String) (r : Refresh) : History :=
  ((h.reissuing name r).after
    (.activity (.signal name r.attached.1 r.attached.2 (.attached (.ok ()))))).run r.starting

/-- The engine plays. -/
def refreshed (h : History) (name : String) (r : Refresh) : History :=
  (h.restarting name r).after (.activity (.signal name r.played.1 r.played.2 (.played (.ok ()))))

/-- A session at rest that plays, and whose refresh is due. -/
structure IsDue (h : History) (name : String) (x : Session) (now : Nat) : Prop where
  session : h.players.sessions.get? name = some x
  resting : x.point = .resting
  playing : x.phase = .playing
  due : ∃ due, x.refreshAt = some due ∧ due ≤ now

/-- When a refresh is due, it is made. -/
theorem IsDue.step? {now : Nat} (h' : h.IsDue name x now) (supply : Supply) :
    ∃ due, x.refreshAt = some due
      ∧ x.step? h.players.settings supply now .refreshDue (h.players.element name)
        = some (Move.refresh h.players.settings supply now
            ⟨x.dated h.players.settings now due, h.players.element name, []⟩) := by
  obtain ⟨-, hrest, hphase, due, hclock, hdue⟩ := h'
  refine ⟨due, hclock, ?_⟩
  unfold Session.step?
  rw [hrest]
  dsimp only
  rw [hclock]
  exact if_pos ⟨hphase, hdue⟩

/-- A refresh for which there is no source changes no element, calls upon no
engine, and is put off by the session. -/
structure PutOff (h h' : History) (name : String) (x : Session) (message : String) : Prop where
  element : ∀ other, h'.players.element other = h.players.element other
  calls : h'.calls = h.calls ++ [(name, .source (.error message))]
  session : ∃ next, h'.players.sessions.get? name
    = some { x with refreshAt := some next, restarts := false }

/-- A refresh that meets an error is put off to the next tick. -/
private theorem IsDue.putOff {now : Nat} (h' : h.IsDue name x now) (hclocked : x.Clocked)
    (hnext : x.HasNext h.players.settings now) (message : String)
    (created : Except String EngineId) :
    h.PutOff (h.after (.activity (.signal name ⟨.error message, created⟩ now .refreshDue))) name x
      message := by
  obtain ⟨due, hclock, hm⟩ := h'.step? ⟨.error message, created⟩
  have hrest : (Move.refresh h.players.settings ⟨.error message, created⟩ now
      ⟨x.dated h.players.settings now due, h.players.element name, []⟩).session
      = { x.dated h.players.settings now due with point := .resting } :=
    Session.Clocked.rest (m := ⟨x.dated h.players.settings now due, h.players.element name,
      [.source (.error message)]⟩) ⟨rfl, hclocked.kept, hnext due hclock⟩
  have htime : (Move.refresh h.players.settings ⟨.error message, created⟩ now
      ⟨x.dated h.players.settings now due, h.players.element name, []⟩).session.InTime := by
    rw [hrest]
    exact hnext due hclock
  obtain ⟨hsession, helement, hothers, hcalls⟩ := after_signal h'.session hm htime
  refine ⟨fun other => ?_, hcalls, nextRefresh h.players.settings due now, ?_⟩
  · by_cases ho : other = name
    · subst ho
      exact helement
    · exact hothers other ho
  · rw [hsession, hrest, Session.dated, ← h'.resting, ← hclocked.kept]

/-- A session that has come to the end of the clock is no more, and it has made
no call and changed no element. -/
structure Crashed (h h' : History) (name : String) : Prop where
  session : h'.players.sessions.get? name = none
  ended : h'.players.ended.get? name = some .playing
  element : ∀ other, h'.players.element other = h.players.element other
  calls : h'.calls = h.calls

/-- A refresh after which the clock has no date left is not made. -/
private theorem IsDue.crashed {now : Nat} (h' : h.IsDue name x now) (hclocked : x.Clocked)
    (hnext : ¬ x.HasNext h.players.settings now) (supply : Supply) :
    h.Crashed (h.after (.activity (.signal name supply now .refreshDue))) name := by
  obtain ⟨due, hclock, hm⟩ := h'.step? supply
  have hlate : ¬ (x.dated h.players.settings now due).InTime := by
    intro htime
    refine hnext fun due' hclock' => ?_
    rw [hclock] at hclock'
    cases hclock'
    exact htime
  have hset : (Move.refresh h.players.settings supply now
      ⟨x.dated h.players.settings now due, h.players.element name, []⟩).session.refreshAt
      = (x.dated h.players.settings now due).refreshAt := by
    unfold Move.refresh
    dsimp only
    split
    · rfl
    · exact if_neg (by simp [Session.dated, hclocked.kept, Move.call])
  have hstep := Registry.step?_of_crash h'.session hm (by rw [Session.InTime, hset]; exact hlate)
  unfold after act
  dsimp only
  rw [hstep]
  refine ⟨ByName.get?_erase_self _ _, ?_, fun other => ?_, List.append_nil _⟩
  · dsimp only
    rw [ByName.get?_set_self]
    exact congrArg some h'.playing
  · by_cases ho : other = name
    · subst ho
      unfold Registry.element
      dsimp only
      rw [ByName.get?_set_self]
      rfl
    · exact (Registry.agrees_step hstep ho).element

/-- When there is a source, it is issued to the engine in hand. -/
private theorem IsDue.issued {now : Nat} (h' : h.IsDue name x now) (hclocked : x.Clocked)
    (hnext : x.HasNext h.players.settings now) (hengine : x.engine.isSome = true) (url : Url)
    (created : Except String EngineId) :
    ∃ y, (h.after (.activity (.signal name ⟨.ok url, created⟩ now
          .refreshDue))).players.sessions.get? name = some y
      ∧ y.Clocked ∧ y.point = .refreshing ∧ y.phase = .playing ∧ y.engine.isSome = true
      ∧ y.epoch = (h.players.element name).epoch + 1
      ∧ (h.after (.activity (.signal name ⟨.ok url, created⟩ now .refreshDue))).players.element
          name = (h.players.element name).refreshSource url := by
  obtain ⟨engine, hengine⟩ := Option.isSome_iff_exists.1 hengine
  obtain ⟨due, hclock, hm⟩ := h'.step? ⟨.ok url, created⟩
  have htime : (x.dated h.players.settings now due).Clocked :=
    ⟨rfl, hclocked.kept, hnext due hclock⟩
  unfold Move.refresh Session.dated at hm
  dsimp only at hm
  rw [hengine] at hm
  obtain ⟨hsession, helement, -, -⟩ := after_signal h'.session hm htime.inTime
  exact ⟨_, hsession, ⟨htime.isSet, htime.kept, htime.inTime⟩, rfl, h'.playing, rfl, rfl, helement⟩

/-- An engine that has attached for a refresh is told to play as for an
autoplay. -/
private theorem after_attached (hx : h.players.sessions.get? name = some x)
    (htime : x.InTime) (hpoint : x.point = .refreshing) (hengine : x.engine.isSome = true)
    (supply : Supply) (now : Nat) :
    (h.after (.activity (.signal name supply now (.attached (.ok ()))))).players.sessions.get? name
        = some { x with point := .starting .refresh h.players.settings.autoplayMuted }
      ∧ (h.after (.activity (.signal name supply now (.attached (.ok ()))))).players.element name
        = h.players.element name := by
  obtain ⟨engine, hengine⟩ := Option.isSome_iff_exists.1 hengine
  have hm : x.step? h.players.settings supply now (.attached (.ok ())) (h.players.element name)
      = some (((⟨x, h.players.element name, []⟩ : Move).call
          (.play engine h.players.settings.autoplayMuted)).goto
            (.starting .refresh h.players.settings.autoplayMuted)) := by
    unfold Session.step?
    rw [hpoint]
    dsimp only
    rw [Move.start_of_held hengine]
  obtain ⟨hsession, helement, -, -⟩ := after_signal hx hm htime
  exact ⟨hsession, helement⟩

/-- An engine that plays for a refresh says so, and the session is at rest
again. -/
private theorem after_played (hx : h.players.sessions.get? name = some x) (hclocked : x.Clocked)
    {muted : Bool} (hpoint : x.point = .starting .refresh muted)
    (hepoch : x.epoch = (h.players.element name).epoch)
    (supply : Supply) (now : Nat) :
    (∃ y, (h.after (.activity (.signal name supply now (.played (.ok ()))))).players.sessions.get?
          name = some y ∧ y.point = .resting ∧ y.phase = x.phase)
      ∧ (h.after (.activity (.signal name supply now (.played (.ok ()))))).players.element name
        = (h.players.element name).apply (.playing muted) := by
  have htaken : (h.players.element name).after x.epoch (.playing muted)
      = (h.players.element name).apply (.playing muted) :=
    Element.after_of_eq hepoch.symm (fun _ _ _ => by simp)
  have hm : x.step? h.players.settings supply now (.played (.ok ())) (h.players.element name)
      = some (((⟨x, h.players.element name, []⟩ : Move).write (.playing muted)).rest
          h.players.settings now) := by
    unfold Session.step?
    rw [hpoint]
    rfl
  have hrest : (((⟨x, h.players.element name, []⟩ : Move).write (.playing muted)).rest
      h.players.settings now).session = { x with point := .resting } :=
    Session.Clocked.rest hclocked
  obtain ⟨hsession, helement, -, -⟩ := after_signal hx hm (by rw [hrest]; exact hclocked.inTime)
  refine ⟨⟨_, hsession, rfl, rfl⟩, ?_⟩
  rw [helement, ← htaken]
  rfl

/-- What can be seen and heard while a refresh succeeds and when it has. -/
structure Unseen (h : History) (name : String) (r : Refresh) (muted : Bool) : Prop where
  reissuing : (h.players.element name).Reissued r.url ((h.reissuing name r).players.element name)
    ∧ ((h.reissuing name r).players.element name).muted = (h.players.element name).muted
  restarting : (h.players.element name).Reissued r.url ((h.restarting name r).players.element name)
    ∧ ((h.restarting name r).players.element name).muted = (h.players.element name).muted
  refreshed : (h.players.element name).Reissued r.url ((h.refreshed name r).players.element name)
    ∧ ((h.refreshed name r).players.element name).muted = muted
  rests : ∃ y, (h.refreshed name r).players.sessions.get? name = some y ∧ y.point = .resting
    ∧ y.phase = .playing

/-- Step by step: the source is issued, the engine attaches, and it plays,
muted as for an autoplay. -/
private theorem IsDue.unseen {r : Refresh} (h' : h.IsDue name x r.now) (hclocked : x.Clocked)
    (hnext : x.HasNext h.players.settings r.now) (hr : r.undisturbed name)
    (hengine : x.engine.isSome = true) (hplaying : (h.players.element name).playing = true)
    (hoverlay : (h.players.element name).overlay = .none)
    (hstatus : (h.players.element name).status = "playing") :
    h.Unseen name r h.players.settings.autoplayMuted := by
  obtain ⟨y, hy, hticks, hpoint, hphase, hheld, hepoch, hissued⟩ :=
    h'.issued hclocked hnext hengine r.url r.created
  -- the engine is being attached
  obtain ⟨⟨wishes, hwaits⟩, hkept⟩ := stays_run hy (Or.inl hpoint) hr.1
  rw [hissued] at hkept
  have hreissuing := (Element.reissued_refreshSource (h.players.element name) r.url).keeps hkept
  have hsettings : (h.reissuing name r).players.settings = h.players.settings := by
    unfold reissuing
    rw [settings_run, settings_after]
  -- it is being told to play
  obtain ⟨htold, hsame⟩ := after_attached (h := h.reissuing name r) hwaits hticks.inTime hpoint
    hheld r.attached.1 r.attached.2
  obtain ⟨⟨wishes', hstarts⟩, hkept'⟩ := stays_run htold (Or.inr ⟨_, _, rfl⟩) hr.2
  rw [hsame] at hkept'
  have hrestarting := hreissuing.keeps hkept'
  -- it plays
  obtain ⟨hrests, hplays⟩ := after_played (h := h.restarting name r) hstarts
    ⟨hticks.isSet, hticks.kept, hticks.inTime⟩ rfl (hepoch.trans hrestarting.epoch.symm)
    r.played.1 r.played.2
  rw [hsettings] at hplays
  refine ⟨⟨hreissuing, hkept.muted⟩, ⟨hrestarting, hkept'.muted.trans hkept.muted⟩, ?_, ?_⟩
  · unfold refreshed
    rw [hplays]
    exact ⟨hrestarting.plays hplaying hoverlay hstatus _, rfl⟩
  · obtain ⟨z, hz, hresting, hsame⟩ := hrests
    exact ⟨z, hz, hresting, hsame.trans hphase⟩

/-- What the engine of a stream that plays was told to play for, when some
events are over. -/
def playedFor (h : History) (name : String) (events : List Event) : Option Attempt :=
  h.latest attemptNote name none events

/-- In every history in which engines and decoders only present frames,
apart from saying that they play when they are asked to, a refresh of a
session that rests and plays is not seen. If the source is refused, every
element stays as it is, and the session only puts the refresh off. If it
succeeds, source and epoch are new and else only frames change, and the
session rests and plays again; but it is muted then as an autoplay is, and
so it sounds as before unless it had come to play by the user's wish while
an autoplay is muted. At the end of the clock, where no date is left for the
refresh after that, the session crashes and nothing is seen of that either. -/
theorem refresh_shows (settings : Settings) (supported : Bool) {before : List Event}
    (hbefore : ∀ event ∈ before, event.presents = true) (h : History)
    (hrun : h = (opened settings supported).run before) {name : String} {x : Session} {now : Nat}
    (hdue : h.IsDue name x now) :
    (x.HasNext settings now →
      (∀ message created,
        h.PutOff (h.after (.activity (.signal name ⟨.error message, created⟩ now .refreshDue))) name
          x message)
      ∧ ∃ why, (opened settings supported).playedFor name before = some why
        ∧ (h.players.element name).muted = why.muted settings
        ∧ ∀ r : Refresh, r.now = now → r.undisturbed name →
            h.Unseen name r settings.autoplayMuted
            ∧ (((h.refreshed name r).players.element name).muted = (h.players.element name).muted
                ↔ (settings.touchCapable = true → why.isWish = false)))
    ∧ (¬ x.HasNext settings now → ∀ supply,
        h.Crashed (h.after (.activity (.signal name supply now .refreshDue))) name) := by
  have hsettings : h.players.settings = settings := by
    rw [hrun, settings_run]
    rfl
  -- four facts that hold of every session in a history, and then the refresh alone
  have hself : x.Sound (h.players.element name) := by
    rw [hrun] at hdue ⊢
    exact ((sound_run settings supported before).players name).session x hdue.session
  have hshown : x.Shown (h.players.element name) := by
    rw [hrun] at hdue ⊢
    exact (((accords_opened settings supported).run (sound_opened settings supported)
      hbefore) name).shown x hdue.session
  have hsounds : x.Sounds settings ((opened settings supported).playedFor name before)
      (h.players.element name) := by
    rw [hrun] at hdue ⊢
    exact (carried_sounds settings).opened supported before hbefore name x hdue.session
  have hclocked : x.Clocked := by
    rw [hrun] at hdue
    exact clocked_run settings supported before hdue.session hdue.resting
  obtain ⟨hstatus, why, hwhy, hmuted⟩ := hsounds.shown hdue.playing
  have hscreen := hshown hdue.resting
  rw [hdue.playing] at hscreen
  have hengine : x.engine.isSome = true := by
    have hplaced := hself.placed
    rw [Session.Placed, hdue.resting, hdue.playing] at hplaced
    simpa using hplaced
  subst hsettings
  refine ⟨fun hnext => ⟨fun message created => hdue.putOff hclocked hnext message created, why,
    hwhy, hmuted, fun r hnow hr => ?_⟩, fun hnext supply => hdue.crashed hclocked hnext supply⟩
  subst hnow
  have hunseen := hdue.unseen hclocked hnext hr hengine hscreen.1 hscreen.2 hstatus
  refine ⟨hunseen, ?_⟩
  rw [hunseen.refreshed.2, hmuted]
  unfold Attempt.muted Settings.autoplayMuted
  cases h.players.settings.touchCapable with
  | false => simp
  | true => cases why.isWish <;> simp

/-- A stream that plays and shows a frame. -/
def gateShown : History := (opened {} true).run (firstFrame default)

/-- A refresh of it. The user wishes to play while the engine attaches, and
the new epoch presents a frame before the engine says that it plays. -/
def gateRefresh : Refresh where
  url := default
  created := .error "no engine is asked for"
  now := 30020
  waiting := [.requestPlay "gate"]
  attached := (⟨.ok default, .ok 8⟩, 30040)
  starting := [.activity (.write "gate" 7 2 (.frame 1 1 #[255, 255, 255]))]
  played := (⟨.ok default, .ok 8⟩, 30060)

theorem refresh_shows_of_gate :
    ((∀ event ∈ firstFrame default, event.presents = true)
      ∧ gateShown.IsDue "gate" firstAtRest 30020 ∧ firstAtRest.HasNext {} 30020
      ∧ gateRefresh.undisturbed "gate")
    ∧ gateShown.Unseen "gate" gateRefresh false
    ∧ ((gateShown.refreshed "gate" gateRefresh).players.element "gate").muted
        = (gateShown.players.element "gate").muted := by
  have hevents : ∀ event ∈ firstFrame default, event.presents = true := by
    simp [firstFrame, Event.presents, Activity.presents]
  have hsession : gateShown.players.sessions.get? "gate" = some firstAtRest := by decide
  have hdue : gateShown.IsDue "gate" firstAtRest 30020 :=
    ⟨hsession, rfl, rfl, 30020, rfl, Nat.le_refl _⟩
  have hundisturbed : gateRefresh.undisturbed "gate" := by
    constructor
    · simp [gateRefresh, Event.leaves]
    · simp [gateRefresh, Event.leaves, Activity.presents]
  have hnext : firstAtRest.HasNext {} 30020 := by
    intro due hclock
    cases hclock
    decide
  obtain ⟨-, why, -, -, hshows⟩ := (refresh_shows {} true hevents gateShown rfl hdue).1 hnext
  obtain ⟨hunseen, hsounds⟩ := hshows gateRefresh rfl hundisturbed
  exact ⟨⟨hevents, hdue, hnext, hundisturbed⟩, hunseen, hsounds.2 (fun htouch => by cases htouch)⟩

/-- A stream whose autoplay is refused, and which the user starts then. -/
def startedByUser (url : Url) : List Event :=
  [ .attach "yard",
    .activity (.signal "yard" ⟨.ok url, .ok 1⟩ 0 .begins),
    .activity (.signal "yard" ⟨.ok url, .ok 1⟩ 0 (.attached (.ok ()))),
    .activity (.signal "yard" ⟨.ok url, .ok 1⟩ 0 (.played (.error "play rejected"))),
    .requestPlay "yard",
    .activity (.signal "yard" ⟨.ok url, .ok 2⟩ 10 .wish),
    .activity (.signal "yard" ⟨.ok url, .ok 2⟩ 10 (.played (.ok ()))) ]

/-- On a touch screen, where an autoplay is muted. -/
def touched : History := (opened { touchCapable := true } true).run (startedByUser default)

/-- A refresh in which nothing happens meanwhile. -/
def plainRefresh : Refresh where
  url := default
  created := .ok 2
  now := 30010
  waiting := []
  attached := (⟨.ok default, .ok 2⟩, 30010)
  starting := []
  played := (⟨.ok default, .ok 2⟩, 30010)

/-- The refresh is due and succeeds, and the sound that the user has asked
for goes off. -/
theorem muted_by_refresh :
    (touched.players.sessions.get? "yard").map (fun x => (x.point, x.phase, x.refreshAt))
        = some (.resting, .playing, some plainRefresh.now)
      ∧ (touched.players.element "yard").muted = false
      ∧ ((touched.refreshed "yard" plainRefresh).players.element "yard").epoch
          = (touched.players.element "yard").epoch + 1
      ∧ ((touched.refreshed "yard" plainRefresh).players.element "yard").muted = true := by
  decide

end History

end VideoWall.Player
