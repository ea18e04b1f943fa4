/-
A session at rest: what its phase says is what its element shows.

# The agreement

At rest a session plays, waits for the user, or has failed.

- One that plays holds an engine on the present source of its element,
  the element plays, and nothing lies over it.
- One that waits for the user holds an engine on the present source, the
  element does not play, and the play affordance lies over it.
- One that has failed holds no engine.

# Why it holds

Engine and epoch are the invariant of `Session.Sound`. What the element
shows is written by the session itself on its way to rest, for its own
epoch, which is the element's, so that the write is taken
(`Shown.awaitUser`, and the engine's word that it plays). From then on
the only hands on the element are those of engines and decoders, and what
they present changes neither overlay nor playing (`Activity.presents`).
The paths that go back to rest without a write are those that began at
rest and changed nothing.
-/
import VideoWall.Proofs.Player.Attachments
import VideoWall.Proofs.Player.History

namespace VideoWall.Player

open Media

-- ============================================================ the screen

/-- What the element shows of a session at rest. -/
def Session.Shown (x : Session) (e : Element) : Prop :=
  x.point = .resting →
    match x.phase with
    | .playing => e.playing = true ∧ e.overlay = .none
    | .awaitingUser => e.playing = false ∧ e.overlay = .playPrompt
    | _ => True

namespace Session.Shown

variable {m : Move} {cfg : Settings} {supply : Supply} {now : Nat}

/-- Elsewhere than at rest there is nothing to show. -/
theorem of_point {x : Session} {e : Element} (h : x.point ≠ .resting) : x.Shown e :=
  fun hp => absurd hp h

/-- A session that fails shows its failure. -/
theorem fail (m : Move) (message : String) :
    (m.fail cfg now message).session.Shown (m.fail cfg now message).element :=
  fun _ => trivial

/-- The play affordance is written for the present epoch. -/
theorem awaitUser (hon : m.session.OnSource m.element) :
    (m.awaitUser cfg now).session.Shown (m.awaitUser cfg now).element := by
  have htaken : m.element.after m.session.epoch .playPrompt = m.element.apply .playPrompt :=
    Element.after_of_eq hon.1.symm (fun _ _ _ => by simp)
  intro _
  show (m.element.after m.session.epoch .playPrompt).playing = false
    ∧ (m.element.after m.session.epoch .playPrompt).overlay = .playPrompt
  rw [htaken]
  exact ⟨rfl, rfl⟩

/-- A session that plays comes to rest with its element as it is. -/
theorem rest (hphase : m.session.phase = .playing)
    (hplays : m.element.playing = true ∧ m.element.overlay = .none) :
    (m.rest cfg now).session.Shown (m.rest cfg now).element := by
  intro _
  show match m.session.phase with
    | .playing => m.element.playing = true ∧ m.element.overlay = .none
    | .awaitingUser => m.element.playing = false ∧ m.element.overlay = .playPrompt
    | _ => True
  rw [hphase]
  exact hplays

theorem buildFailed (m : Move) (message : String) (why : Purpose) :
    (m.buildFailed cfg now message why).session.Shown
      (m.buildFailed cfg now message why).element := by
  unfold Move.buildFailed
  split
  · exact of_point (by simp [Move.goto])
  · exact fail m message

/-- A session that builds an engine shows what it is about. -/
theorem build (m : Move) (why : Purpose) :
    (m.build cfg supply now why).session.Shown (m.build cfg supply now why).element := by
  unfold Move.build
  dsimp only
  split
  · exact buildFailed _ _ why
  · split
    · exact buildFailed _ _ why
    · exact of_point (by simp [Move.goto])

/-- A session that recovers shows that it does. -/
theorem recover (m : Move) (message : String) :
    (m.recover cfg now message).session.Shown (m.recover cfg now message).element :=
  of_point (by simp [Move.recover, Move.goto])

end Session.Shown

-- ============================================================ the steps

namespace Session

variable {cfg : Settings} {supply : Supply} {now : Nat} {signal : Signal}
variable {x : Session} {e : Element} {m : Move}

/-- A step that comes to rest shows the phase it comes to rest in. -/
theorem Shown.step (h : x.Shown e) (hx : x.Sound e)
    (hlands : x.Lands cfg supply now e signal m) : m.session.Shown m.element := by
  -- a session that rests as it plays shows its video
  have hresting : x.point = .resting → x.phase = .playing →
      e.playing = true ∧ e.overlay = .none := by
    intro hpoint hphase
    have hshown := h hpoint
    rw [hphase] at hshown
    exact hshown
  cases hlands with
  | begins hpoint => exact Shown.build _ .firstStart
  | told hpoint hplay => exact Shown.of_point (by simp)
  | @offered why engine hpoint hwhy hplay =>
      have hon := hx.placed
      rw [Placed, hpoint] at hon
      exact Shown.awaitUser (m := ⟨{ x with engine := some engine }, e, []⟩) hon
  | postponed message hpoint => exact Shown.of_point (by simp [Move.goto])
  | refused message hpoint hwhy => exact Shown.fail _ message
  | pauseOver why hpoint hdue => exact Shown.build _ why.purpose
  | reissued hpoint hengine hphase => exact Shown.of_point (by simp)
  | outdated message hpoint hengine => exact Shown.recover _ message
  | @plays why muted hpoint hengine =>
      have hon := hx.engine hengine
      -- the write is not refused: the session knows the element's epoch
      have htaken : e.after x.epoch (.playing muted) = e.apply (.playing muted) :=
        Element.after_of_eq hon.1.symm (fun _ _ _ => by simp)
      refine Shown.rest (m := (Move.write (.playing muted) ⟨x, e, []⟩).enter .playing) rfl ?_
      show (e.after x.epoch (.playing muted)).playing = true
        ∧ (e.after x.epoch (.playing muted)).overlay = .none
      rw [htaken]
      exact ⟨rfl, rfl⟩
  | declined message hpoint => exact Shown.build _ .userPlay
  | lapsed message hpoint hengine => exact Shown.recover _ message
  | balks message hpoint hwhy hengine =>
      exact Shown.awaitUser (m := ⟨x, e, []⟩) (hx.engine hengine)
  | goesOn hpoint hwishes hphase hengine =>
      exact Shown.rest (m := ⟨x.heard, e, []⟩) hphase (hresting hpoint hphase)
  | resumes hpoint hwishes hphase hengine => exact Shown.of_point (by simp)
  | rebuilds hpoint hwishes hphase => exact Shown.build _ .userPlay
  | fatal message hpoint hphase hengine => exact Shown.recover _ message
  | refreshes hpoint hclock hphase hdue hsource hengine => exact Shown.of_point (by simp)
  | @skips due message hpoint hclock hphase hdue hsource hengine =>
      exact Shown.rest (m := ⟨x.dated cfg now due, e, [.source (.error message)]⟩) hphase
        (hresting hpoint hphase)

end Session

-- =========================================================== histories

/-- A write that presents a frame. -/
def Activity.presents : Activity → Bool
  | .write _ _ _ (.frame _ _ _) => true
  | .write _ _ _ _ => false
  | _ => true

/-- Engines and decoders present frames, and that is all they do by
themselves. -/
def Event.presents : Event → Bool
  | .activity a => a.presents
  | _ => true

/-- A call, if it was made for a stream. -/
def callFor? (name : String) (made : String × Call) : Option Call :=
  if made.1 = name then some made.2 else none

/-- The calls that were made for a stream. -/
def History.callsOf (h : History) (name : String) : List Call := h.calls.filterMap (callFor? name)

/-- The session of a stream is in agreement with its engines and its
element. -/
structure Registry.AccordsAt (r : Registry) (calls : List Call) (name : String) : Prop where
  attuned : ∀ x, r.sessions.get? name = some x → x.Attuned calls
  awaits : ∀ x, r.sessions.get? name = some x → x.Awaits calls
  shown : ∀ x, r.sessions.get? name = some x → x.Shown (r.element name)

namespace Registry

variable {r r' : Registry} {calls more : List Call} {name : String}

/-- What agrees on a stream accords on it alike. -/
theorem AccordsAt.congr (h : r.AccordsAt calls name) (ha : Agrees r r' name) :
    r'.AccordsAt calls name := by
  refine ⟨?_, ?_, ?_⟩
  · rw [ha.session]
    exact h.attuned
  · rw [ha.session]
    exact h.awaits
  · rw [ha.session, ha.element]
    exact h.shown

/-- Calls that attach nothing do not matter. -/
theorem AccordsAt.append (h : r.AccordsAt calls name)
    (hmore : ∀ c ∈ more, ∀ engine, c.attachEpoch? engine = none) :
    r.AccordsAt (calls ++ more) name := by
  refine ⟨fun x hx engine he => ?_, fun x hx why engine hp => ?_, h.shown⟩
  · rw [lastEpoch?_append fun c hc => hmore c hc engine]
    exact h.attuned x hx engine he
  · rw [lastEpoch?_append fun c hc => hmore c hc engine]
    exact h.awaits x hx why engine hp

/-- A stream without a session, or with one that has not begun, is in
agreement. -/
theorem accordsAt_of_fresh
    (h : ∀ x, r.sessions.get? name = some x → x.engine = none ∧ x.point = .fresh) :
    r.AccordsAt calls name := by
  refine ⟨fun x hx engine he => ?_, fun x hx why engine hp => ?_, fun x hx hp => ?_⟩
  · rw [(h x hx).1] at he
    cases he
  · rw [(h x hx).2] at hp
    cases hp
  · rw [(h x hx).2] at hp
    cases hp

/-- A teardown keeps the accord of every stream. -/
theorem AccordsAt.teardown (h : r.AccordsAt calls name) (other : String) :
    (r.teardown other).AccordsAt calls name := by
  by_cases ho : name = other
  · refine accordsAt_of_fresh fun x hx => ?_
    rw [get?_sessions_teardown, if_pos ho] at hx
    cases hx
  · exact h.congr (agrees_teardown ho)

private theorem AccordsAt.teardowns (h : r.AccordsAt calls name) (names : List String) :
    (names.foldl Registry.teardown r).AccordsAt calls name := by
  induction names generalizing r with
  | nil => exact h
  | cons other rest ih => exact ih (h.teardown other)

/-- An attachment keeps the accord of every stream. -/
theorem AccordsAt.attach (h : r.AccordsAt calls name) (other : String) :
    (r.attach other).AccordsAt calls name := by
  by_cases ho : name = other
  · subst ho
    cases hrun : r.isAttached name with
    | true =>
        rw [attach_of_attached hrun]
        exact h
    | false =>
        refine accordsAt_of_fresh fun x hx => ?_
        cases hs : r.supported with
        | true =>
            rw [get?_sessions_attach hrun hs, if_pos rfl] at hx
            cases hx
            exact ⟨rfl, rfl⟩
        | false =>
            rw [(attach_unsupported hrun hs).1, if_pos rfl] at hx
            cases hx
  · exact h.congr (agrees_attach ho)

/-- A wish to play keeps the accord of every stream. -/
theorem AccordsAt.requestPlay (h : r.AccordsAt calls name) (other : String) :
    (r.requestPlay other).AccordsAt calls name := by
  cases hrun : r.isAttached other with
  | false =>
      rw [requestPlay_of_not_attached hrun]
      exact (h.teardown other).attach other
  | true =>
      by_cases ho : name = other
      · -- the wish is counted, and nothing else changes
        subst ho
        rw [requestPlay_of_attached hrun]
        have hback : ∀ y, (r.sessions.modify name fun s => { s with wishes := s.wishes + 1 }).get?
            name = some y → ∃ x, r.sessions.get? name = some x
              ∧ { x with wishes := x.wishes + 1 } = y := by
          intro y hy
          rw [ByName.get?_modify, if_pos rfl] at hy
          exact Option.map_eq_some_iff.1 hy
        refine ⟨fun y hy => ?_, fun y hy => ?_, fun y hy => ?_⟩
        · obtain ⟨x, hx, rfl⟩ := hback y hy
          exact h.attuned x hx
        · obtain ⟨x, hx, rfl⟩ := hback y hy
          exact h.awaits x hx
        · obtain ⟨x, hx, rfl⟩ := hback y hy
          exact h.shown x hx
      · exact h.congr (agrees_requestPlay ho)

/-- A frame changes neither what plays nor what lies over it. -/
private theorem AccordsAt.present (h : r.AccordsAt calls name) (other : String)
    (k width height : Nat) (rgb : Array UInt8) :
    (r.write other k (.frame width height rgb)).AccordsAt calls name := by
  by_cases ho : name = other
  · subst ho
    refine ⟨h.attuned, h.awaits, fun x hx hp => ?_⟩
    have hshown := h.shown x hx hp
    obtain ⟨hplaying, hoverlay⟩ : ((r.write name k (.frame width height rgb)).element name).playing
          = (r.element name).playing
        ∧ ((r.write name k (.frame width height rgb)).element name).overlay
          = (r.element name).overlay := by
      unfold element
      rw [get?_elements_write, if_pos rfl]
      cases r.elements.get? name with
      | none => exact ⟨rfl, rfl⟩
      | some e => exact Element.after_frame e k width height rgb
    rw [hplaying, hoverlay]
    exact hshown
  · exact h.congr (agrees_write ho)

/-- A step of the session of a stream keeps it in agreement. -/
theorem AccordsAt.step (h : r.AccordsAt calls name) (hs : r.SoundAt name) {supply : Supply}
    {now : Nat} {signal : Signal}
    (hstep : r.step? supply now name signal = some (r', more)) :
    r'.AccordsAt (calls ++ more) name := by
  cases step?_inv hstep with
  | @goesOn x m hx hrule htime =>
      have hlands := (hs.session x hx).lands hrule
      have htuned := hlands.tuned (h.attuned x hx) (h.awaits x hx)
      have hshown := (h.shown x hx).step (hs.session x hx) hlands
      have hsession : (r.sessions.set name m.session).get? name = some m.session :=
        ByName.get?_set_self _ _ _
      have helement : (r.elements.set name m.element).get? name = some m.element :=
        ByName.get?_set_self _ _ _
      refine ⟨fun y hy => ?_, fun y hy => ?_, fun y hy => ?_⟩
      · rw [hsession] at hy
        cases hy
        exact htuned.attuned
      · rw [hsession] at hy
        cases hy
        exact htuned.awaits
      · rw [hsession] at hy
        cases hy
        unfold element
        rw [helement]
        exact hshown
  | crashes =>
      refine accordsAt_of_fresh fun y hy => ?_
      rw [ByName.get?_erase_self] at hy
      cases hy

end Registry

namespace History

variable {h : History} {name : String}

/-- Every session is in agreement. -/
def Accords (h : History) : Prop := ∀ name, h.players.AccordsAt (h.callsOf name) name

/-- Calls for a stream are added to its own calls. -/
theorem callsOf_append_self (h : History) (players : Registry) (name : String)
    (calls : List Call) :
    callsOf ⟨players, h.calls ++ calls.map fun call => (name, call)⟩ name
      = h.callsOf name ++ calls := by
  have hall : callFor? name ∘ (fun call => (name, call)) = some := funext fun _ => if_pos rfl
  unfold callsOf
  rw [List.filterMap_append, List.filterMap_map, hall, List.filterMap_some]

/-- Calls for another stream do not count. -/
private theorem callsOf_append_of_ne (h : History) (players : Registry) {name other : String}
    (ho : name ≠ other) (calls : List Call) :
    callsOf ⟨players, h.calls ++ calls.map fun call => (other, call)⟩ name = h.callsOf name := by
  have hnone : (calls.map fun call => (other, call)).filterMap (callFor? name) = [] := by
    refine List.filterMap_eq_nil_iff.2 fun made hmade => ?_
    obtain ⟨call, -, rfl⟩ := List.mem_map.1 hmade
    exact if_neg (Ne.symm ho)
  unfold callsOf
  rw [List.filterMap_append, hnone, List.append_nil]

/-- Every activity of the wall keeps the accord. -/
theorem Accords.act (haccords : h.Accords) (hs : h.Sound) {a : Activity}
    (ha : a.presents = true) : (h.act a).Accords := by
  intro name
  have hshape := h.acts a
  generalize h.act a = h' at hshape
  cases hshape with
  | nothing => exact haccords name
  | @steps other supply now signal players calls hstep =>
      by_cases ho : name = other
      · subst ho
        rw [callsOf_append_self]
        exact (haccords name).step (hs.players name) hstep
      · rw [callsOf_append_of_ne h players ho]
        exact (haccords name).congr (Registry.agrees_step hstep ho)
  | @writes other engine k w hattached =>
      cases w with
      | frame width height rgb => exact (haccords name).present other k width height rgb
      | _ => cases ha
  | wakes supply now i signal other x =>
      have hkept : Registry.AccordsAt
          { h.players with departing := h.players.departing.eraseIdx i } (h.callsOf name) name :=
        (haccords name).congr ⟨rfl, rfl, rfl⟩
      by_cases ho : name = other
      · subst ho
        rw [callsOf_append_self]
        refine hkept.append fun c hc engine => ?_
        obtain ⟨_, -, rfl⟩ := List.mem_map.1 hc
        rfl
      · rw [callsOf_append_of_ne h _ ho]
        exact hkept

/-- Every event keeps sessions in agreement, as long as engines only
present frames. -/
theorem Accords.after (haccords : h.Accords) (hs : h.Sound) {event : Event}
    (hevent : event.presents = true) : (h.after event).Accords := by
  cases event with
  | attach other => exact fun name => (haccords name).attach other
  | replace other => exact fun name => ((haccords name).teardown other).attach other
  | teardown other => exact fun name => (haccords name).teardown other
  | teardownAll => exact fun name => (haccords name).teardowns _
  | requestPlay other => exact fun name => (haccords name).requestPlay other
  | activity a => exact haccords.act hs hevent

/-- The accord lasts over every run. -/
theorem Accords.run (haccords : h.Accords) (hs : h.Sound) {events : List Event}
    (hevents : ∀ event ∈ events, event.presents = true) : (h.run events).Accords := by
  induction events generalizing h with
  | nil => exact haccords
  | cons event later ih =>
      have hfirst := hevents event List.mem_cons_self
      exact ih (haccords.after hs hfirst) (hs.after event)
        fun e he => hevents e (List.mem_cons_of_mem _ he)

theorem accords_opened (settings : Settings) (supported : Bool) :
    (opened settings supported).Accords := by
  intro name
  refine Registry.accordsAt_of_fresh fun x hx => ?_
  cases hx

end History

-- ======================================================= the agreement

/-- What a session at rest and its element say of each other. -/
inductive Session.AtRest (x : Session) (e : Element) : Prop where
  | playing (hphase : x.phase = .playing) (hengine : x.engine.isSome = true)
      (hepoch : x.epoch = e.epoch) (hplays : e.playing = true) (hoverlay : e.overlay = .none) :
      AtRest x e
  | awaitingUser (hphase : x.phase = .awaitingUser) (hengine : x.engine.isSome = true)
      (hepoch : x.epoch = e.epoch) (hplays : e.playing = false)
      (hoverlay : e.overlay = .playPrompt) : AtRest x e
  | failed (hphase : x.phase = .failed) (hengine : x.engine = none) : AtRest x e

/-- In every history in which engines and decoders only present frames,
apart from saying that they play when they are asked to, a session that
rests is in agreement with its element; and the engine that it holds was
attached last for the epoch that the element is at. -/
theorem History.agreement_at_rest (settings : Settings) (supported : Bool) {events : List Event}
    (hevents : ∀ event ∈ events, event.presents = true) {name : String} {x : Session}
    (hx : ((opened settings supported).run events).players.sessions.get? name = some x)
    (hrest : x.point = .resting) :
    x.AtRest (((opened settings supported).run events).players.element name)
      ∧ ∀ engine, x.engine = some engine →
          lastEpoch? engine (((opened settings supported).run events).callsOf name)
            = some (((opened settings supported).run events).players.element name).epoch := by
  have hsound := sound_opened settings supported
  have haccords := (accords_opened settings supported).run hsound hevents name
  have hself := ((sound_run settings supported events).players name).session x hx
  have hshown := haccords.shown x hx hrest
  have hplaced := hself.placed
  rw [Session.Placed, hrest] at hplaced
  refine ⟨?_, ?_⟩
  · rcases hplaced with ⟨hphase, hengine⟩ | ⟨hphase | hphase, hengine⟩
    · exact .failed hphase hengine
    · rw [hphase] at hshown
      exact .playing hphase hengine (hself.engine hengine).1 hshown.1 hshown.2
    · rw [hphase] at hshown
      exact .awaitingUser hphase hengine (hself.engine hengine).1 hshown.1 hshown.2
  · intro engine hengine
    have hheld : x.engine.isSome = true := by
      rw [hengine]
      rfl
    rw [haccords.attuned x hx engine hengine, (hself.engine hheld).1]

/-- A stream is attached, plays, and shows a frame. -/
def firstFrame (url : Url) : List Event :=
  [ .attach "gate",
    .activity (.signal "gate" ⟨.ok url, .ok 7⟩ 0 .begins),
    .activity (.signal "gate" ⟨.ok url, .ok 8⟩ 10 (.attached (.ok ()))),
    .activity (.signal "gate" ⟨.ok url, .ok 8⟩ 20 (.played (.ok ()))),
    .activity (.write "gate" 7 1 (.frame 1 1 #[0, 0, 0])) ]

/-- The session that has come to rest with its first frame. -/
def firstAtRest : Session :=
  { point := .resting, phase := .playing, epoch := 1, engine := some 7, refreshAt := some 30020 }

theorem at_rest_with_first_frame :
    (∀ event ∈ firstFrame default, event.presents = true)
      ∧ ((History.opened {} true).run (firstFrame default)).players.sessions.get? "gate"
          = some firstAtRest
      ∧ firstAtRest.AtRest
          (((History.opened {} true).run (firstFrame default)).players.element "gate") := by
  have hevents : ∀ event ∈ firstFrame default, event.presents = true := by
    simp [firstFrame, Event.presents, Activity.presents]
  have hsession : ((History.opened {} true).run (firstFrame default)).players.sessions.get?
      "gate" = some firstAtRest := by decide
  exact ⟨hevents, hsession, (History.agreement_at_rest {} true hevents hsession rfl).1⟩

end VideoWall.Player
