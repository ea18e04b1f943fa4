/-
Facts that a session carries through a history, and notes of what it did.

# Notes

A session forgets: it does not know what woke it last, nor why a build
failed. A `Note` writes such things down from the outside, step by step,
and `History.latest` is what was written down last for the sessions of a
stream. It plays no part in what happens.

# What is carried

`Carried` says what it takes for a fact about a session, its element and
the latest note to stay true: it holds of new sessions on elements that
are off, and wishes, the writes of engines and steps keep it. Steps are
given as they land, so a proof that a step keeps it is one by cases on
`Session.Lands`; and a step that ends in a crash keeps anything, as there is
no session afterwards. Such a fact then holds after every history
(`Carried.run`).
-/
import VideoWall.Proofs.Player.History

namespace VideoWall.Player

open Media

/-- What is noted of a step, from the session that makes it, the signal and
the calls that are made. -/
abbrev Note (α : Type) := Session → Signal → List Call → Option α

namespace History

variable {α : Type}

/-- What is noted of an event for a stream. -/
def noted (note : Note α) (name : String) (h : History) : Event → Option α
  | .activity (.signal n supply now signal) =>
      if n = name then do
        let x ← h.players.sessions.get? n
        let (_, calls) ← h.players.step? supply now n signal
        note x signal calls
      else none
  | _ => none

/-- What was noted last for a stream when some events are over. -/
def latest (note : Note α) (name : String) (h : History) (last : Option α) :
    List Event → Option α
  | [] => last
  | event :: later => (h.after event).latest note name ((h.noted note name event).or last) later

variable {note : Note α} {h : History} {name : String} {supply : Supply} {now : Nat}
variable {signal : Signal}

/-- A step is noted for the stream of its session. -/
theorem noted_of_step {x : Session} {players : Registry} {calls : List Call}
    (hx : h.players.sessions.get? name = some x)
    (hstep : h.players.step? supply now name signal = some (players, calls)) :
    h.noted note name (.activity (.signal name supply now signal)) = note x signal calls := by
  simp [noted, hx, hstep]

/-- Of a signal that nobody waits for nothing is noted. -/
private theorem noted_of_none (hstep : h.players.step? supply now name signal = none) :
    h.noted note name (.activity (.signal name supply now signal)) = none := by
  simp [noted, hstep]

/-- What happens to another stream is not noted. -/
private theorem noted_of_ne {other : String} (ho : name ≠ other) :
    h.noted note name (.activity (.signal other supply now signal)) = none := by
  simp [noted, Ne.symm ho]

end History

-- ============================================================== settings

namespace Registry

/-- What changes no settings for one stream changes none for many. -/
theorem settings_foldl {op : Registry → String → Registry}
    (hop : ∀ r name, (op r name).settings = r.settings) (names : List String) (r : Registry) :
    (names.foldl op r).settings = r.settings := by
  induction names generalizing r with
  | nil => rfl
  | cons name rest ih => exact (ih (op r name)).trans (hop r name)

theorem settings_teardown (r : Registry) (name : String) :
    (r.teardown name).settings = r.settings := rfl

theorem settings_teardowns (names : List String) (r : Registry) :
    (names.foldl teardown r).settings = r.settings := settings_foldl settings_teardown names r

theorem settings_attach (r : Registry) (name : String) :
    (r.attach name).settings = r.settings := by
  unfold attach
  split
  · rfl
  · dsimp only
    split
    · rfl
    · rfl

theorem settings_requestPlay (r : Registry) (name : String) :
    (r.requestPlay name).settings = r.settings := by
  unfold requestPlay
  split
  · rfl
  · exact settings_attach (r.teardown name) name

end Registry

namespace History

/-- Settings are for good. -/
theorem settings_after (h : History) (event : Event) :
    (h.after event).players.settings = h.players.settings := by
  cases event with
  | attach name => exact Registry.settings_attach _ name
  | replace name => exact Registry.settings_attach _ name
  | teardown name => rfl
  | teardownAll => exact Registry.settings_teardowns _ _
  | requestPlay name => exact Registry.settings_requestPlay _ name
  | activity a =>
      have hshape := h.acts a
      show (h.act a).players.settings = _
      generalize h.act a = h' at hshape
      cases hshape with
      | nothing => rfl
      | steps hstep =>
          cases Registry.step?_inv hstep with
          | goesOn => rfl
          | crashes => rfl
      | writes w hattached => rfl
      | wakes supply now i signal stream x => rfl

/-- The settings never change. -/
@[simp]
theorem settings_run (h : History) (events : List Event) :
    (h.run events).players.settings = h.players.settings := by
  induction events generalizing h with
  | nil => rfl
  | cons event later ih => exact (ih (h.after event)).trans (settings_after h event)

end History

-- ================================================================= facts

namespace Registry

/-- A fact about the session of a stream, if there is one, and its element. -/
def Holds (r : Registry) (name : String) (P : Session → Element → Prop) : Prop :=
  ∀ x, r.sessions.get? name = some x → P x (r.element name)

variable {r r' : Registry} {name : String} {P : Session → Element → Prop}

/-- What agrees on a stream holds of it alike. -/
theorem Holds.congr (h : r.Holds name P) (ha : Agrees r r' name) : r'.Holds name P := by
  unfold Holds
  rw [ha.session, ha.element]
  exact h

/-- Anything holds of a stream without a session. -/
theorem holds_of_none (h : r.sessions.get? name = none) : r.Holds name P := by
  intro x hx
  rw [h] at hx
  cases hx

/-- A teardown keeps what holds of a stream. -/
theorem Holds.teardown (h : r.Holds name P) (other : String) : (r.teardown other).Holds name P := by
  by_cases ho : name = other
  · refine holds_of_none ?_
    rw [get?_sessions_teardown, if_pos ho]
  · exact h.congr (agrees_teardown ho)

private theorem Holds.teardowns (h : r.Holds name P) (names : List String) :
    (names.foldl Registry.teardown r).Holds name P := by
  induction names generalizing r with
  | nil => exact h
  | cons other rest ih => exact ih (h.teardown other)

/-- A new session begins on an element that is off. -/
theorem Holds.attach (h : r.Holds name P) (hs : r.Sound)
    (hfresh : ∀ serial e, e.Off → P { serial } e) (other : String) :
    (r.attach other).Holds name P := by
  by_cases ho : name = other
  · subst ho
    cases hrun : r.isAttached name with
    | true =>
        rw [attach_of_attached hrun]
        exact h
    | false =>
        cases hsupported : r.supported with
        | true =>
            have helement : (r.attach name).element name = (r.element name).detach := by
              unfold element
              rw [get?_elements_attach hrun hsupported, if_pos rfl]
              rfl
            intro x hx
            rw [get?_sessions_attach hrun hsupported, if_pos rfl] at hx
            cases hx
            rw [helement]
            exact hfresh _ _ (Element.off_detach (hs name).clean)
        | false =>
            exact holds_of_none (((attach_unsupported hrun hsupported).1 name).trans (if_pos rfl))
  · exact h.congr (agrees_attach ho)

/-- A wish to play keeps what holds of a stream, if it holds of fresh sessions
and whatever is wished. -/
theorem Holds.requestPlay (h : r.Holds name P) (hs : r.Sound)
    (hfresh : ∀ serial e, e.Off → P { serial } e)
    (hwish : ∀ x e, P x e → P { x with wishes := x.wishes + 1 } e) (other : String) :
    (r.requestPlay other).Holds name P := by
  cases hrun : r.isAttached other with
  | false =>
      rw [requestPlay_of_not_attached hrun]
      exact (h.teardown other).attach ((follows_teardown r other).sound hs) hfresh other
  | true =>
      by_cases ho : name = other
      · subst ho
        rw [requestPlay_of_attached hrun]
        intro y hy
        rw [ByName.get?_modify, if_pos rfl] at hy
        obtain ⟨x, hx, rfl⟩ := Option.map_eq_some_iff.1 hy
        exact hwish x _ (h x hx)
      · exact h.congr (agrees_requestPlay ho)

/-- A write reaches the element of its stream. -/
theorem Holds.write (h : r.Holds name P) {k : Nat} {w : Element.Write} {other : String}
    (hwrite : name = other → ∀ x, P x (r.element name) → P x ((r.element name).after k w)) :
    (r.write other k w).Holds name P := by
  by_cases ho : name = other
  · subst ho
    intro x hx
    have hold := h x hx
    cases he : r.elements.get? name with
    | none =>
        have hsame : (r.write name k w).element name = r.element name := by
          unfold element
          rw [get?_elements_write, if_pos rfl, he]
          rfl
        rw [hsame]
        exact hold
    | some e =>
        have hnew : (r.write name k w).element name = (r.element name).after k w := by
          unfold element
          rw [get?_elements_write, if_pos rfl, he]
          rfl
        rw [hnew]
        exact hwrite rfl x hold
  · exact h.congr (agrees_write ho)

end Registry

/-- What it takes for a fact about the latest note, a session and its element
to stay true, whatever may happen. -/
structure Carried {α : Type} (note : Note α) (cfg : Settings) (may : Event → Prop)
    (P : Option α → Session → Element → Prop) : Prop where
  fresh : ∀ last serial e, e.Off → P last { serial } e
  wish : ∀ last x e, P last x e → P last { x with wishes := x.wishes + 1 } e
  write : ∀ {name engine k w} last x e, may (.activity (.write name engine k w)) →
    e.Knows k → P last x e → P last x (e.after k w)
  step : ∀ {name supply now signal} last x e m,
    may (.activity (.signal name supply now signal)) → x.Sound e →
    x.Lands cfg supply now e signal m → m.session.InTime → P last x e →
    P ((note x signal m.calls).or last) m.session m.element

namespace Carried

variable {α : Type} {note : Note α} {may : Event → Prop}
variable {P : Option α → Session → Element → Prop}
variable {h : History} {name : String} {last : Option α}

/-- A step of the session of a stream keeps the fact about it. -/
private theorem steps (hc : Carried note h.players.settings may P) (hs : h.Sound) {supply : Supply}
    {now : Nat} {signal : Signal} {players : Registry} {calls : List Call}
    (hmay : may (.activity (.signal name supply now signal)))
    (hstep : h.players.step? supply now name signal = some (players, calls))
    (hp : h.players.Holds name (P last)) :
    players.Holds name
      (P ((h.noted note name (.activity (.signal name supply now signal))).or last)) := by
  cases Registry.step?_inv hstep with
  | @goesOn x m hx hrule htime =>
      have hself := (hs.players name).session x hx
      have hkept := hc.step last x _ m hmay hself (hself.lands hrule) htime (hp x hx)
      rw [History.noted_of_step hx hstep]
      intro y hy
      dsimp only at hy
      rw [ByName.get?_set_self] at hy
      cases hy
      unfold Registry.element
      dsimp only
      rw [ByName.get?_set_self]
      exact hkept
  | crashes => exact Registry.holds_of_none (ByName.get?_erase_self _ _)

/-- What is carried by the steps of a session is carried by every activity. -/
theorem act (hc : Carried note h.players.settings may P) (hs : h.Sound) {a : Activity}
    (hmay : may (.activity a)) (hp : h.players.Holds name (P last)) :
    (h.act a).players.Holds name (P ((h.noted note name (.activity a)).or last)) := by
  cases a with
  | signal n supply now signal =>
      unfold History.act
      dsimp only
      cases hstep : h.players.step? supply now n signal with
      | none =>
          have hnone : h.noted note name (.activity (.signal n supply now signal)) = none := by
            -- a step of another stream is not noted
            by_cases ho : name = n
            · subst ho
              exact History.noted_of_none hstep
            · exact History.noted_of_ne ho
          rw [hnone]
          exact hp
      | some result =>
          obtain ⟨players, calls⟩ := result
          by_cases ho : name = n
          · subst ho
            exact hc.steps hs hmay hstep hp
          · rw [History.noted_of_ne ho]
            exact hp.congr (Registry.agrees_step hstep ho)
  | write n engine k w =>
      unfold History.act
      dsimp only
      split
      case isTrue hattached =>
        refine hp.write fun hn x hx => ?_
        subst hn
        exact hc.write last x _ hmay (hs.knows hattached) hx
      case isFalse => exact hp
  | wake supply now i signal =>
      unfold History.act
      dsimp only
      cases hwake : h.players.wake? supply now i signal with
      | none => exact hp
      | some result =>
          obtain ⟨players, calls⟩ := result
          obtain ⟨stream, x, -, rfl, -⟩ := Registry.wake?_inv hwake
          exact hp.congr ⟨rfl, rfl, rfl⟩

/-- Every event keeps the fact. -/
theorem after (hc : Carried note h.players.settings may P) (hs : h.Sound) {event : Event}
    (hmay : may event) (hp : h.players.Holds name (P last)) :
    (h.after event).players.Holds name (P ((h.noted note name event).or last)) := by
  cases event with
  | attach other => exact hp.attach hs.players (hc.fresh last) other
  | replace other =>
      have hsound := (Registry.follows_teardown h.players other).sound hs.players
      exact (hp.teardown other).attach hsound (hc.fresh last) other
  | teardown other => exact hp.teardown other
  | teardownAll => exact hp.teardowns _
  | requestPlay other => exact hp.requestPlay hs.players (hc.fresh last) (hc.wish last) other
  | activity a => exact hc.act hs hmay hp

/-- What is carried through every event is carried through a history. -/
theorem run (hc : Carried note h.players.settings may P) (hs : h.Sound) (last : Option α)
    {events : List Event} (hmay : ∀ event ∈ events, may event)
    (hp : h.players.Holds name (P last)) :
    (h.run events).players.Holds name (P (h.latest note name last events)) := by
  induction events generalizing h last with
  | nil => exact hp
  | cons event later ih =>
      have hfirst := hc.after hs (hmay event List.mem_cons_self) hp
      rw [← History.settings_after h event] at hc
      exact ih hc (hs.after event) _ (fun e he => hmay e (List.mem_cons_of_mem event he)) hfirst

/-- What is carried holds of every stream, since at first there are no
sessions. -/
theorem opened {settings : Settings} (hc : Carried note settings may P) (supported : Bool)
    (events : List Event) (hmay : ∀ event ∈ events, may event) (name : String) :
    ((History.opened settings supported).run events).players.Holds name
      (P ((History.opened settings supported).latest note name none events)) :=
  hc.run (h := .opened settings supported) (History.sound_opened settings supported) none hmay
    (Registry.holds_of_none rfl)

end Carried

end VideoWall.Player
