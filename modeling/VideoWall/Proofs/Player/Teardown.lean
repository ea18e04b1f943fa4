/-
A stream that was torn down stays torn down, until somebody starts a
session for it.

# Why nothing comes back

At the moment of the teardown the session leaves the registry and its
element is detached. After that there are three who might still write to
the element:

- the old session, which is on its way out: cancelled, it does no work
  any more when it is woken (`Registry.wake?_inv`);
- the engines of the stream, and their decoders: they write for epochs
  that they were attached for, and a detached element, having no source,
  is at none of these (`Off.after_eq`);
- the sessions of other streams, which have elements of their own.

So what holds right after the teardown (`TornDown`) is kept by every
event but those that start a session (`TornDown.run`).
-/
import VideoWall.Proofs.Player.History

namespace VideoWall.Player

open Media

-- =================================================== streams torn down

namespace Registry

variable {r r' : Registry} {name : String}

/-- No session, none that crashed, and nothing on the element. -/
structure TornDown (r : Registry) (name : String) : Prop where
  session : r.sessions.get? name = none
  ended : r.ended.get? name = none
  element : (r.element name).Off

/-- A stream that was torn down is not attached. -/
theorem TornDown.isAttached (h : r.TornDown name) : r.isAttached name = false := by
  unfold Registry.isAttached
  rw [h.session]
  rfl

/-- A stream that was torn down has no phase. -/
theorem TornDown.phase? (h : r.TornDown name) : r.phase? name = none := by
  unfold Registry.phase?
  rw [h.session, h.ended]
  rfl

/-- To tear a stream down again changes nothing at all. -/
theorem TornDown.teardown_eq (h : r.TornDown name) : r.teardown name = r :=
  teardown_eq_self h.session h.ended h.element

/-- What agrees on a stream has it torn down alike. -/
theorem TornDown.congr (h : r.TornDown name) (ha : Agrees r r' name) : r'.TornDown name := by
  refine ⟨?_, ?_, ?_⟩
  · rw [ha.session]
    exact h.session
  · rw [ha.ended]
    exact h.ended
  · rw [ha.element]
    exact h.element

/-- A teardown tears the stream down, and leaves others as they were. -/
theorem tornDown_teardown (hclean : (r.element name).Clean) : (r.teardown name).TornDown name := by
  refine ⟨?_, ?_, ?_⟩
  · rw [get?_sessions_teardown, if_pos rfl]
  · rw [get?_ended_teardown, if_pos rfl]
  · rw [element_teardown, if_pos rfl]
    exact Element.off_detach hclean

/-- Another teardown leaves a stream torn down. -/
theorem TornDown.teardown (h : r.TornDown name) (other : String) :
    (r.teardown other).TornDown name := by
  by_cases ho : name = other
  · rw [← ho, h.teardown_eq]
    exact h
  · exact h.congr (agrees_teardown ho)

theorem TornDown.teardowns (h : r.TornDown name) (names : List String) :
    (names.foldl Registry.teardown r).TornDown name := by
  induction names generalizing r with
  | nil => exact h
  | cons other rest ih => exact ih (h.teardown other)

/-- A teardown of many streams tears each of them down. -/
theorem tornDown_teardowns {names : List String} (hname : name ∈ names) (hs : r.Sound) :
    (names.foldl Registry.teardown r).TornDown name := by
  induction names generalizing r with
  | nil => cases hname
  | cons other rest ih =>
      rw [List.foldl_cons]
      rcases List.mem_cons.1 hname with heq | hrest
      · rw [heq]
        exact (tornDown_teardown (hs other).clean).teardowns rest
      · exact ih hrest ((follows_teardown r other).sound hs)

/-- A teardown of everything reaches every stream: what has no element has
no session either, nor one that crashed. -/
theorem tornDown_teardownAll (hs : r.Sound) (name : String) : r.teardownAll.TornDown name := by
  by_cases hname : name ∈ r.elements.names
  · exact tornDown_teardowns hname hs
  · have hentry : r.elements.get? name = none := by
      rw [ByName.mem_names] at hname
      simpa using hname
    have hhoused : ¬ ((r.sessions.get? name).isSome = true
        ∨ (r.ended.get? name).isSome = true) := by
      intro hx
      have hhoused := (hs name).housed hx
      rw [hentry] at hhoused
      cases hhoused
    rw [not_or, Option.not_isSome_iff_eq_none, Option.not_isSome_iff_eq_none] at hhoused
    refine TornDown.teardowns ⟨hhoused.1, hhoused.2, ?_⟩ _
    unfold Registry.element
    rw [hentry]
    exact ⟨rfl, rfl, rfl, rfl, rfl⟩

end Registry

-- ======================================================== what comes after

namespace History

variable {h : History} {name : String}

/-- A closing event tears the stream down. -/
theorem tornDown_closes (hs : h.Sound) {event : Event} (hclose : event.closes name = true) :
    (h.after event).players.TornDown name := by
  cases event with
  | teardown n =>
      have hn : n = name := by simpa [Event.closes] using hclose
      rw [← hn]
      exact Registry.tornDown_teardown (hs.players n).clean
  | teardownAll => exact Registry.tornDown_teardownAll hs.players name
  | _ => cases hclose

/-- Whoever writes for an epoch that an engine was attached for writes in
vain. -/
theorem agrees_write_of_tornDown (hs : h.Sound) (ht : h.players.TornDown name)
    {engine : EngineId} {epoch : Nat} (hattached : h.wasAttached name engine epoch = true)
    (w : Element.Write) : Registry.Agrees h.players (h.players.write name epoch w) name := by
  refine ⟨rfl, rfl, ?_⟩
  rw [Registry.get?_elements_write, if_pos rfl]
  cases he : h.players.elements.get? name with
  | none => rfl
  | some e =>
      have hel : h.players.element name = e := by
        unfold Registry.element
        rw [he]
        rfl
      have hrefused := ht.element.after_eq (hs.knows hattached) w
      rw [hel] at hrefused
      rw [Option.map_some, hrefused]

/-- By themselves neither sessions nor engines bring anything back. -/
theorem tornDown_act (hs : h.Sound) (ht : h.players.TornDown name) (a : Activity) :
    (h.act a).players.TornDown name := by
  have hshape := h.acts a
  generalize h.act a = h' at hshape
  cases hshape with
  | nothing => exact ht
  | @steps other supply now signal players calls hstep =>
      have hne : name ≠ other := by
        rintro rfl
        obtain ⟨x, m, hx, -⟩ := (Registry.step?_inv hstep).step
        rw [ht.session] at hx
        cases hx
      exact ht.congr (Registry.agrees_step hstep hne)
  | @writes other engine epoch w hattached =>
      by_cases ho : name = other
      · subst ho
        exact ht.congr (agrees_write_of_tornDown hs ht hattached w)
      · exact ht.congr (Registry.agrees_write ho)
  | wakes => exact ht.congr ⟨rfl, rfl, rfl⟩

/-- Only an event that starts a session for the stream ends its being torn
down. -/
theorem tornDown_after (hs : h.Sound) (ht : h.players.TornDown name) {event : Event}
    (hstart : event.starts name = false) : (h.after event).players.TornDown name := by
  have hother : ∀ n, (n == name) = false → name ≠ n := by
    intro n hn heq
    rw [heq, beq_self_eq_true] at hn
    cases hn
  cases event with
  | attach n => exact ht.congr (Registry.agrees_attach (hother n hstart))
  | replace n => exact ht.congr (Registry.agrees_replace (hother n hstart))
  | requestPlay n => exact ht.congr (Registry.agrees_requestPlay (hother n hstart))
  | teardown n => exact ht.teardown n
  | teardownAll => exact ht.teardowns _
  | activity a => exact tornDown_act hs ht a

/-- A stream stays torn down until it is started. -/
theorem tornDown_run (hs : h.Sound) (ht : h.players.TornDown name) {events : List Event}
    (hstart : ∀ event ∈ events, event.starts name = false) :
    (h.run events).players.TornDown name := by
  induction events generalizing h with
  | nil => exact ht
  | cons event later ih =>
      have hfirst := hstart event List.mem_cons_self
      have hlater : ∀ e ∈ later, e.starts name = false := fun e he =>
        hstart e (List.mem_cons_of_mem _ he)
      exact ih (hs.after event) (tornDown_after hs ht hfirst) hlater

end History

end VideoWall.Player
