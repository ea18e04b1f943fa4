/-
Which streams have a session, and whose session has crashed.

Operations decide alone which streams have one. Where video can be decoded,
attaching a stream makes it one with a running session and changes no other,
and tearing it down the reverse; and whatever sessions, engines and decoders
do by themselves, the same streams have a session afterwards
(`History.hasSession_act`). By itself a session can only crash, and that only
where the clock cannot tell a whole interval between refreshes
(`History.hasCrashed_act`).
-/
import VideoWall.Proofs.Player.Dates
import VideoWall.Proofs.Player.Teardown

namespace VideoWall.Player

namespace Registry

variable {r r' : Registry} {name : String}

/-- Registries that agree on a stream have it attached alike. -/
theorem Agrees.isAttached (h : Agrees r r' name) : r'.isAttached name = r.isAttached name := by
  unfold Registry.isAttached
  rw [h.session]

/-- Whether the session of a stream has crashed. -/
def hasCrashed (r : Registry) (name : String) : Bool := (r.ended.get? name).isSome

/-- Whether a stream has a session, be it that it has crashed. -/
def hasSession (r : Registry) (name : String) : Bool := r.isAttached name || r.hasCrashed name

/-- Registries that agree on a stream have it crashed alike. -/
theorem Agrees.hasCrashed (h : Agrees r r' name) : r'.hasCrashed name = r.hasCrashed name := by
  unfold Registry.hasCrashed
  rw [h.ended]

/-- A session that runs has not crashed. -/
theorem SoundAt.hasCrashed_of_isAttached (h : r.SoundAt name) (hrun : r.isAttached name = true) :
    r.hasCrashed name = false := by
  rw [h.isAttached_eq] at hrun
  unfold hasCrashed
  rw [h.alone hrun]
  rfl

/-- A session runs unless it has crashed. -/
theorem SoundAt.isAttached_iff (h : r.SoundAt name) :
    r.isAttached name = true ↔ r.hasSession name = true ∧ r.hasCrashed name = false := by
  unfold hasSession
  cases hrun : r.isAttached name with
  | true => simp [h.hasCrashed_of_isAttached hrun]
  | false => simp

/-- A stream that is torn down has no session, nor one that has crashed. -/
theorem TornDown.hasCrashed (h : r.TornDown name) : r.hasCrashed name = false := by
  unfold Registry.hasCrashed
  rw [h.ended]
  rfl

theorem TornDown.hasSession (h : r.TornDown name) : r.hasSession name = false := by
  unfold Registry.hasSession
  rw [h.isAttached, h.hasCrashed]
  rfl

-- ========================================================== operations

/-- A teardown leaves the other streams attached and no more. -/
theorem isAttached_teardown (r : Registry) (name other : String) :
    (r.teardown name).isAttached other = true ↔ other ≠ name ∧ r.isAttached other = true := by
  unfold isAttached
  rw [get?_sessions_teardown]
  by_cases ho : other = name
  · simp [ho]
  · simp [ho]

/-- An attachment attaches one stream more. -/
theorem isAttached_attach (hs : r.supported = true) (name other : String) :
    (r.attach name).isAttached other = true ↔ other = name ∨ r.isAttached other = true := by
  cases hrun : r.isAttached name with
  | true =>
      rw [attach_of_attached hrun]
      refine ⟨Or.inr, ?_⟩
      rintro (rfl | h)
      · exact hrun
      · exact h
  | false =>
      unfold isAttached
      rw [get?_sessions_attach hrun hs]
      by_cases ho : other = name
      · simp [ho, Session.isRunning]
      · simp [ho]

/-- A replacement attaches one stream more. -/
theorem isAttached_replace (hs : r.supported = true) (name other : String) :
    (r.replace name).isAttached other = true ↔ other = name ∨ r.isAttached other = true := by
  unfold replace
  rw [isAttached_attach (r := r.teardown name) hs, isAttached_teardown]
  constructor
  · rintro (h | ⟨-, h⟩)
    · exact Or.inl h
    · exact Or.inr h
  · rintro (h | h)
    · exact Or.inl h
    · by_cases ho : other = name
      · exact Or.inl ho
      · exact Or.inr ⟨ho, h⟩

/-- After a wish for a stream it has a running session, and others are as
they were. -/
theorem isAttached_requestPlay (hs : r.supported = true) (name other : String) :
    (r.requestPlay name).isAttached other = true ↔ other = name ∨ r.isAttached other = true := by
  cases hrun : r.isAttached name with
  | false =>
      rw [requestPlay_of_not_attached hrun]
      exact isAttached_replace hs name other
  | true =>
      have hsame : (r.requestPlay name).isAttached other = r.isAttached other := by
        by_cases ho : other = name
        · rw [ho, requestPlay_of_attached hrun]
          unfold isAttached
          dsimp only
          rw [ByName.get?_modify, if_pos rfl, Option.any_map]
          rfl
        · exact (agrees_requestPlay ho).isAttached
      rw [hsame]
      refine ⟨Or.inr, ?_⟩
      rintro (rfl | h)
      · exact hrun
      · exact h

/-- A teardown leaves no crash of its stream. -/
theorem hasCrashed_teardown (r : Registry) (name other : String) :
    (r.teardown name).hasCrashed other = true ↔ other ≠ name ∧ r.hasCrashed other = true := by
  unfold hasCrashed
  rw [get?_ended_teardown]
  by_cases ho : other = name
  · simp [ho]
  · simp [ho]

/-- A session that has crashed is replaced by one that runs. -/
theorem hasCrashed_attach (hs : r.Sound) (name other : String) :
    (r.attach name).hasCrashed other = true ↔ other ≠ name ∧ r.hasCrashed other = true := by
  cases hrun : r.isAttached name with
  | true =>
      rw [attach_of_attached hrun]
      refine ⟨fun h => ⟨?_, h⟩, And.right⟩
      rintro rfl
      rw [(hs other).hasCrashed_of_isAttached hrun] at h
      cases h
  | false =>
      unfold hasCrashed
      rw [get?_ended_attach hrun]
      by_cases ho : other = name
      · simp [ho]
      · simp [ho]

/-- A replacement leaves no crash of its stream. -/
theorem hasCrashed_replace (hs : r.Sound) (name other : String) :
    (r.replace name).hasCrashed other = true ↔ other ≠ name ∧ r.hasCrashed other = true := by
  unfold replace
  rw [hasCrashed_attach ((follows_teardown r name).sound hs), hasCrashed_teardown, ← and_assoc,
    and_self]

theorem hasCrashed_requestPlay (hs : r.Sound) (name other : String) :
    (r.requestPlay name).hasCrashed other = true ↔ other ≠ name ∧ r.hasCrashed other = true := by
  cases hrun : r.isAttached name with
  | false =>
      rw [requestPlay_of_not_attached hrun]
      exact hasCrashed_replace hs name other
  | true =>
      have hsame : (r.requestPlay name).hasCrashed other = r.hasCrashed other := by
        rw [requestPlay_of_attached hrun]
        rfl
      rw [hsame]
      refine ⟨fun h => ⟨?_, h⟩, And.right⟩
      rintro rfl
      rw [(hs other).hasCrashed_of_isAttached hrun] at h
      cases h

/-- After any of these, none of the streams it is done to has crashed. -/
theorem hasCrashed_foldl {op : Registry → String → Registry}
    (hop : ∀ r name other, r.Sound → ((op r name).hasCrashed other = true
      ↔ other ≠ name ∧ r.hasCrashed other = true))
    (hfollows : ∀ r name, Follows r (op r name)) (hs : r.Sound) (names : List String)
    (other : String) :
    (names.foldl op r).hasCrashed other = true
      ↔ other ∉ names ∧ r.hasCrashed other = true := by
  induction names generalizing r with
  | nil => simp
  | cons name rest ih =>
      rw [List.foldl_cons, ih ((hfollows r name).sound hs), hop r name other hs, List.mem_cons,
        not_or, and_assoc, and_left_comm]

/-- To attach, replace or ask for each of some streams gives each of them a
running session. -/
theorem isAttached_foldl {op : Registry → String → Registry}
    (hop : ∀ r name other, r.supported = true → ((op r name).isAttached other = true
      ↔ other = name ∨ r.isAttached other = true))
    (hsupported : ∀ r name, (op r name).supported = r.supported) (hs : r.supported = true)
    (names : List String) (other : String) :
    (names.foldl op r).isAttached other = true
      ↔ other ∈ names ∨ r.isAttached other = true := by
  induction names generalizing r with
  | nil => simp
  | cons name rest ih =>
      rw [List.foldl_cons, ih ((hsupported r name).trans hs), hop r name other hs, List.mem_cons,
        or_assoc, or_left_comm]

end Registry

-- ========================================================== activities

namespace History

variable {h : History}

/-- Whether engines are supported never changes. -/
theorem supported_act (h : History) (a : Activity) :
    (h.act a).players.supported = h.players.supported := by
  have hshape := h.acts a
  generalize h.act a = h' at hshape
  cases hshape with
  | nothing => rfl
  | steps hstep => exact (Registry.follows_step hstep).1.supported
  | writes => rfl
  | wakes => rfl

/-- What activities do to the sessions of a stream: one that runs goes on or
crashes, which takes a signal whose date the clock cannot tell, and one that
has crashed stays so. -/
theorem acts_on (hs : h.Sound) (a : Activity) (name : String) :
    ((h.act a).players.isAttached name = h.players.isAttached name
        ∧ (h.act a).players.hasCrashed name = h.players.hasCrashed name)
      ∨ (h.players.isAttached name = true ∧ (h.act a).players.isAttached name = false
        ∧ (h.act a).players.hasCrashed name = true
        ∧ ∃ supply now signal, a = .signal name supply now signal
          ∧ ¬ Clock.IsInstant (now + h.players.settings.refreshInterval)) := by
  cases a with
  | signal other supply now signal =>
      unfold act
      dsimp only
      cases hstep : h.players.step? supply now other signal with
      | none => exact Or.inl ⟨rfl, rfl⟩
      | some result =>
          by_cases ho : name = other
          · subst ho
            have hinv := Registry.step?_inv hstep
            obtain ⟨players, calls⟩ := result
            dsimp only at hinv ⊢
            cases hinv with
            -- a step that is in time never ends a session
            | @goesOn x m hx hrule htime =>
                refine Or.inl ⟨?_, rfl⟩
                unfold Registry.isAttached
                dsimp only
                rw [ByName.get?_set_self, hx, Option.any_some, Option.any_some, hrule.isRunning]
                exact ((hs.players name).session x hx).isRunning.symm
            -- only a date past the clock crashes it, and that is the step that dates
            -- the next refresh
            | @crashes x m hx hrule htime =>
                have hsound := hs.players name
                have hlate := ((hsound.session x hx).lands hrule).late (hsound.timed x hx) htime
                refine Or.inr ⟨?_, ?_, ?_, supply, now, signal, rfl, hlate⟩
                · rw [hsound.isAttached_eq, hx]
                  rfl
                · unfold Registry.isAttached
                  dsimp only
                  rw [ByName.get?_erase_self]
                  rfl
                · unfold Registry.hasCrashed
                  dsimp only
                  rw [ByName.get?_set_self]
                  rfl
          · have hagrees := Registry.agrees_step hstep ho
            exact Or.inl ⟨hagrees.isAttached, hagrees.hasCrashed⟩
  | write other engine k w =>
      unfold act
      dsimp only
      split
      · exact Or.inl ⟨rfl, rfl⟩
      · exact Or.inl ⟨rfl, rfl⟩
  | wake supply now i signal =>
      unfold act
      dsimp only
      cases hwake : h.players.wake? supply now i signal with
      | none => exact Or.inl ⟨rfl, rfl⟩
      | some result =>
          obtain ⟨players, calls⟩ := result
          obtain ⟨stream, x, -, rfl, -⟩ := Registry.wake?_inv hwake
          exact Or.inl ⟨rfl, rfl⟩

/-- By themselves sessions neither come nor go. -/
theorem hasSession_act (hs : h.Sound) (a : Activity) (name : String) :
    (h.act a).players.hasSession name = h.players.hasSession name := by
  unfold Registry.hasSession
  rcases acts_on hs a name with ⟨hrun, hcrashed⟩ | ⟨hbefore, hafter, hcrashed, -⟩
  · rw [hrun, hcrashed]
  · rw [hbefore, hafter, hcrashed, Bool.false_or, Bool.true_or]

/-- A session crashes by a signal whose date the clock cannot tell. -/
theorem hasCrashed_act (hs : h.Sound) (a : Activity) (name : String)
    (hcrashed : (h.act a).players.hasCrashed name = true) :
    h.players.hasCrashed name = true ∨ ∃ supply now signal, a = .signal name supply now signal
      ∧ ¬ Clock.IsInstant (now + h.players.settings.refreshInterval) := by
  rcases acts_on hs a name with ⟨-, hsame⟩ | ⟨-, -, -, hlate⟩
  · exact Or.inl (hsame.symm.trans hcrashed)
  · exact Or.inr hlate

/-- While the clock can tell a whole interval, no session crashes. -/
theorem hasCrashed_after (hs : h.Sound) {event : Event} {t : Nat} (hevent : event.notAfter t)
    (hinstant : Clock.IsInstant (t + h.players.settings.refreshInterval)) (name : String)
    (hsafe : h.players.hasCrashed name = false) :
    (h.after event).players.hasCrashed name = false := by
  have hops : ∀ {r : Registry} {other : String}, (r.hasCrashed name = true
      ↔ name ≠ other ∧ h.players.hasCrashed name = true) → r.hasCrashed name = false := by
    intro r other hiff
    rw [Bool.eq_false_iff, ne_eq, hiff, hsafe]
    simp
  cases event with
  | attach other => exact hops (Registry.hasCrashed_attach hs.players other name)
  | replace other => exact hops (Registry.hasCrashed_replace hs.players other name)
  | teardown other => exact hops (Registry.hasCrashed_teardown h.players other name)
  | teardownAll => exact (Registry.tornDown_teardownAll hs.players name).hasCrashed
  | requestPlay other => exact hops (Registry.hasCrashed_requestPlay hs.players other name)
  | activity a =>
      rw [Bool.eq_false_iff]
      intro hcrashed
      rcases hasCrashed_act hs a name hcrashed with hbefore | ⟨supply, now, signal, rfl, hlate⟩
      · rw [hsafe] at hbefore
        cases hbefore
      · exact hlate (hinstant.of_le (Nat.add_le_add_right hevent _))

/-- No session crashes before its refresh clock runs out of instants. -/
theorem hasCrashed_run (hs : h.Sound) {events : List Event} {t : Nat}
    (hevents : ∀ event ∈ events, event.notAfter t)
    (hinstant : Clock.IsInstant (t + h.players.settings.refreshInterval)) (name : String)
    (hsafe : h.players.hasCrashed name = false) :
    (h.run events).players.hasCrashed name = false := by
  induction events generalizing h with
  | nil => exact hsafe
  | cons event later ih =>
      have hfirst := hevents event List.mem_cons_self
      refine ih (hs.after event) (fun e he => hevents e (List.mem_cons_of_mem _ he)) ?_
        (hasCrashed_after hs hfirst hinstant name hsafe)
      rw [settings_after]
      exact hinstant

end History

end VideoWall.Player
