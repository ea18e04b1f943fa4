/-
What the operations of a registry do to the session and the element of
each stream, and that they keep a registry sound.

# Soundness

A registry is sound when every session has an element and is sound on it
(`Session.Sound`) and holds no date that the clock cannot tell, every
element is clean, and no stream has a session besides one that crashed.
`Follows r r'` says that
`r'` is what becomes of `r`: soundness is kept, and an element that once
had a source at some epoch goes on to know that epoch. `Follows` is
reflexive and transitive, so an operation on many streams follows from
the operation on one.

An operation on a stream leaves the other streams alone (`Agrees`), and so
they stay sound (`follows_of_at`). What is left to show for an operation
is what it does to its own stream.
-/
import VideoWall.Player.Registry
import VideoWall.Proofs.Player.Moves

namespace VideoWall.Player

open Media

namespace Registry

variable {r r' : Registry} {name other : String}

-- ============================================================== sound

/-- The registry is sound as far as a stream goes. -/
structure SoundAt (r : Registry) (name : String) : Prop where
  housed : (r.sessions.get? name).isSome = true ∨ (r.ended.get? name).isSome = true →
    (r.elements.get? name).isSome = true
  alone : (r.sessions.get? name).isSome = true → r.ended.get? name = none
  session : ∀ x, r.sessions.get? name = some x → x.Sound (r.element name)
  timed : ∀ x, r.sessions.get? name = some x → x.InTime
  clean : (r.element name).Clean

/-- A registry is sound if it is for every stream. -/
def Sound (r : Registry) : Prop := ∀ name, r.SoundAt name

/-- What becomes of a registry. -/
structure Follows (r r' : Registry) : Prop where
  supported : r'.supported = r.supported
  sound : r.Sound → r'.Sound
  keeps : r.Sound → ∀ name k, (r.element name).Knows k → (r'.element name).Knows k

theorem Follows.refl (r : Registry) : Follows r r := ⟨rfl, id, fun _ _ _ hk => hk⟩

theorem Follows.trans {r₁ r₂ r₃ : Registry} (h : Follows r₁ r₂) (h' : Follows r₂ r₃) :
    Follows r₁ r₃ :=
  ⟨h'.supported.trans h.supported, fun hs => h'.sound (h.sound hs),
    fun hs name k hk => h'.keeps (h.sound hs) name k (h.keeps hs name k hk)⟩

/-- What is done for each of some streams follows from what is done for
one. -/
theorem follows_foldl {op : Registry → String → Registry} (hop : ∀ r name, Follows r (op r name))
    (names : List String) (r : Registry) : Follows r (names.foldl op r) := by
  induction names generalizing r with
  | nil => exact Follows.refl r
  | cons name rest ih => exact (hop r name).trans (ih (op r name))

/-- Two registries hold the same for a stream. -/
structure Agrees (r r' : Registry) (name : String) : Prop where
  session : r'.sessions.get? name = r.sessions.get? name
  ended : r'.ended.get? name = r.ended.get? name
  entry : r'.elements.get? name = r.elements.get? name

theorem Agrees.refl (r : Registry) (name : String) : Agrees r r name := ⟨rfl, rfl, rfl⟩

theorem Agrees.trans {r₁ r₂ r₃ : Registry} (h : Agrees r₁ r₂ name) (h' : Agrees r₂ r₃ name) :
    Agrees r₁ r₃ name :=
  ⟨h'.session.trans h.session, h'.ended.trans h.ended, h'.entry.trans h.entry⟩

/-- What is done for each of some streams leaves the others alone. -/
theorem agrees_foldl {op : Registry → String → Registry}
    (hop : ∀ r n, name ≠ n → Agrees r (op r n) name) {names : List String}
    (hname : name ∉ names) (r : Registry) : Agrees r (names.foldl op r) name := by
  induction names generalizing r with
  | nil => exact Agrees.refl r name
  | cons first rest ih =>
      rw [List.mem_cons, not_or] at hname
      exact (hop r first hname.1).trans (ih hname.2 (op r first))

/-- Registries that agree on a stream have the same element for it. -/
theorem Agrees.element (h : Agrees r r' name) : r'.element name = r.element name := by
  unfold Registry.element
  rw [h.entry]

/-- Soundness for a stream depends on its own entries only. -/
theorem SoundAt.congr (hs : r.SoundAt name) (h : Agrees r r' name) : r'.SoundAt name := by
  refine ⟨?_, ?_, ?_, ?_, ?_⟩
  · rw [h.session, h.ended, h.entry]
    exact hs.housed
  · rw [h.session, h.ended]
    exact hs.alone
  · rw [h.session, h.element]
    exact hs.session
  · rw [h.session]
    exact hs.timed
  · rw [h.element]
    exact hs.clean

/-- A change that concerns one stream only. -/
theorem follows_of_at (hsupported : r'.supported = r.supported)
    (hothers : ∀ other, other ≠ name → Agrees r r' other)
    (hsound : r.SoundAt name → r'.SoundAt name)
    (hkeeps : r.SoundAt name → ∀ k, (r.element name).Knows k → (r'.element name).Knows k) :
    Follows r r' := by
  refine ⟨hsupported, fun h other => ?_, fun h other k hk => ?_⟩
  · by_cases ho : other = name
    · rw [ho]
      exact hsound (h name)
    · exact (h other).congr (hothers other ho)
  · by_cases ho : other = name
    · rw [ho] at hk ⊢
      exact hkeeps (h name) k hk
    · rw [(hothers other ho).element]
      exact hk

-- ====================================================== running sessions

/-- A running session is attached. -/
theorem isAttached_of_get? {x : Session} (hx : r.sessions.get? name = some x)
    (hrun : x.isRunning = true) : r.isAttached name = true := by
  unfold isAttached
  rw [hx]
  exact hrun

/-- In a sound registry every session runs. -/
theorem SoundAt.isAttached_eq (h : r.SoundAt name) :
    r.isAttached name = (r.sessions.get? name).isSome := by
  unfold isAttached
  cases hx : r.sessions.get? name with
  | none => rfl
  | some x => exact (h.session x hx).isRunning

/-- In a sound registry a stream that is not attached has no session. -/
theorem SoundAt.get?_of_not_attached (h : r.SoundAt name) (hrun : r.isAttached name = false) :
    r.sessions.get? name = none := by
  rw [h.isAttached_eq] at hrun
  simpa using hrun

-- ============================================================ teardown

/-- A teardown removes one session. -/
theorem get?_sessions_teardown (r : Registry) (name other : String) :
    (r.teardown name).sessions.get? other
      = if other = name then none else r.sessions.get? other :=
  ByName.get?_erase r.sessions name other

/-- A teardown forgets that a session had ended. -/
theorem get?_ended_teardown (r : Registry) (name other : String) :
    (r.teardown name).ended.get? other = if other = name then none else r.ended.get? other :=
  ByName.get?_erase r.ended name other

/-- A teardown detaches one element. -/
theorem get?_elements_teardown (r : Registry) (name other : String) :
    (r.teardown name).elements.get? other
      = if other = name then (r.elements.get? name).map Element.detach
        else r.elements.get? other :=
  ByName.get?_modify r.elements name other Element.detach

/-- The element of a stream without one counts as idle, and that needs no
detaching. -/
theorem element_teardown (r : Registry) (name other : String) :
    (r.teardown name).element other
      = if other = name then (r.element name).detach else r.element other := by
  unfold element
  rw [get?_elements_teardown]
  split
  · cases r.elements.get? name with
    | none => rfl
    | some e => rfl
  · rfl

/-- A teardown leaves other streams alone. -/
theorem agrees_teardown (ho : other ≠ name) : Agrees r (r.teardown name) other := by
  refine ⟨?_, ?_, ?_⟩
  · rw [get?_sessions_teardown, if_neg ho]
  · rw [get?_ended_teardown, if_neg ho]
  · rw [get?_elements_teardown, if_neg ho]

/-- A teardown is an operation of the registry. -/
theorem follows_teardown (r : Registry) (name : String) : Follows r (r.teardown name) := by
  refine follows_of_at rfl (fun _ ho => agrees_teardown ho) ?_ ?_
  · intro h
    have hnone : ∀ x, (r.teardown name).sessions.get? name ≠ some x := by
      intro x hx
      rw [get?_sessions_teardown, if_pos rfl] at hx
      cases hx
    refine ⟨?_, ?_, fun x hx => absurd hx (hnone x), fun x hx => absurd hx (hnone x), ?_⟩
    · rw [get?_sessions_teardown, get?_ended_teardown, if_pos rfl, if_pos rfl]
      intro hsome
      simp at hsome
    · intro _
      rw [get?_ended_teardown, if_pos rfl]
    · rw [element_teardown, if_pos rfl]
      exact h.clean.detach
  · intro _ k hk
    rw [element_teardown, if_pos rfl]
    exact hk.detach

theorem follows_teardownAll (r : Registry) : Follows r r.teardownAll :=
  follows_foldl follows_teardown r.elements.names r

/-- Without a session, or one that crashed, and with its element off, a stream
is torn down already. -/
theorem teardown_eq_self (hsession : r.sessions.get? name = none)
    (hended : r.ended.get? name = none) (hoff : (r.element name).Off) : r.teardown name = r := by
  have helement : r.elements.modify name Element.detach = r.elements := by
    refine ByName.modify_self fun e he => ?_
    have hel : r.element name = e := by
      unfold element
      rw [he]
      rfl
    rw [hel] at hoff
    exact hoff.detach_eq
  unfold teardown
  rw [ByName.erase_self hsession, ByName.erase_self hended, helement, hsession]
  simp

-- ============================================================== attach

/-- What is attached is not attached again. -/
theorem attach_of_attached (h : r.isAttached name = true) : r.attach name = r := by
  unfold attach
  rw [if_pos h]

/-- A stream without a running session is torn down and gets one. -/
theorem attach_of_supported (h : r.isAttached name = false) (hs : r.supported = true) :
    r.attach name
      = { (r.teardown name).withElement name with
          attaches := r.attaches + 1
          sessions := (r.teardown name).sessions.set name { serial := r.attaches } } := by
  have hstays : ((r.teardown name).withElement name).supported = true := hs
  unfold attach
  rw [if_neg (by rw [h]; decide)]
  dsimp only
  rw [if_pos hstays]
  rfl

/-- Where nothing can decode video it gets a word of explanation. -/
theorem attach_of_unsupported (h : r.isAttached name = false) (hs : r.supported = false) :
    r.attach name
      = { (r.teardown name).withElement name with
          elements := ((r.teardown name).withElement name).elements.modify name
            fun e => e.after e.epoch (.error unsupportedMessage) } := by
  have hstays : ((r.teardown name).withElement name).supported = false := hs
  unfold attach
  rw [if_neg (by rw [h]; decide)]
  dsimp only
  rw [if_neg (by rw [hstays]; decide)]

/-- An attachment starts one session. -/
theorem get?_sessions_attach (h : r.isAttached name = false) (hs : r.supported = true)
    (other : String) :
    (r.attach name).sessions.get? other
      = if other = name then some { serial := r.attaches } else r.sessions.get? other := by
  rw [attach_of_supported h hs]
  dsimp only
  rw [ByName.get?_set, get?_sessions_teardown]
  split
  · rfl
  · rfl

/-- An attachment forgets that a session had ended. -/
theorem get?_ended_attach (h : r.isAttached name = false) (other : String) :
    (r.attach name).ended.get? other = if other = name then none else r.ended.get? other := by
  have hattach : (r.attach name).ended = (r.teardown name).ended := by
    unfold attach
    rw [if_neg (by rw [h]; decide)]
    dsimp only
    split
    · rfl
    · rfl
  rw [hattach, get?_ended_teardown]

/-- An attachment detaches the element that it starts with. -/
theorem get?_elements_attach (h : r.isAttached name = false) (hs : r.supported = true)
    (other : String) :
    (r.attach name).elements.get? other
      = if other = name then some (r.element name).detach else r.elements.get? other := by
  rw [attach_of_supported h hs]
  dsimp only [withElement]
  rw [ByName.get?_set, element_teardown, if_pos rfl, get?_elements_teardown]
  split
  · rfl
  · rfl

/-- Where nothing can decode video, the stream gets no session but a word
of explanation. -/
theorem attach_unsupported (h : r.isAttached name = false) (hs : r.supported = false) :
    (∀ other, (r.attach name).sessions.get? other
          = if other = name then none else r.sessions.get? other)
      ∧ (∀ other, other ≠ name → (r.attach name).elements.get? other = r.elements.get? other)
      ∧ (r.attach name).element name
          = (r.element name).detach.after (r.element name).detach.epoch
              (.error unsupportedMessage) := by
  have hsessions : (r.attach name).sessions = (r.teardown name).sessions := by
    rw [attach_of_unsupported h hs]
    rfl
  have helements : (r.attach name).elements
      = ((r.teardown name).elements.set name ((r.teardown name).element name)).modify name
          fun e => e.after e.epoch (.error unsupportedMessage) := by
    rw [attach_of_unsupported h hs]
    rfl
  refine ⟨fun other => ?_, fun other ho => ?_, ?_⟩
  · rw [hsessions, get?_sessions_teardown]
  · rw [helements, ByName.get?_modify, if_neg ho, ByName.get?_set, if_neg ho,
      get?_elements_teardown, if_neg ho]
  · have hdetached : (r.teardown name).element name = (r.element name).detach := by
      rw [element_teardown, if_pos rfl]
    rw [hdetached] at helements
    rw [element, helements, ByName.get?_modify, if_pos rfl, ByName.get?_set, if_pos rfl]
    rfl

@[simp]
theorem supported_attach (r : Registry) (name : String) :
    (r.attach name).supported = r.supported := by
  unfold attach
  split
  · rfl
  · dsimp only
    split
    · rfl
    · rfl

/-- An attachment leaves other streams alone. -/
theorem agrees_attach (ho : other ≠ name) : Agrees r (r.attach name) other := by
  cases hrun : r.isAttached name with
  | true =>
      rw [attach_of_attached hrun]
      exact Agrees.refl r other
  | false =>
      cases hs : r.supported with
      | true =>
          refine ⟨?_, ?_, ?_⟩
          · rw [get?_sessions_attach hrun hs, if_neg ho]
          · rw [get?_ended_attach hrun, if_neg ho]
          · rw [get?_elements_attach hrun hs, if_neg ho]
      | false =>
          obtain ⟨hsessions, helements, -⟩ := attach_unsupported hrun hs
          have hended := get?_ended_attach hrun other
          exact ⟨(hsessions other).trans (if_neg ho), hended.trans (if_neg ho), helements other ho⟩

/-- Attaching, whichever stream, leaves a running session alone. -/
theorem agrees_attach_of_attached (hrun : r.isAttached other = true) (name : String) :
    Agrees r (r.attach name) other := by
  by_cases ho : other = name
  · rw [← ho, attach_of_attached hrun]
    exact Agrees.refl r other
  · exact agrees_attach ho

/-- An attachment is an operation of the registry. -/
theorem follows_attach (r : Registry) (name : String) : Follows r (r.attach name) := by
  -- attached already, started anew, or not supported at all
  cases hrun : r.isAttached name with
  | true =>
      rw [attach_of_attached hrun]
      exact Follows.refl r
  | false =>
      cases hs : r.supported with
      | true =>
          have helement : (r.attach name).element name = (r.element name).detach := by
            unfold element
            rw [get?_elements_attach hrun hs, if_pos rfl]
            rfl
          refine follows_of_at (supported_attach r name) (fun _ ho => agrees_attach ho) ?_ ?_
          · intro h
            refine ⟨fun _ => ?_, fun _ => ?_, ?_, ?_, ?_⟩
            · rw [get?_elements_attach hrun hs, if_pos rfl]
              rfl
            · rw [get?_ended_attach hrun, if_pos rfl]
            · rw [get?_sessions_attach hrun hs, if_pos rfl]
              intro x hx
              cases hx
              exact Session.sound_fresh _ _
            · rw [get?_sessions_attach hrun hs, if_pos rfl]
              intro x hx due hdue
              cases hx
              cases hdue
            · rw [helement]
              exact h.clean.detach
          · intro _ k hk
            rw [helement]
            exact hk.detach
      | false =>
          obtain ⟨hsessions, -, helement⟩ := attach_unsupported hrun hs
          have hnone := (hsessions name).trans (if_pos rfl)
          have hended := (get?_ended_attach hrun name).trans (if_pos rfl)
          refine follows_of_at (supported_attach r name) (fun _ ho => agrees_attach ho) ?_ ?_
          · intro h
            refine ⟨?_, fun _ => hended, ?_, ?_, ?_⟩
            · rw [hnone, hended]
              intro hsome
              simp at hsome
            · rw [hnone]
              intro x hx
              cases hx
            · rw [hnone]
              intro x hx
              cases hx
            · rw [helement]
              exact h.clean.detach.notice _ rfl
          · intro _ k hk
            rw [helement]
            exact hk.detach.after _ _

/-- A replacement leaves other streams alone. -/
theorem agrees_replace (ho : other ≠ name) : Agrees r (r.replace name) other :=
  (agrees_teardown ho).trans (agrees_attach ho)

theorem follows_replace (r : Registry) (name : String) : Follows r (r.replace name) :=
  (follows_teardown r name).trans (follows_attach _ name)

-- ============================================================== wishes

/-- A wish to play is left with the session that is there. -/
theorem requestPlay_of_attached (h : r.isAttached name = true) :
    r.requestPlay name
      = { r with
          sessions := r.sessions.modify name fun s => { s with wishes := s.wishes + 1 } } := by
  unfold requestPlay
  rw [if_pos h]

/-- A wish to play starts a session where there is none. -/
theorem requestPlay_of_not_attached (h : r.isAttached name = false) :
    r.requestPlay name = r.replace name := by
  unfold requestPlay
  rw [if_neg (by rw [h]; decide)]

/-- A wish to play leaves other streams alone. -/
theorem agrees_requestPlay (ho : other ≠ name) : Agrees r (r.requestPlay name) other := by
  cases hrun : r.isAttached name with
  | false =>
      rw [requestPlay_of_not_attached hrun]
      exact agrees_replace ho
  | true =>
      rw [requestPlay_of_attached hrun]
      exact ⟨(ByName.get?_modify _ _ _ _).trans (if_neg ho), rfl, rfl⟩

/-- A wish is only counted; where no session runs it is a new session. -/
theorem follows_requestPlay (r : Registry) (name : String) : Follows r (r.requestPlay name) := by
  cases hrun : r.isAttached name with
  | false =>
      rw [requestPlay_of_not_attached hrun]
      exact follows_replace r name
  | true =>
      refine follows_of_at ?_ (fun _ ho => agrees_requestPlay ho) ?_ ?_
      · rw [requestPlay_of_attached hrun]
      · intro h
        rw [requestPlay_of_attached hrun]
        have hback : ∀ y, (r.sessions.modify name fun s => { s with wishes := s.wishes + 1 }).get?
            name = some y →
            ∃ x, r.sessions.get? name = some x ∧ { x with wishes := x.wishes + 1 } = y := by
          intro y hy
          rw [ByName.get?_modify, if_pos rfl] at hy
          exact Option.map_eq_some_iff.1 hy
        refine ⟨?_, ?_, ?_, ?_, h.clean⟩
        · dsimp only
          rw [ByName.get?_modify, if_pos rfl, Option.isSome_map]
          exact h.housed
        · dsimp only
          rw [ByName.get?_modify, if_pos rfl, Option.isSome_map]
          exact h.alone
        · intro y hy
          obtain ⟨x, hx, rfl⟩ := hback y hy
          have hsound := h.session x hx
          exact ⟨hsound.epoch, hsound.engine, hsound.placed⟩
        · intro y hy
          obtain ⟨x, hx, rfl⟩ := hback y hy
          exact h.timed x hx
      · rw [requestPlay_of_attached hrun]
        exact fun _ _ hk => hk

-- ========================================================== activities

/-- A write reaches one element. -/
theorem get?_elements_write (r : Registry) (name other : String) (k : Nat) (w : Element.Write) :
    (r.write name k w).elements.get? other
      = if other = name then (r.elements.get? name).map (fun e => e.after k w)
        else r.elements.get? other :=
  ByName.get?_modify r.elements name other fun e => e.after k w

/-- A write leaves other streams alone. -/
theorem agrees_write {k : Nat} {w : Element.Write} (ho : other ≠ name) :
    Agrees r (r.write name k w) other :=
  ⟨rfl, rfl, (get?_elements_write r name other k w).trans (if_neg ho)⟩

/-- Who knows his epoch may write to the element of a stream. -/
theorem follows_write {k : Nat} (hk : (r.element name).Knows k) (w : Element.Write) :
    Follows r (r.write name k w) := by
  have hself := get?_elements_write r name name k w
  rw [if_pos rfl] at hself
  -- a stream without an element of its own has nothing to be known
  cases he : r.elements.get? name with
  | none =>
      have hsame : Agrees r (r.write name k w) name := by
        refine ⟨rfl, rfl, ?_⟩
        rw [hself, he]
        rfl
      refine follows_of_at rfl (fun _ ho => agrees_write ho) (fun h => h.congr hsame) ?_
      intro _ j hj
      rw [hsame.element]
      exact hj
  | some e =>
      have hel : (r.write name k w).element name = (r.element name).after k w := by
        rw [element, hself, element, he]
        rfl
      refine follows_of_at rfl (fun _ ho => agrees_write ho) ?_ ?_
      · intro h
        refine ⟨?_, h.alone, ?_, h.timed, ?_⟩
        · rw [hself, he]
          intro _
          rfl
        · intro x hx
          rw [hel]
          exact (h.session x hx).congr (Element.epoch_after _ _ _) (Element.source_after _ _ _)
        · rw [hel]
          exact h.clean.after hk w
      · intro _ j hj
        rw [hel]
        exact hj.after k w

variable {supply : Supply} {now i : Nat} {signal : Signal}

/-- The shapes of a step: the session of the stream goes on, or it crashes. -/
inductive Steps (supply : Supply) (now : Nat) (name : String) (signal : Signal) (r : Registry) :
    Registry → List Call → Prop where
  | goesOn {x : Session} {m : Move} (hx : r.sessions.get? name = some x)
      (hstep : Session.Step r.settings supply now x (r.element name) signal m)
      (htime : m.session.InTime) :
      Steps supply now name signal r
        { r with
          sessions := r.sessions.set name m.session
          elements := r.elements.set name m.element }
        m.calls
  | crashes {x : Session} {m : Move} (hx : r.sessions.get? name = some x)
      (hstep : Session.Step r.settings supply now x (r.element name) signal m)
      (htime : ¬ m.session.InTime) :
      Steps supply now name signal r
        { r with
          sessions := r.sessions.erase name
          ended := r.ended.set name (x.crash signal (r.element name) m).session.phase
          elements := r.elements.set name (x.crash signal (r.element name) m).element }
        (x.crash signal (r.element name) m).calls

/-- Only the session of the stream takes a step, however that ends. -/
theorem Steps.step {calls : List Call} (h : r.Steps supply now name signal r' calls) :
    ∃ x m, r.sessions.get? name = some x
      ∧ Session.Step r.settings supply now x (r.element name) signal m := by
  cases h with
  | goesOn hx hstep => exact ⟨_, _, hx, hstep⟩
  | crashes hx hstep => exact ⟨_, _, hx, hstep⟩

/-- A session that has crashed does not run. -/
theorem isRunning_crash (x : Session) (signal : Signal) (e : Element) (m : Move) :
    (x.crash signal e m).session.isRunning = false := by
  cases signal <;> rfl

/-- A crash leaves element and calls as they were at the end of the step, or,
in a refresh, as they were before it. -/
theorem crash_cases (x : Session) (signal : Signal) (e : Element) (m : Move) :
    ((x.crash signal e m).element = m.element ∧ (x.crash signal e m).calls = m.calls)
      ∨ ((x.crash signal e m).element = e ∧ (x.crash signal e m).calls = []) := by
  cases signal with
  | refreshDue => exact Or.inr ⟨rfl, rfl⟩
  | _ => exact Or.inl ⟨rfl, rfl⟩

/-- A signal to a stream is a step of its session on its element. -/
theorem step?_inv {calls : List Call} (h : r.step? supply now name signal = some (r', calls)) :
    r.Steps supply now name signal r' calls := by
  simp only [step?, Session.act?, Bool.false_eq_true, if_false, Option.bind_eq_bind,
    Option.bind_eq_some_iff, Option.map_eq_some_iff, Option.pure_def, Option.some.injEq,
    Prod.mk.injEq] at h
  obtain ⟨x, hx, move, ⟨m, hm, hmove⟩, hr, hcalls⟩ := h
  have hstep := Session.step_of_step? hm
  by_cases htime : m.session.InTime
  · rw [if_pos htime] at hmove
    subst hmove hcalls
    rw [settle, if_pos hstep.isRunning] at hr
    subst hr
    exact .goesOn hx hstep htime
  · rw [if_neg htime] at hmove
    subst hmove hcalls
    rw [settle, if_neg (by rw [isRunning_crash]; decide)] at hr
    subst hr
    exact .crashes hx hstep htime

/-- What the session of a stream does in time is what the registry does. -/
theorem step?_of_some {x : Session} {m : Move} (hx : r.sessions.get? name = some x)
    (hm : x.step? r.settings supply now signal (r.element name) = some m)
    (htime : m.session.InTime) :
    r.step? supply now name signal
      = some ({ r with
                  sessions := r.sessions.set name m.session
                  elements := r.elements.set name m.element }, m.calls) := by
  have hrun := (Session.step_of_step? hm).isRunning
  simp [step?, hx, Session.act?_of_some hm, htime, settle, hrun]

/-- A session that would set a date out of time crashes. -/
theorem step?_of_crash {x : Session} {m : Move} (hx : r.sessions.get? name = some x)
    (hm : x.step? r.settings supply now signal (r.element name) = some m)
    (htime : ¬ m.session.InTime) :
    r.step? supply now name signal
      = some ({ r with
                  sessions := r.sessions.erase name
                  ended := r.ended.set name (x.crash signal (r.element name) m).session.phase
                  elements :=
                    r.elements.set name (x.crash signal (r.element name) m).element },
          (x.crash signal (r.element name) m).calls) := by
  simp [step?, hx, Session.act?_of_some hm, htime, settle, isRunning_crash]

/-- A session that cannot take a step leaves the registry as it is. -/
theorem step?_of_none {x : Session} (hx : r.sessions.get? name = some x)
    (hm : x.step? r.settings supply now signal (r.element name) = none) :
    r.step? supply now name signal = none := by
  simp [step?, hx, Session.act?_of_none hm]

theorem step?_of_absent (hx : r.sessions.get? name = none) :
    r.step? supply now name signal = none := by
  simp [step?, hx]

/-- A step of one stream's session leaves other streams alone. -/
theorem agrees_step {calls : List Call} (h : r.step? supply now name signal = some (r', calls))
    (ho : other ≠ name) : Agrees r r' other := by
  cases step?_inv h with
  | goesOn => exact ⟨ByName.get?_set_of_ne ho _ _, rfl, ByName.get?_set_of_ne ho _ _⟩
  | crashes =>
      exact ⟨ByName.get?_erase_of_ne ho _, ByName.get?_set_of_ne ho _ _,
        ByName.get?_set_of_ne ho _ _⟩

/-- A crash keeps the registry sound: of the step that it ended only what had
been done is left. -/
theorem follows_crash {x : Session} {m left : Move} {phase : Phase}
    (hothers : ∀ other, other ≠ name → Agrees r
      { r with
        sessions := r.sessions.erase name
        ended := r.ended.set name phase
        elements := r.elements.set name left.element } other)
    (hx : r.sessions.get? name = some x)
    (hstep : Session.Step r.settings supply now x (r.element name) signal m)
    (hleft : (left.element = m.element ∧ left.calls = m.calls)
      ∨ (left.element = r.element name ∧ left.calls = [])) :
    Follows r
        { r with
          sessions := r.sessions.erase name
          ended := r.ended.set name phase
          elements := r.elements.set name left.element }
      ∧ (r.Sound → ∀ engine k url, Call.attach engine k url ∈ left.calls →
          (element { r with elements := r.elements.set name left.element } name).Knows k) := by
  -- no session is left under the name, so there is nothing to be sound about but the
  -- element
  have hgone : ∀ y, (r.sessions.erase name).get? name ≠ some y := by
    intro y hy
    rw [ByName.get?_erase_self] at hy
    cases hy
  -- the element is that of the step or, where the crash came first, as it was
  have hkept : r.SoundAt name → left.element.Clean
      ∧ (∀ k, (r.element name).Knows k → left.element.Knows k)
      ∧ ∀ engine k url, Call.attach engine k url ∈ left.calls → left.element.Knows k := by
    intro h
    have hsettled := (h.session x hx).step h.clean hstep
    rcases hleft with ⟨helement, hcalls⟩ | ⟨helement, hcalls⟩
    · rw [helement, hcalls]
      exact ⟨hsettled.clean, hsettled.keeps, hsettled.attached⟩
    · rw [helement, hcalls]
      exact ⟨h.clean, fun _ hk => hk, fun _ _ _ hmem => by cases hmem⟩
  have hel : (r.elements.set name left.element).get? name = some left.element :=
    ByName.get?_set_self _ _ _
  refine ⟨follows_of_at rfl hothers ?_ ?_, ?_⟩
  · intro h
    refine ⟨fun _ => ?_, fun hsome => ?_, fun y hy => absurd hy (hgone y),
      fun y hy => absurd hy (hgone y), ?_⟩
    · rw [hel]
      rfl
    · obtain ⟨y, hy⟩ := Option.isSome_iff_exists.1 hsome
      exact absurd hy (hgone y)
    · unfold element
      rw [hel]
      exact (hkept h).1
  · intro h k hk
    unfold element
    rw [hel]
    exact (hkept h).2.1 k hk
  · intro h engine k url hmem
    unfold element
    rw [hel]
    exact (hkept (h name)).2.2 engine k url hmem

/-- A step of a session keeps its registry sound, and attaches engines for
epochs that its element knows. -/
theorem follows_step {calls : List Call} (h : r.step? supply now name signal = some (r', calls)) :
    Follows r r' ∧ (r.Sound → ∀ engine k url, Call.attach engine k url ∈ calls →
      (r'.element name).Knows k) := by
  have hothers : ∀ other, other ≠ name → Agrees r r' other := fun _ ho => agrees_step h ho
  cases step?_inv h with
  | @goesOn x m hx hstep htime =>
      -- the step settles the session and its element; all that is stored comes from
      -- that
      have hsettled : r.SoundAt name → Move.Settled (r.element name) m := fun h =>
        (h.session x hx).step h.clean hstep
      have hel : (r.elements.set name m.element).get? name = some m.element :=
        ByName.get?_set_self _ _ _
      refine ⟨follows_of_at rfl hothers ?_ ?_, ?_⟩
      · intro h
        refine ⟨fun _ => ?_, fun _ => ?_, ?_, ?_, ?_⟩
        · rw [hel]
          rfl
        · exact h.alone (by rw [hx]; rfl)
        · dsimp only
          rw [ByName.get?_set_self]
          intro y hy
          cases hy
          unfold element
          rw [hel]
          exact (hsettled h).sound
        · dsimp only
          rw [ByName.get?_set_self]
          intro y hy
          cases hy
          exact htime
        · unfold element
          rw [hel]
          exact (hsettled h).clean
      · intro h k hk
        unfold element
        rw [hel]
        exact (hsettled h).keeps k hk
      · intro h engine k url hmem
        unfold element
        rw [hel]
        exact (hsettled (h name)).attached engine k url hmem
  | @crashes x m hx hstep htime =>
      exact follows_crash hothers hx hstep (crash_cases x signal (r.element name) m)

/-- A session on its way out that is woken ends, whatever woke it, and all
that it does is to dispose the engine in its hand. -/
theorem wake?_inv {calls : List (String × Call)}
    (h : r.wake? supply now i signal = some (r', calls)) :
    ∃ stream x, r.departing[i]? = some (stream, x)
      ∧ r' = { r with departing := r.departing.eraseIdx i }
      ∧ calls = (x.engine.toList.map Call.dispose).map fun call => (stream, call) := by
  simp only [wake?, Session.act?, if_true, Option.bind_eq_bind, Option.bind_eq_some_iff,
    Option.pure_def, Option.some.injEq, Prod.mk.injEq] at h
  obtain ⟨⟨stream, x⟩, hx, m, rfl, hr, hcalls⟩ := h
  have hsame : r.elements.modify stream (fun _ => r.element stream) = r.elements := by
    refine ByName.modify_self fun e he => ?_
    unfold element
    rw [he]
    rfl
  refine ⟨stream, x, hx, ?_, hcalls.symm⟩
  dsimp only at hr
  rw [hsame] at hr
  exact hr.symm

/-- Who is on the way out can be woken. -/
theorem departing_of_wake?_none (h : r.wake? supply now i signal = none) :
    r.departing[i]? = none := by
  cases hx : r.departing[i]? with
  | none => rfl
  | some entry => simp [wake?, hx, Session.act?] at h

end Registry

end VideoWall.Player
