/-
An operation on a wall disturbs as little as possible.

# What is left alone

Streams that are on screen before and after an operation keep their
session and their element, streams that are polled before and after it
keep their task and their feed, and streams that are on screen neither
before nor after it are not touched at all. What leaves the screen is
torn down, what comes onto it gets one new session, and no other session
is stopped or started (`Controller.Undisturbed`). Only a session or a task
that has crashed is not kept: it is left as it is or replaced by one new one,
so that even a wall on which nothing else has changed starts it anew
(`History.crashed_restarts`).

# Why

Reconciling tears down, attaches, disables and enables one stream after
the other. Each of the four leaves other streams alone. Attaching does
nothing to a stream whose session runs, and enabling nothing to one whose
task runs, so to attach all that is on screen starts sessions for just
the other streams (`Registry.Opens`). And when nothing has
changed there is nothing to do for any of the four
(`reconcile_eq_self`).
-/
import VideoWall.Proofs.Wall.InStep

namespace VideoWall.Player.Registry

variable {r r' : Registry} {name other : String}

-- ================================================================ partings

/-- The sessions of a stream that are on their way out. -/
def partings (r : Registry) (name : String) : List Session :=
  (r.departing.filter fun entry => entry.1 = name).map (·.2)

/-- A teardown sends the session of its stream on its way out. -/
private theorem partings_teardown (r : Registry) (name other : String) :
    (r.teardown other).partings name
      = r.partings name ++ if name = other then (r.sessions.get? name).toList else [] := by
  unfold partings teardown
  rw [List.filter_append, List.map_append]
  congr 1
  by_cases ho : name = other
  · subst ho
    cases r.sessions.get? name with
    | none => simp
    | some x => simp
  · cases r.sessions.get? other with
    | none => simp [ho]
    | some x => simp [ho, Ne.symm ho]

/-- Teardowns of other streams leave a stream alone. -/
theorem agrees_teardowns {names : List String} (hname : name ∉ names) (r : Registry) :
    Agrees r (names.foldl teardown r) name :=
  agrees_foldl (fun _ _ ho => agrees_teardown ho) hname r

/-- To tear a stream down more than once is to tear it down once. -/
private theorem partings_teardowns (names : List String) (r : Registry) (name : String) :
    (names.foldl teardown r).partings name
      = r.partings name ++ if name ∈ names then (r.sessions.get? name).toList else [] := by
  induction names generalizing r with
  | nil => simp
  | cons first rest ih =>
      rw [List.foldl_cons, ih, partings_teardown, get?_sessions_teardown]
      by_cases hfirst : name = first
      · subst hfirst
        simp
      · simp [hfirst]

@[simp]
theorem attaches_teardowns (names : List String) (r : Registry) :
    (names.foldl teardown r).attaches = r.attaches := by
  induction names generalizing r with
  | nil => rfl
  | cons first rest ih => exact ih (r.teardown first)

-- ================================================================ attaches

/-- What attaching some streams makes of a registry: streams with a session
keep it, and each of the others gets one. -/
structure Opens (r r' : Registry) (names : List String) : Prop where
  departing : r'.departing = r.departing
  attaches : r.attaches ≤ r'.attaches
  kept : ∀ name, name ∉ names ∨ r.isAttached name = true → Agrees r r' name
  entered : ∀ name ∈ names, r.isAttached name = false →
    ∃ n, r.attaches ≤ n ∧ n < r'.attaches ∧ r'.sessions.get? name = some { serial := n }
  started : ∀ n, r.attaches ≤ n → n < r'.attaches →
    ∃ name ∈ names, r.isAttached name = false ∧ r'.sessions.get? name = some { serial := n }

theorem opens_nil (r : Registry) : Opens r r [] := by
  refine ⟨rfl, Nat.le_refl _, fun name _ => .refl r name, ?_, ?_⟩
  · intro name hname
    cases hname
  · intro n hle hlt
    omega

/-- Streams that open do not part with engines. -/
theorem Opens.partings {names : List String} (h : Opens r r' names) (name : String) :
    r'.partings name = r.partings name := by
  unfold Registry.partings
  rw [h.departing]

/-- Attaching a stream that has no session starts the next session. -/
private theorem attach_fresh (hs : r.Sound) (hsupported : r.supported = true)
    (hrun : r.isAttached name = false) :
    (r.attach name).departing = r.departing ∧ (r.attach name).attaches = r.attaches + 1 := by
  have hnone := (hs name).get?_of_not_attached hrun
  rw [attach_of_supported hrun hsupported]
  refine ⟨?_, rfl⟩
  simp [withElement, teardown, hnone]

/-- A stream may open before the others. -/
theorem Opens.cons {names : List String} (hs : r.Sound) (hsupported : r.supported = true)
    (h : Opens (r.attach name) r' names) : Opens r r' (name :: names) := by
  cases hrun : r.isAttached name with
  | true =>
      rw [attach_of_attached hrun] at h
      refine ⟨h.departing, h.attaches, fun other hother => h.kept other ?_, ?_, ?_⟩
      · rcases hother with hnot | hattached
        · exact Or.inl fun hmem => hnot (List.mem_cons_of_mem name hmem)
        · exact Or.inr hattached
      · intro other hmem hidle
        rcases List.mem_cons.1 hmem with rfl | hrest
        · rw [hrun] at hidle
          cases hidle
        · exact h.entered other hrest hidle
      · intro n hle hlt
        obtain ⟨other, hmem, hfound⟩ := h.started n hle hlt
        exact ⟨other, List.mem_cons_of_mem name hmem, hfound⟩
  | false =>
      obtain ⟨hdeparting, hattaches⟩ := attach_fresh hs hsupported hrun
      have hnew := get?_sessions_attach hrun hsupported name
      rw [if_pos rfl] at hnew
      -- the stream itself has a session from here on, and keeps it
      have hself : Agrees (r.attach name) r' name :=
        h.kept name (Or.inr ((isAttached_attach hsupported name name).2 (Or.inl rfl)))
      have hlast := h.attaches
      rw [hattaches] at hlast
      refine ⟨h.departing.trans hdeparting, by omega, ?_, ?_, ?_⟩
      · intro other hother
        have ho : other ≠ name := by
          rintro rfl
          rcases hother with hnot | hattached
          · exact hnot List.mem_cons_self
          · rw [hrun] at hattached
            cases hattached
        refine (agrees_attach ho).trans (h.kept other ?_)
        rcases hother with hnot | hattached
        · exact Or.inl fun hmem => hnot (List.mem_cons_of_mem name hmem)
        · exact Or.inr ((isAttached_attach hsupported name other).2 (Or.inr hattached))
      · intro other hmem hidle
        by_cases ho : other = name
        · subst ho
          exact ⟨r.attaches, Nat.le_refl _, hlast, hself.session.trans hnew⟩
        · have hrest : other ∈ names := (List.mem_cons.1 hmem).resolve_left ho
          have hidle' : (r.attach name).isAttached other = false :=
            (agrees_attach ho).isAttached.trans hidle
          obtain ⟨n, hle, hlt, hn⟩ := h.entered other hrest hidle'
          rw [hattaches] at hle
          exact ⟨n, by omega, hlt, hn⟩
      · intro n hle hlt
        by_cases hn : n = r.attaches
        · subst hn
          exact ⟨name, List.mem_cons_self, hrun, hself.session.trans hnew⟩
        · obtain ⟨other, hmem, hidle, hfound⟩ := h.started n (by rw [hattaches]; omega) hlt
          have ho : other ≠ name := by
            rintro rfl
            rw [(isAttached_attach hsupported other other).2 (Or.inl rfl)] at hidle
            cases hidle
          exact ⟨other, List.mem_cons_of_mem name hmem,
            (agrees_attach ho).isAttached.symm.trans hidle, hfound⟩

/-- Where every stream has a session there is nothing to attach. -/
theorem attaches_eq_self {names : List String} (h : ∀ name ∈ names, r.isAttached name = true) :
    names.foldl attach r = r := by
  induction names with
  | nil => rfl
  | cons name rest ih =>
      rw [List.foldl_cons, attach_of_attached (h name List.mem_cons_self)]
      exact ih fun other hother => h other (List.mem_cons_of_mem name hother)

/-- Attachments open their streams. -/
theorem opens_attaches (hs : r.Sound) (hsupported : r.supported = true) (names : List String) :
    Opens r (names.foldl attach r) names := by
  induction names generalizing r with
  | nil => exact opens_nil r
  | cons name rest ih =>
      have hfollows := follows_attach r name
      exact (ih (hfollows.sound hs) (hfollows.supported.trans hsupported)).cons hs hsupported

/-- A wish for a stream without a running session starts one. -/
private theorem opens_requestPlay (hs : r.Sound) (hsupported : r.supported = true)
    (hrun : r.isAttached name = false) : Opens r (r.requestPlay name) [name] := by
  have hnone := (hs name).get?_of_not_attached hrun
  have hopens : Opens (r.teardown name) ((r.teardown name).attach name) [name] :=
    opens_attaches ((follows_teardown r name).sound hs) hsupported [name]
  have hidle : ∀ other, r.isAttached other = false →
      (r.teardown name).isAttached other = false := by
    intro other hother
    rw [Bool.eq_false_iff, ne_eq, isAttached_teardown, hother]
    simp
  rw [requestPlay_of_not_attached hrun]
  refine ⟨hopens.departing.trans (by simp [teardown, hnone]), hopens.attaches, ?_, ?_, ?_⟩
  · intro other hother
    have ho : other ≠ name := by
      rintro rfl
      rcases hother with hnot | hattached
      · exact hnot List.mem_cons_self
      · rw [hrun] at hattached
        cases hattached
    exact (agrees_teardown ho).trans (hopens.kept other (Or.inl (by simpa using ho)))
  · exact fun other hmem hother => hopens.entered other hmem (hidle other hother)
  · intro n hle hlt
    obtain ⟨other, hmem, -, hn⟩ := hopens.started n hle hlt
    exact ⟨other, hmem, List.mem_singleton.1 hmem ▸ hrun, hn⟩

end VideoWall.Player.Registry

namespace VideoWall.Wall

open Recorder Player Polling

/-- How often an operation wishes for a stream. -/
def Operation.wishes (name : String) : Operation → Nat
  | .requestPlay n => if name = n then 1 else 0
  | _ => 0

namespace Controller

variable {c b : Controller} {name : String} {op : Operation}

-- ============================================================ undisturbed

/-- What an operation leaves alone, and what it does to the rest. -/
structure Undisturbed (c c' : Controller) (op : Operation) : Prop where
  /-- What stays on screen and has not crashed has a session, which is only
  wished for at most, and its element. -/
  kept : ∀ name ∈ c.visible, name ∈ c'.visible → c.players.hasCrashed name = false →
    (∃ x, c.players.sessions.get? name = some x
      ∧ c'.players.sessions.get? name = some { x with wishes := x.wishes + op.wishes name })
    ∧ c'.players.elements.get? name = c.players.elements.get? name
  /-- What stays on screen after a crash is left as it is or has a new
  session. -/
  replaced : ∀ name ∈ c.visible, name ∈ c'.visible → c.players.hasCrashed name = true →
    Registry.Agrees c.players c'.players name
      ∨ ∃ n, c.players.attaches ≤ n ∧ n < c'.players.attaches
        ∧ c'.players.sessions.get? name = some { serial := n }
  /-- What is polled, or is not polled, before and after has the task and
  the feed that it had, unless its task has crashed. -/
  polled : ∀ name, c.poller.hasCrashed name = false →
    c'.poller.isEnabled name = c.poller.isEnabled name → Poller.Agrees c.poller c'.poller name
  /-- What stays off screen is not touched. -/
  hidden : ∀ name, name ∉ c.visible → name ∉ c'.visible → Registry.Agrees c.players c'.players name
  left : ∀ name ∈ c.visible, name ∉ c'.visible → c'.players.TornDown name
  /-- The sessions that are stopped are those of the streams that left. -/
  stopped : ∀ name, c'.players.partings name
    = c.players.partings name
      ++ if name ∈ c.visible ∧ name ∉ c'.visible then (c.players.sessions.get? name).toList else []
  /-- What comes onto the screen has a new session, -/
  entered : ∀ name ∈ c'.visible, name ∉ c.visible →
    ∃ n, c.players.attaches ≤ n ∧ n < c'.players.attaches
      ∧ c'.players.sessions.get? name = some { serial := n }
  /-- and there are no other new sessions. -/
  started : ∀ n, c.players.attaches ≤ n → n < c'.players.attaches →
    ∃ name ∈ c'.visible, (name ∉ c.visible ∨ c.players.hasCrashed name = true)
      ∧ c'.players.sessions.get? name = some { serial := n }

/-- What is on screen and has not crashed has a session that runs. -/
theorem Sound.runs_of_visible (h : c.Sound) (hs : c.players.supported = true)
    (hvisible : name ∈ c.visible) (hsafe : c.players.hasCrashed name = false) :
    c.players.isAttached name = true := (h.isAttached_iff hs name).2 ⟨hvisible, hsafe⟩

/-- A visible stream that has not crashed has a session. -/
theorem Sound.session_of_visible (h : c.Sound) (hs : c.players.supported = true)
    (hvisible : name ∈ c.visible) (hsafe : c.players.hasCrashed name = false) :
    ∃ x, c.players.sessions.get? name = some x := by
  have hrun := h.runs_of_visible hs hvisible hsafe
  rw [(h.players name).isAttached_eq] at hrun
  exact Option.isSome_iff_exists.1 hrun

/-- Where only the view is different, nothing is disturbed. -/
private theorem Sound.undisturbed_of_same (h : c.Sound) (hs : c.players.supported = true)
    (hsame : SameDevices c b) (hop : ∀ name ∈ c.visible, op.wishes name = 0) :
    c.Undisturbed b op := by
  rw [show b = { b with players := c.players, poller := c.poller, visible := c.visible } by
    rw [← hsame.players, ← hsame.poller, ← hsame.visible]]
  refine ⟨?_, fun name _ _ _ => Or.inl (.refl _ name), fun name _ _ => .refl _ name,
    fun name _ _ => .refl _ name, ?_, ?_, ?_, ?_⟩
  · intro name hname _ hsafe
    obtain ⟨x, hx⟩ := h.session_of_visible hs hname hsafe
    refine ⟨⟨x, hx, ?_⟩, rfl⟩
    rw [hop name hname]
    exact hx
  · exact fun name hname hnot => absurd hname hnot
  · intro name
    rw [if_neg fun hboth => hboth.2 hboth.1, List.append_nil]
  · exact fun name hname hnot => absurd hname hnot
  · intro n hle hlt
    exact absurd hlt (Nat.not_lt.2 hle)

/-- A wish for a stream on screen is told to its session. -/
private theorem Sound.undisturbed_requestPlay_of_runs (h : c.Sound)
    (hs : c.players.supported = true)
    (hvisible : name ∈ c.visible) (hrun : c.players.isAttached name = true) :
    c.Undisturbed (c.requestPlay name) (.requestPlay name) := by
  -- a session is running, so the wish is left with it and nothing else is touched
  have hwish : c.requestPlay name
      = { c with players.sessions :=
            c.players.sessions.modify name fun s => { s with wishes := s.wishes + 1 } } :=
    congrArg (fun players => { c with players }) (Registry.requestPlay_of_attached hrun)
  have hothers : ∀ other, other ≠ name → Registry.Agrees c.players
      { c.players with sessions :=
          c.players.sessions.modify name fun s => { s with wishes := s.wishes + 1 } } other :=
    fun other ho => Registry.requestPlay_of_attached hrun ▸ Registry.agrees_requestPlay ho
  rw [hwish]
  refine ⟨?_, ?_, fun other _ _ => .refl _ other, ?_, ?_, ?_, ?_, ?_⟩
  · intro other hother _ hsafe
    obtain ⟨x, hx⟩ := h.session_of_visible hs hother hsafe
    refine ⟨⟨x, hx, ?_⟩, rfl⟩
    dsimp only
    rw [ByName.get?_modify]
    by_cases ho : other = name
    · subst ho
      rw [if_pos rfl, hx, Operation.wishes, if_pos rfl]
      rfl
    · rw [if_neg ho, hx, Operation.wishes, if_neg ho]
      rfl
  · intro other _ _ hcrashed
    refine Or.inl (hothers other ?_)
    rintro rfl
    rw [(h.players other).hasCrashed_of_isAttached hrun] at hcrashed
    cases hcrashed
  · intro other hother _
    refine hothers other ?_
    rintro rfl
    exact hother hvisible
  · exact fun other hother hnot => absurd hother hnot
  · intro other
    rw [if_neg fun hboth => hboth.2 hboth.1, List.append_nil]
    rfl
  · exact fun other hother hnot => absurd hother hnot
  · intro n hle hlt
    exact absurd hlt (Nat.not_lt.2 hle)

/-- If that session has crashed, the wish starts another. -/
private theorem Sound.undisturbed_requestPlay_of_crashed (h : c.Sound)
    (hs : c.players.supported = true)
    (hvisible : name ∈ c.visible) (hcrashed : c.players.hasCrashed name = true) :
    c.Undisturbed (c.requestPlay name) (.requestPlay name) := by
  have hidle : c.players.isAttached name = false := by
    rw [Bool.eq_false_iff, ne_eq, h.isAttached_iff hs, hcrashed]
    simp
  have hopens := Registry.opens_requestPlay h.players hs hidle
  have hothers : ∀ other, other ≠ name →
      Registry.Agrees c.players (c.players.requestPlay name) other :=
    fun other ho => Registry.agrees_requestPlay ho
  refine ⟨?_, ?_, fun other _ _ => .refl _ other, ?_, ?_, ?_, ?_, ?_⟩
  · intro other hother _ hsafe
    have ho : other ≠ name := by
      rintro rfl
      rw [hcrashed] at hsafe
      cases hsafe
    obtain ⟨x, hx⟩ := h.session_of_visible hs hother hsafe
    refine ⟨⟨x, hx, ?_⟩, (hothers other ho).entry⟩
    rw [Operation.wishes, if_neg ho]
    exact (hothers other ho).session.trans hx
  · intro other _ _ _
    by_cases ho : other = name
    · subst ho
      exact Or.inr (hopens.entered other List.mem_cons_self hidle)
    · exact Or.inl (hothers other ho)
  · intro other hother _
    refine hothers other ?_
    rintro rfl
    exact hother hvisible
  · exact fun other hother hnot => absurd hother hnot
  · intro other
    rw [if_neg fun hboth => hboth.2 hboth.1, List.append_nil]
    exact hopens.partings other
  · exact fun other hother hnot => absurd hother hnot
  · intro n hle hlt
    obtain ⟨other, hmem, -, hn⟩ := hopens.started n hle hlt
    obtain rfl := List.mem_singleton.1 hmem
    exact ⟨other, hvisible, Or.inr hcrashed, hn⟩

/-- Whatever is to be on screen, the tasks that run before and after run
on. -/
theorem agrees_reconcilePoller (h : c.poller.Sound) (next : List Stream)
    (hsafe : c.poller.hasCrashed name = false)
    (hsame : (c.reconcilePoller next).isEnabled name = c.poller.isEnabled name) :
    Poller.Agrees c.poller (c.reconcilePoller next) name := by
  have hpolled := isEnabled_reconcilePoller c next name
  rw [hsame] at hpolled
  have hruns : c.poller.isEnabled name = true ↔ c.poller.hasTask name = true := by
    rw [(h name).isEnabled_iff, and_iff_left hsafe]
  have hkept : name ∉ c.stale next := by
    rw [mem_stale, ← hruns]
    exact fun hboth => hboth.2 (hpolled.1 hboth.1)
  have hdisables := Poller.agrees_disables hkept c.poller
  rw [reconcilePoller_eq]
  refine hdisables.trans (Poller.agrees_enables ?_)
  rw [hdisables.isEnabled]
  cases hp : c.poller.isEnabled name with
  | true => exact Or.inr rfl
  | false =>
      refine Or.inl fun hmem => ?_
      rw [hpolled.2 (mem_polled.1 hmem)] at hp
      cases hp

/-- Whatever is to be on screen, bringing sessions and tasks in step with it
disturbs nothing else. -/
private theorem Sound.undisturbed_next (h : c.Sound) (hs : c.players.supported = true)
    (hop : ∀ name ∈ c.visible, op.wishes name = 0) (next : List Stream) :
    c.Undisturbed
      { c with
        players := c.reconcilePlayers next
        poller := c.reconcilePoller next
        visible := next.map (·.name) } op := by
  have htorn : ∀ name, name ∉ next.map (·.name) → (c.reconcilePlayers next).TornDown name :=
    fun _ hnot => tornDown_reconcilePlayers h hnot
  rw [reconcilePlayers_eq] at htorn ⊢
  -- first what leaves is torn down, which gives `r`, and then what is next is attached
  generalize hnames : next.map (·.name) = names at htorn ⊢
  have hleaving : ∀ name, name ∈ c.leaving next ↔ name ∈ c.visible ∧ name ∉ names := by
    intro name
    rw [← hnames]
    exact mem_leaving
  have hpartings := Registry.partings_teardowns (c.leaving next) c.players
  have hattaches := Registry.attaches_teardowns (c.leaving next) c.players
  have hclosed := fun name (hnot : name ∉ c.leaving next) =>
    Registry.agrees_teardowns hnot c.players
  have hidle : ∀ name, name ∉ c.visible →
      ((c.leaving next).foldl Registry.teardown c.players).isAttached name = false :=
    fun name hnot => ((h.offScreen name hnot).teardowns _).isAttached
  have hopens : Registry.Opens ((c.leaving next).foldl Registry.teardown c.players)
      (names.foldl Registry.attach ((c.leaving next).foldl Registry.teardown c.players))
      names := by
    have hfollows := Registry.follows_foldl Registry.follows_teardown (c.leaving next) c.players
    exact Registry.opens_attaches (hfollows.sound h.players) (hfollows.supported.trans hs) names
  generalize (c.leaving next).foldl Registry.teardown c.players = r at *
  have hstays : ∀ name ∈ names, Registry.Agrees c.players r name :=
    fun name hnext => hclosed name fun hmem => ((hleaving name).1 hmem).2 hnext
  refine ⟨?_, ?_, fun name hsafe hsame => agrees_reconcilePoller h.poller next hsafe hsame, ?_,
    fun name _ hnot => htorn name hnot, ?_, ?_, ?_⟩
  · intro name hname hnext hsafe
    -- what stays is torn down by nobody, and to attach it again does nothing
    have hruns := h.runs_of_visible hs hname hsafe
    have hagrees := (hstays name hnext).trans (hopens.kept name
      (Or.inr ((hstays name hnext).isAttached.trans hruns)))
    obtain ⟨x, hx⟩ := h.session_of_visible hs hname hsafe
    refine ⟨⟨x, hx, ?_⟩, hagrees.entry⟩
    rw [hop name hname]
    exact hagrees.session.trans hx
  · intro name _ hnext hcrashed
    -- a crashed session is not attached, so a new one is started
    have hgone : c.players.isAttached name = false := by
      rw [Bool.eq_false_iff, ne_eq, h.isAttached_iff hs, hcrashed]
      simp
    obtain ⟨n, hle, hlt, hn⟩ :=
      hopens.entered name hnext ((hstays name hnext).isAttached.trans hgone)
    rw [hattaches] at hle
    exact Or.inr ⟨n, hle, hlt, hn⟩
  · intro name hnot hnext
    exact (hclosed name fun hmem => hnot ((hleaving name).1 hmem).1).trans
      (hopens.kept name (Or.inl hnext))
  · intro name
    show Registry.partings (names.foldl Registry.attach r) name = _
    rw [hopens.partings, hpartings]
    simp only [hleaving]
  · intro name hname hnot
    obtain ⟨n, hle, hlt, hn⟩ := hopens.entered name hname (hidle name hnot)
    rw [hattaches] at hle
    exact ⟨n, hle, hlt, hn⟩
  · intro n hle hlt
    rw [← hattaches] at hle
    -- a session that was started is one of a stream that was not attached
    obtain ⟨name, hname, hnone, hn⟩ := hopens.started n hle hlt
    refine ⟨name, hname, ?_, hn⟩
    rw [(hstays name hname).isAttached, Bool.eq_false_iff, ne_eq, h.isAttached_iff hs] at hnone
    by_cases hvisible : name ∈ c.visible
    · exact Or.inr (by simpa [hvisible] using hnone)
    · exact Or.inl hvisible

/-- Whether an operation disturbs is told by the devices. -/
theorem Undisturbed.congr {c' : Controller} (h : b.Undisturbed c' op) (hsame : SameDevices c b) :
    c.Undisturbed c' op := by
  obtain ⟨hkept, hreplaced, hpolled, hhidden, hleft, hstopped, hentered, hstarted⟩ := h
  rw [hsame.players, hsame.visible] at hkept hreplaced hhidden hstopped hentered hstarted
  rw [hsame.poller] at hpolled
  rw [hsame.visible] at hleft
  exact ⟨hkept, hreplaced, hpolled, hhidden, hleft, hstopped, hentered, hstarted⟩

/-- Reconciling disturbs no stream that stays visible. -/
private theorem Sound.undisturbed_reconcile (h : c.Sound) (hs : c.players.supported = true)
    (hop : ∀ name ∈ c.visible, op.wishes name = 0) : c.Undisturbed c.reconcile op := by
  have hsame : SameDevices c { c with view := c.settledView } := ⟨rfl, rfl, rfl⟩
  exact ((h.congr hsame).undisturbed_next hs hop _).congr hsame

/-- Every operation but the restart of what is visible reconciles, or leaves
sessions and tasks alone, or is a wish. -/
private theorem perform_cases (c : Controller) (op : Operation) (hop : op ≠ .restartVisible) :
    (∃ name ∈ c.visible, op = .requestPlay name ∧ c.perform op = c.requestPlay name)
      ∨ ((∀ name ∈ c.visible, op.wishes name = 0)
        ∧ (SameDevices c (c.perform op)
          ∨ ∃ b, SameDevices c b ∧ c.perform op = b.reconcile)) := by
  cases op with
  | restartVisible => exact absurd rfl hop
  | requestPlay name =>
      unfold perform
      dsimp only
      split
      case isTrue hvisible => exact Or.inl ⟨name, hvisible, rfl, rfl⟩
      case isFalse hnot =>
        refine Or.inr ⟨fun other hother => if_neg ?_, Or.inl ⟨rfl, rfl, rfl⟩⟩
        rintro rfl
        exact hnot hother
  | setStreams | setLayout | setShowDetections | reconcile =>
      refine Or.inr ⟨fun _ _ => rfl, Or.inr ⟨_, ?_, rfl⟩⟩
      exact ⟨rfl, rfl, rfl⟩
  | select name =>
      refine Or.inr ⟨fun _ _ => rfl, ?_⟩
      unfold perform select
      dsimp only
      split
      · split
        · exact Or.inr ⟨{ c with view.selected := some name }, ⟨rfl, rfl, rfl⟩, rfl⟩
        · exact Or.inl ⟨rfl, rfl, rfl⟩
      · exact Or.inl ⟨rfl, rfl, rfl⟩
  | stepPage delta =>
      refine Or.inr ⟨fun _ _ => rfl, ?_⟩
      unfold perform stepPage
      dsimp only
      split
      · exact Or.inl ⟨rfl, rfl, rfl⟩
      · split
        · refine Or.inr ⟨_, ?_, rfl⟩
          exact ⟨rfl, rfl, rfl⟩
        · refine Or.inr ⟨_, ?_, rfl⟩
          exact ⟨rfl, rfl, rfl⟩

/-- No operation but a restart disturbs what stays visible. -/
private theorem Sound.undisturbed (h : c.Sound) (hs : c.players.supported = true)
    (hop : op ≠ .restartVisible) : c.Undisturbed (c.perform op) op := by
  rcases perform_cases c op hop with ⟨name, hvisible, rfl, hwish⟩ | ⟨hnone, hsame | ⟨b, hsame, hb⟩⟩
  · rw [hwish]
    cases hcrashed : c.players.hasCrashed name with
    | true => exact h.undisturbed_requestPlay_of_crashed hs hvisible hcrashed
    | false =>
        exact h.undisturbed_requestPlay_of_runs hs hvisible
          (h.runs_of_visible hs hvisible hcrashed)
  · exact h.undisturbed_of_same hs hsame hnone
  · rw [hb]
    refine Undisturbed.congr ?_ hsame
    refine (h.congr hsame).undisturbed_reconcile ?_ ?_
    · rw [hsame.players]
      exact hs
    · rw [hsame.visible]
      exact hnone

-- ======================================================== nothing to do

/-- A page that there is stays. -/
theorem settledView_eq (hpage : c.view.layout ≠ .single → c.view.page < c.pages) :
    c.settledView = c.view := by
  unfold settledView
  unfold pages at hpage
  cases hl : c.view.layout with
  | single => rfl
  | count | custom =>
      rw [hl] at hpage
      have hlt := hpage (by simp)
      dsimp only at hlt ⊢
      rw [clampPage, Nat.min_eq_left (Nat.le_sub_one_of_lt hlt)]

/-- No session and no task of a wall has crashed. -/
structure Safe (c : Controller) : Prop where
  sessions : ∀ name, c.players.hasCrashed name = false
  tasks : ∀ name, c.poller.hasCrashed name = false

/-- Reconciling leaves no visible stream crashed. -/
private theorem Sound.safe_reconcile (h : c.Sound) : c.reconcile.Safe := by
  have hsettled : ({ c with view := c.settledView } : Controller).Sound := h.congr ⟨rfl, rfl, rfl⟩
  exact ⟨hasCrashed_reconcilePlayers hsettled _, hasCrashed_reconcilePoller _ _⟩

/-- Where the page, the screen and the streams to be polled are as they are
to be and nothing has crashed, reconciling has nothing to do. -/
theorem Sound.reconcile_eq_self (h : c.Sound) (hs : c.players.supported = true) (hsafe : c.Safe)
    (hview : c.settledView = c.view) (hvisible : c.visible = c.wanted.map (·.name))
    (hpolled : ∀ name, c.poller.hasTask name = true
      ↔ ∃ s ∈ c.wanted, s.name = name ∧ c.polls s = true) : c.reconcile = c := by
  have hplayers : c.reconcilePlayers c.wanted = c.players := by
    have hnone : c.leaving c.wanted = [] := by
      refine List.eq_nil_iff_forall_not_mem.2 fun name hmem => ?_
      obtain ⟨hon, hoff⟩ := mem_leaving.1 hmem
      exact hoff (hvisible ▸ hon)
    rw [reconcilePlayers_eq, hnone, ← hvisible]
    exact Registry.attaches_eq_self fun name hname =>
      h.runs_of_visible hs hname (hsafe.sessions name)
  have hpoller : c.reconcilePoller c.wanted = c.poller := by
    have hnone : c.stale c.wanted = [] := by
      refine List.eq_nil_iff_forall_not_mem.2 fun name hmem => ?_
      obtain ⟨hon, hoff⟩ := mem_stale.1 hmem
      exact hoff ((hpolled name).1 hon)
    rw [reconcilePoller_eq, hnone]
    refine Poller.enables_eq_self fun name hmem => (h.poller name).isEnabled_iff.2 ?_
    exact ⟨(hpolled name).2 (mem_polled.1 hmem), hsafe.tasks name⟩
  unfold Controller.reconcile
  rw [hview]
  show ({ c with
    players := c.reconcilePlayers c.wanted
    poller := c.reconcilePoller c.wanted
    visible := c.wanted.map (·.name) } : Controller) = c
  rw [hplayers, hpoller, ← hvisible]

/-- A reconciliation that puts nothing else on screen and polls nothing else
changes nothing at all, unless it has a crash to repair. -/
private theorem Sound.reconcile_eq_self_of_unchanged (h : c.Sound) (hs : c.players.supported = true)
    (hsafe : c.Safe) (hview : c.reconcile.view = c.view)
    (hvisible : c.reconcile.visible = c.visible)
    (hpolled : ∀ name, c.reconcile.poller.isEnabled name = c.poller.isEnabled name) :
    c.reconcile = c := by
  have hsettled : c.settledView = c.view := hview
  have hnext : c.visible = ({ c with view := c.settledView } : Controller).wanted.map (·.name) :=
    hvisible.symm
  have htasks := isEnabled_reconcilePoller { c with view := c.settledView }
    ({ c with view := c.settledView } : Controller).wanted
  refine h.reconcile_eq_self hs hsafe hsettled ?_ fun name => ?_
  · rw [hsettled] at hnext
    exact hnext
  · have hruns := (h.poller name).isEnabled_iff
    rw [and_iff_left (hsafe.tasks name)] at hruns
    rw [← hruns, ← hpolled name]
    rw [hsettled] at htasks
    have htask := htasks name
    unfold Controller.reconcile
    rw [hsettled]
    exact htask

/-- To reconcile twice is to reconcile once. -/
private theorem Sound.reconcile_reconcile (h : c.Sound) (hs : c.players.supported = true) :
    c.reconcile.reconcile = c.reconcile := by
  have hsettled : ({ c with view := c.settledView } : Controller).Sound := h.congr ⟨rfl, rfl, rfl⟩
  have hsupported : c.reconcile.players.supported = true :=
    (follows_perform c .reconcile).supported.trans hs
  refine h.reconcile.reconcile_eq_self hsupported h.safe_reconcile (settledView_eq ?_) rfl ?_
  · intro hlayout
    refine page_settledView ?_
    rw [← settledView_layout]
    exact hlayout
  · exact hasTask_reconcilePoller hsettled.poller _

/-- Reconciling a settled wall changes nothing. -/
theorem Settled.reconcile_eq_self (h : c.Settled) (hsound : c.Sound)
    (hs : c.players.supported = true) (hsafe : c.Safe) : c.reconcile = c :=
  hsound.reconcile_eq_self hs hsafe (settledView_eq h.page) h.visible h.polled

end Controller

-- ============================================================ histories

namespace History

/-- Nothing crashes while the clock can tell a whole interval between refreshes
from every signal, and the longest interval of polling has a double. -/
theorem safe_run {playing : Player.Settings} {polling : Polling.Settings} (view : View)
    {events : List Event} (hplaying : ∀ event ∈ events, ∀ name, ¬ event.IsLate playing name)
    (hpolling : Clock.IsDuration (polling.longest * 2)) :
    ((opened playing true polling view).run events).wall.Safe := by
  have hcrashes := crashes_run playing true polling view events
  refine ⟨fun name => ?_, fun name => ?_⟩
  · rw [Bool.eq_false_iff]
    intro hcrashed
    obtain ⟨event, hmem, hlate⟩ := (hcrashes name).1 hcrashed
    exact hplaying event hmem name hlate
  · rw [Bool.eq_false_iff]
    exact fun hcrashed => (hcrashes name).2 hcrashed hpolling

/-- In every state of a wall that can decode video, an operation other than
the restart of what is visible makes no call and disturbs as little as
possible. In particular a reconciliation that finds the page, the screen and
the streams to be polled as they are to be changes nothing at all, unless a
session or a task has crashed; it changes nothing after another one, and from
the first list of streams on until a shutdown while nothing has crashed. -/
theorem minimal_disturbance (playing : Player.Settings) (polling : Polling.Settings) (view : View)
    (events : List Event) :
    (∀ op, op ≠ .restartVisible →
        (((opened playing true polling view).run events).after (.operation op)).calls
            = ((opened playing true polling view).run events).calls
          ∧ ((opened playing true polling view).run events).wall.Undisturbed
              (((opened playing true polling view).run events).after (.operation op)).wall op)
      ∧ (((opened playing true polling view).run events).wall.Safe →
          ((opened playing true polling view).run events).wall.reconcile.view
            = ((opened playing true polling view).run events).wall.view →
          ((opened playing true polling view).run events).wall.reconcile.visible
            = ((opened playing true polling view).run events).wall.visible →
          (∀ name,
            ((opened playing true polling view).run events).wall.reconcile.poller.isEnabled name
              = ((opened playing true polling view).run events).wall.poller.isEnabled name) →
          ((opened playing true polling view).run events).wall.reconcile
            = ((opened playing true polling view).run events).wall)
      ∧ ((opened playing true polling view).run events).wall.reconcile.reconcile
          = ((opened playing true polling view).run events).wall.reconcile
      ∧ ∀ streams later, Event.shutdown ∉ later →
          ((opened playing true polling view).run
              (events ++ .operation (.setStreams streams) :: later)).wall.Safe →
          ((opened playing true polling view).run
              (events ++ .operation (.setStreams streams) :: later)).wall.reconcile
            = ((opened playing true polling view).run
              (events ++ .operation (.setStreams streams) :: later)).wall := by
  have hsound := sound_run playing true polling view events
  have hsupported := supported_run (opened playing true polling view) events
  refine ⟨fun op hop => ⟨rfl, hsound.wall.undisturbed hsupported hop⟩,
    fun hsafe hview hvisible hpolled => ?_, ?_, fun streams later hopen hsafe => ?_⟩
  · exact hsound.wall.reconcile_eq_self_of_unchanged hsupported hsafe hview hvisible hpolled
  · exact hsound.wall.reconcile_reconcile hsupported
  -- from the first list on the wall is settled, and what is settled stays so
  · have hlisted := hsound.after (.operation (.setStreams streams))
    have hsettled := settled_run (Controller.settled_setStreams hsound.wall streams) hlisted hopen
    have hstill := supported_run (opened playing true polling view)
      (events ++ .operation (.setStreams streams) :: later)
    rw [run_append, run_cons] at hstill hsafe ⊢
    exact hsettled.reconcile_eq_self (hlisted.run later).wall hstill hsafe

/-- Both streams are on screen, the gate's session begins, and its detector is
asked. -/
def bothRun : List Event :=
  [ .operation (.setStreams twoStreams),
    .playing (.signal "gate" ⟨.ok default, .ok 1⟩ 0 .begins),
    .polling (.signal "gate" 0 .begins) ]

/-- A wall of one tile keeps the gate, with its session and its task, and the
yard leaves; when it comes back it gets a new session. -/
theorem minimal_disturbance_of_two_streams :
    ((opened {} true {} {}).run bothRun).wall.visible = ["gate", "yard"]
      ∧ (((opened {} true {} {}).run bothRun).after
          (.operation (.setLayout .single))).wall.visible = ["gate"]
      ∧ (((opened {} true {} {}).run bothRun).after
          (.operation (.setLayout .single))).wall.players.sessions.get? "gate"
        = some { point := .building .firstStart 1, phase := .attaching, epoch := 1 }
      ∧ Poller.Agrees ((opened {} true {} {}).run bothRun).wall.poller
          (((opened {} true {} {}).run bothRun).after
            (.operation (.setLayout .single))).wall.poller "gate"
      ∧ (((opened {} true {} {}).run bothRun).after
          (.operation (.setLayout .single))).wall.players.TornDown "yard"
      ∧ (∃ n, 2 ≤ n ∧ n < 3
          ∧ (((opened {} true {} {}).run (bothRun ++ [.operation (.setLayout .single)])).after
              (.operation (.stepPage 1))).wall.players.sessions.get? "yard"
            = some { serial := n })
      ∧ ((opened {} true {} {}).run bothRun).wall.reconcile
          = ((opened {} true {} {}).run bothRun).wall := by
  have hbefore : ((opened {} true {} {}).run bothRun).wall.visible = ["gate", "yard"] := by decide
  have hafter : (((opened {} true {} {}).run bothRun).after
      (.operation (.setLayout .single))).wall.visible = ["gate"] := by decide
  have hsession : ((opened {} true {} {}).run bothRun).wall.players.sessions.get? "gate"
      = some { point := .building .firstStart 1, phase := .attaching, epoch := 1 } := by decide
  have hopened := sound_opened {} true {} {}
  have hintime : ∀ event ∈ bothRun, ∀ name, ¬ event.IsLate {} name := by
    rintro event hmem name ⟨supply, now, signal, rfl, hlate⟩
    simp only [bothRun, List.mem_cons, Event.playing.injEq, Player.Activity.signal.injEq,
      List.not_mem_nil, reduceCtorEq, or_false, false_or] at hmem
    obtain ⟨-, -, rfl, -⟩ := hmem
    exact hlate (by decide)
  have hsafe : ((opened {} true {} {}).run bothRun).wall.Safe :=
    safe_run {} hintime (by decide)
  -- the gate is polled because it belongs on screen
  have hsettled : ((opened {} true {} {}).run bothRun).wall.Settled :=
    settled_run (Controller.settled_setStreams hopened.wall twoStreams)
      (hopened.after (.operation (.setStreams twoStreams))) (by simp)
  have hpolled : ((opened {} true {} {}).run bothRun).wall.poller.isEnabled "gate" = true :=
    ((hopened.run bothRun).wall.poller "gate").isEnabled_iff.2
      ⟨(hsettled.polled "gate").2 (by decide), hsafe.tasks "gate"⟩
  have hstays : (((opened {} true {} {}).run bothRun).after
      (.operation (.setLayout .single))).wall.poller.isEnabled "gate" = true :=
    (Controller.isEnabled_reconcilePoller _ _ _).2 (by decide)
  obtain ⟨hdisturbs, -, -, -⟩ := minimal_disturbance {} {} {} bothRun
  obtain ⟨-, hfirst⟩ := hdisturbs (.setLayout .single) (by simp)
  obtain ⟨⟨x, hx, hkept⟩, -⟩ :=
    hfirst.kept "gate" (by simp [hbefore]) (by simp [hafter]) (hsafe.sessions "gate")
  obtain ⟨hcomes, -, -, -⟩ :=
    minimal_disturbance {} {} {} (bothRun ++ [.operation (.setLayout .single)])
  obtain ⟨-, hsecond⟩ := hcomes (.stepPage 1) (by simp)
  obtain ⟨-, -, -, hagain⟩ := minimal_disturbance {} {} {} []
  rw [hx] at hsession
  cases hsession
  exact ⟨hbefore, hafter, hkept,
    hfirst.polled "gate" (hsafe.tasks "gate") (hstays.trans hpolled.symm),
    hfirst.left "yard" (by simp [hbefore]) (by simp [hafter]),
    hsecond.entered "yard" (by decide) (by decide),
    hagain twoStreams [_, _] (by simp) hsafe⟩

/-- With the longest interval between refreshes the gate crashes once it plays.
A reconciliation for which nothing else is to be done gives it a new session. -/
theorem crashed_restarts :
    ((opened Player.History.patient true {} {}).run gatePlays).wall.visible = ["gate", "yard"]
      ∧ ((opened Player.History.patient true {} {}).run gatePlays).wall.reconcile.view
        = ((opened Player.History.patient true {} {}).run gatePlays).wall.view
      ∧ ((opened Player.History.patient true {} {}).run gatePlays).wall.reconcile.visible
        = ["gate", "yard"]
      ∧ ((opened Player.History.patient true {} {}).run gatePlays).wall.players.attaches = 2
      ∧ ((opened Player.History.patient true {} {}).run
          gatePlays).wall.reconcile.players.sessions.get? "gate" = some { serial := 2 } :=
  ⟨by decide, rfl, by decide, rfl, by decide⟩

end History

end VideoWall.Wall
