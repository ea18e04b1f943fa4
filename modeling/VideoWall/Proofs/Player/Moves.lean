/-
What the moves of a session keep: the session and its element stay on one
source, and at every point of waiting the session is well placed.

# The invariant

A session that has not yet pointed its element at a source has epoch
nought. From then on its epoch is the element's epoch and the element has
a source (`OnSource`), since nobody else changes the source of an element
while a session owns it. So a session holds an engine only on the source
that the engine was attached to (`Grounded`).

Where a session waits says what it holds (`Placed`): while an attach or a
play is under way it holds the engine that is asked, and at rest it holds
one just when it plays or waits for the user.

# The proof

A step is put together from moves, and each move has one lemma here:
moves that go on keep `Grounded`, moves that end at a point of waiting
turn it into `Settled`, which is `Grounded` and `Placed`. A whole step is
then a case for each place where it may land (`Session.Sound.step`).
-/
import VideoWall.Proofs.Media.Epochs
import VideoWall.Proofs.Player.Landings

namespace VideoWall.Player

open Media

-- ======================================================== the invariant

namespace Session

/-- A session on its source knows the element by its epoch. -/
theorem OnSource.knows {x : Session} {e : Element} (h : x.OnSource e) : e.Knows x.epoch :=
  ⟨Nat.le_of_eq h.1, fun _ => h.2⟩

/-- A sound session has not ended. -/
theorem Sound.isRunning {x : Session} {e : Element} (h : x.Sound e) : x.isRunning = true := by
  have hne : x.point ≠ .over := by
    intro hover
    have hp := h.placed
    rw [Placed, hover] at hp
    exact hp
  simpa [Session.isRunning] using hne

/-- A new session is sound on any element. -/
theorem sound_fresh (serial : Nat) (e : Element) : ({ serial } : Session).Sound e :=
  ⟨Or.inl rfl, (fun h => by cases h), trivial⟩

/-- What the session holds stays sound on any element that has the same
source at the same epoch. -/
theorem Sound.congr {x : Session} {e e' : Element} (h : x.Sound e)
    (hepoch : e'.epoch = e.epoch) (hsource : e'.source = e.source) : x.Sound e' := by
  have hon : x.OnSource e → x.OnSource e' := by
    intro ho
    rw [OnSource, hepoch, hsource]
    exact ho
  refine ⟨h.epoch.imp_right hon, fun he => hon (h.engine he), ?_⟩
  have hp := h.placed
  unfold Placed at hp ⊢
  cases hpoint : x.point with
  | building why engine =>
      rw [hpoint] at hp
      exact hon hp
  | _ =>
      rw [hpoint] at hp
      exact hp

end Session

namespace Move

variable {e₀ : Element} {m : Move} {cfg : Settings} {supply : Supply} {now : Nat}

/-- A step on its way that began with element `e₀`: what the element knew
then it still knows, and every attach was made for an epoch it knows. -/
structure Grounded (e₀ : Element) (m : Move) : Prop where
  epoch : m.session.epoch = 0 ∨ m.session.OnSource m.element
  engine : m.session.engine.isSome = true → m.session.OnSource m.element
  clean : m.element.Clean
  keeps : ∀ k, e₀.Knows k → m.element.Knows k
  attached : ∀ engine k url, Call.attach engine k url ∈ m.calls → m.element.Knows k

/-- A step that has come to a point of waiting. -/
structure Settled (e₀ : Element) (m : Move) : Prop extends Grounded e₀ m where
  placed : m.session.Placed m.element

/-- A settled move leaves a sound session. -/
theorem Settled.sound (h : Settled e₀ m) : m.session.Sound m.element :=
  ⟨h.epoch, h.engine, h.placed⟩

-- ========================================================== small moves

/-- A grounded move may enter another phase. -/
theorem Grounded.enter (h : Grounded e₀ m) (p : Phase) : Grounded e₀ (m.enter p) :=
  ⟨h.epoch, h.engine, h.clean, h.keeps, h.attached⟩

theorem Grounded.goto (h : Grounded e₀ m) (p : Point) : Grounded e₀ (m.goto p) :=
  ⟨h.epoch, h.engine, h.clean, h.keeps, h.attached⟩

theorem Grounded.rest (h : Grounded e₀ m) : Grounded e₀ (m.rest cfg now) :=
  ⟨h.epoch, h.engine, h.clean, h.keeps, h.attached⟩

/-- A call is harmless unless it is an attach for an unknown epoch. -/
theorem Grounded.call (h : Grounded e₀ m) {c : Call}
    (hc : ∀ engine k url, c = .attach engine k url → m.element.Knows k) :
    Grounded e₀ (m.call c) := by
  refine ⟨h.epoch, h.engine, h.clean, h.keeps, ?_⟩
  intro engine k url hmem
  rcases List.mem_append.1 hmem with hmem | hmem
  · exact h.attached engine k url hmem
  · exact hc engine k url (List.mem_singleton.1 hmem).symm

/-- An engine that was attached for the present source is taken in hand. -/
private theorem Grounded.hold (h : Grounded e₀ m) (engine : EngineId)
    (hon : m.session.OnSource m.element) :
    Grounded e₀ { m with session.engine := some engine } :=
  ⟨h.epoch, fun _ => hon, h.clean, h.keeps, h.attached⟩

/-- Epoch and source being what they were, a write only has to leave the
element clean. -/
theorem Grounded.write (h : Grounded e₀ m) {w : Element.Write}
    (hclean : (m.element.after m.session.epoch w).Clean) : Grounded e₀ (m.write w) := by
  have hon : m.session.OnSource m.element → (m.write w).session.OnSource (m.write w).element := by
    intro ho
    show _ = (m.element.after m.session.epoch w).epoch
      ∧ (m.element.after m.session.epoch w).source.isSome = true
    rw [Element.epoch_after, Element.source_after]
    exact ho
  exact ⟨h.epoch.imp_right hon, fun he => hon (h.engine he), hclean,
    fun k hk => (h.keeps k hk).after _ _,
    fun engine k url hmem => (h.attached engine k url hmem).after _ _⟩

/-- A notice leaves a move grounded. -/
theorem Grounded.notice (h : Grounded e₀ m) {w : Element.Write} (hw : w.isNotice = true) :
    Grounded e₀ (m.write w) :=
  h.write (h.clean.notice _ hw)

/-- A disposal leaves a move grounded. -/
theorem Grounded.dispose (h : Grounded e₀ m) : Grounded e₀ m.dispose := by
  unfold Move.dispose
  split
  · exact h
  · refine Grounded.call ?_ (fun _ _ _ hc => by cases hc)
    exact ⟨h.epoch, (fun he => by cases he), h.clean, h.keeps, h.attached⟩

@[simp]
theorem engine_dispose (m : Move) : m.dispose.session.engine = none := by
  unfold Move.dispose
  split
  · assumption
  · rfl

/-- To dispose takes the engine away and changes nothing else of a session. -/
theorem session_dispose (m : Move) : m.dispose.session = { m.session with engine := none } := by
  unfold Move.dispose
  split
  case h_1 hnone => rw [← hnone]
  case h_2 => rfl

theorem element_dispose (m : Move) : m.dispose.element = m.element := by
  unfold Move.dispose
  split
  · rfl
  · rfl

-- ================================================= moves that come to rest

/-- A failed session holds no engine. -/
theorem Grounded.fail (h : Grounded e₀ m) (message : String) :
    Settled e₀ (m.fail cfg now message) := by
  have hg : Grounded e₀ ((m.dispose.write (.error message)).enter .failed) :=
    (h.dispose.notice rfl).enter _
  refine { hg.rest with placed := ?_ }
  exact Or.inl ⟨rfl, engine_dispose m⟩

/-- A session that waits for the user holds the engine to go on with. -/
theorem Grounded.awaitUser (h : Grounded e₀ m) (hengine : m.session.engine.isSome = true) :
    Settled e₀ (m.awaitUser cfg now) := by
  have hg : Grounded e₀ ((m.write .playPrompt).enter .awaitingUser) := (h.notice rfl).enter _
  refine { hg.rest with placed := ?_ }
  exact Or.inr ⟨Or.inr rfl, hengine⟩

-- ==================================================== moves that go on

/-- A grounded move settles when a building fails. -/
theorem Grounded.buildFailed (h : Grounded e₀ m) (message : String) (why : Purpose) :
    Settled e₀ (m.buildFailed cfg now message why) := by
  unfold Move.buildFailed
  split
  · exact { h.goto _ with placed := trivial }
  · exact h.fail message

/-- Pointing the element at a source brings session and element to a new
epoch, and an engine may be attached for that. -/
theorem Grounded.attach (h : Grounded e₀ m) (engine : EngineId) (url : Url) {element : Element}
    (hstep : element = m.element.setSource url ∨ element = m.element.refreshSource url) :
    Grounded e₀
      (Move.call (.attach engine element.epoch url)
        { m with element, session.epoch := element.epoch }) := by
  have hsource : element.source.isSome = true := by
    rcases hstep with rfl | rfl <;> rfl
  have hknows : ∀ k, m.element.Knows k → element.Knows k := by
    intro k hk
    rcases hstep with rfl | rfl
    · exact hk.setSource url
    · exact hk.refreshSource url
  have hpointed : Grounded e₀ { m with element, session.epoch := element.epoch } :=
    ⟨Or.inr ⟨rfl, hsource⟩, fun _ => ⟨rfl, hsource⟩, Element.clean_of_source hsource,
      fun k hk => hknows k (h.keeps k hk),
      fun engine k u hmem => hknows k (h.attached engine k u hmem)⟩
  refine hpointed.call ?_
  intro _ k _ hc
  cases hc
  exact Session.OnSource.knows (x := { epoch := element.epoch }) ⟨rfl, hsource⟩

/-- A build waits for the engine on the new source, or has failed. -/
theorem Grounded.build (h : Grounded e₀ m) (why : Purpose) :
    Settled e₀ (m.build cfg supply now why) := by
  obtain ⟨source, created⟩ := supply
  have hasked := h.dispose.call (c := .source source) (by simp)
  cases source with
  | error message => exact hasked.buildFailed message why
  | ok url =>
      have hcreated := hasked.call (c := .create created) (by simp)
      cases created with
      | error message => exact hcreated.buildFailed message why
      | ok engine =>
          have hattached := hcreated.attach engine url (Or.inl rfl)
          exact { hattached.goto (.building why engine) with placed := ⟨rfl, rfl⟩ }

/-- A recovery gives the engine away and waits. -/
theorem Grounded.recover (h : Grounded e₀ m) (hengine : m.session.engine.isSome = true)
    (message : String) : Settled e₀ (m.recover cfg now message) := by
  have hknows := (h.engine hengine).knows
  have hg : Grounded e₀
      ((m.enter .recovering).write (.status ("reconnecting: " ++ message))) :=
    (h.enter _).write (h.clean.after hknows _)
  exact { hg.dispose.goto _ with placed := trivial }

end Move

-- ============================================================ the steps

namespace Session

variable {cfg : Settings} {supply : Supply} {now : Nat} {signal : Signal}
variable {x : Session} {e : Element} {m : Move}

/-- The beginning of a step of a sound session on a clean element. Clock and
wishes of the session may have been set before. -/
private theorem Sound.grounded (h : x.Sound e) (he : e.Clean) (y : Session)
    (hepoch : y.epoch = x.epoch) (hengine : y.engine = x.engine) :
    Move.Grounded e ⟨y, e, []⟩ := by
  have hon : x.OnSource e → y.OnSource e := fun ho => ⟨hepoch.trans ho.1, ho.2⟩
  refine ⟨?_, ?_, he, fun _ hk => hk, fun _ _ _ hmem => by cases hmem⟩
  · show y.epoch = 0 ∨ _
    rw [hepoch]
    exact h.epoch.imp_right hon
  · intro hheld
    have hheld' : y.engine.isSome = true := hheld
    rw [hengine] at hheld'
    exact hon (h.engine hheld')

/-- A step of a sound session on a clean element ends well placed. -/
theorem Sound.step (h : x.Sound e) (he : e.Clean) (hstep : Step cfg supply now x e signal m) :
    Move.Settled e m := by
  have hg := h.grounded he
  -- a session that waits for an engine holds it, and `hp` says so once the point is
  -- known
  have hp := h.placed
  unfold Placed at hp
  cases h.lands hstep with
  | begins hpoint => exact (hg { x with phase := .attaching } rfl rfl).build .firstStart
  | @told why engine hpoint hplay =>
      rw [hpoint] at hp
      have htold := ((hg x rfl rfl).hold engine hp).call
        (c := .play engine (why.muted cfg)) (by simp)
      refine { htold.goto (.starting why.attempt (why.muted cfg)) with
        placed := ⟨rfl, fun hwhy => ?_⟩ }
      cases why <;> cases hwhy
  | @offered why engine hpoint hwhy hplay =>
      rw [hpoint] at hp
      exact ((hg x rfl rfl).hold engine hp).awaitUser rfl
  | @postponed engine message hpoint =>
      rw [hpoint] at hp
      exact { ((hg x rfl rfl).hold engine hp).goto _ with placed := trivial }
  | @refused why engine message hpoint hwhy =>
      rw [hpoint] at hp
      exact ((hg x rfl rfl).hold engine hp).fail message
  | pauseOver why hpoint hdue => exact (hg x rfl rfl).build why.purpose
  | @reissued engine hpoint hengine hphase =>
      have htold := (hg x rfl rfl).call (c := .play engine cfg.autoplayMuted) (by simp)
      refine { htold.goto (.starting .refresh cfg.autoplayMuted) with
        placed := ⟨?_, fun _ => hphase⟩ }
      exact Option.isSome_iff_exists.2 ⟨engine, hengine⟩
  | outdated message hpoint hengine => exact (hg x rfl rfl).recover hengine message
  | @plays why muted hpoint hengine =>
      have hknows := (h.engine hengine).knows
      have hwritten := (hg x rfl rfl).write (he.after hknows (.playing muted))
      exact { (hwritten.enter .playing).rest with placed := Or.inr ⟨Or.inl rfl, hengine⟩ }
  | declined message hpoint => exact (hg { x with phase := .attaching } rfl rfl).build .userPlay
  | lapsed message hpoint hengine => exact (hg x rfl rfl).recover hengine message
  | balks message hpoint hwhy hengine => exact (hg x rfl rfl).awaitUser hengine
  | goesOn hpoint hwishes hphase hengine =>
      exact { (hg x.heard rfl rfl).rest with placed := Or.inr ⟨Or.inl hphase, hengine⟩ }
  | @resumes engine hpoint hwishes hphase hengine =>
      have htold := (hg x.heard rfl rfl).call (c := .play engine false) (by simp)
      refine { htold.goto (.starting .resume false) with
        placed := ⟨?_, fun hwhy => by cases hwhy⟩ }
      exact Option.isSome_iff_exists.2 ⟨engine, hengine⟩
  | rebuilds hpoint hwishes hphase =>
      exact (hg { x.heard with phase := .attaching } rfl rfl).build .userPlay
  | fatal message hpoint hphase hengine =>
      exact (hg { x with restarts := true } rfl rfl).recover hengine message
  | @refreshes due url engine hpoint hclock hphase hdue hsource hengine =>
      have hasked := (hg (x.dated cfg now due) rfl rfl).call (c := .source (.ok url)) (by simp)
      have hattached := hasked.attach engine url (Or.inr rfl)
      refine { hattached.goto .refreshing with placed := ⟨?_, hphase⟩ }
      exact Option.isSome_iff_exists.2 ⟨engine, hengine⟩
  -- without a source the refresh is skipped, and the session plays on
  | @skips due message hpoint hclock hphase hdue hsource hengine =>
      have hasked := (hg (x.dated cfg now due) rfl rfl).call (c := .source (.error message))
        (by simp)
      exact { hasked.rest with placed := Or.inr ⟨Or.inl hphase, hengine⟩ }

end Session

end VideoWall.Player
