/-
Engine accounting: what becomes of every engine that is made.

# The statement

`History.engines_accounted`, for every history in which the engines that
are made are told apart. Each engine belongs to one session. A session
keeps one engine at most, and disposes it before it asks for another one.
An engine whose attach came back is disposed once, at the latest when its
session ends. What is disposed is not spoken of again: it is not
attached, told to play, listened to or disposed. And the only engines
that get lost are those that a session which ends is still attaching, and
those in the hand of a session that crashes. No session crashes as long as
the clock can tell a whole interval between refreshes from where it is.

That is a real exception: where the interval is longer than that, the first
engine that plays is dropped at once (`History.engine_dropped`).

Every attach is for the epoch that the element has come to, which is
beyond all epochs that an engine was attached for on that element before,
and with a source that was asked for after the attach before it.

# The proof

The deeds of each session are a walk by the rules of custody
(`Kept.walk`). Engines being told apart, an engine is made once, so in
its session the disposals and what is in hand add up to one
(`Kept.balance`), and the laws are read off the place where the walk is.

An attach is made at the end of a step, and only by a build or a refresh,
which have just asked for the source and brought the element to a new
epoch (`Session.Lands.issues`). All epochs that were attached for before
are known to the element (`History.Sound`), and so the new one is beyond
them.
-/
import VideoWall.Proofs.Player.Dates
import VideoWall.Proofs.Player.Ledger

namespace VideoWall.Player

open Media

-- ============================================================= attaches

/-- Whether a call attaches an engine. -/
def Call.attaches : Call → Bool
  | .attach _ _ _ => true
  | _ => false

/-- Where nothing before the last call attaches, an attach is the last call. -/
theorem attach_last {calls before later : List Call} {c c' : Call}
    (h : calls ++ [c] = before ++ c' :: later) (hcalls : ∀ d ∈ calls, d.attaches = false)
    (hc' : c'.attaches = true) : before = calls ∧ c' = c := by
  rcases List.eq_nil_or_concat later with rfl | ⟨rest, d, rfl⟩
  · obtain ⟨hbefore, hlast⟩ := List.append_inj' h rfl
    cases hlast
    exact ⟨hbefore.symm, rfl⟩
  · rw [List.concat_eq_append, ← List.cons_append, ← List.append_assoc] at h
    obtain ⟨hfront, -⟩ := List.append_inj' h rfl
    have hnone := hcalls c' (by simp [hfront])
    rw [hc'] at hnone
    cases hnone

namespace Move

variable {m : Move} {cfg : Settings} {supply : Supply} {now : Nat} {e₀ : Element}

/-- A step that has attached nothing so far. -/
def Unattached (m : Move) : Prop := ∀ c ∈ m.calls, c.attaches = false

/-- A step, begun on element `e₀`, that attaches at most one engine, for a
new epoch that the element is left with, and with a source that it has
asked for. -/
def Issues (e₀ : Element) (m : Move) : Prop :=
  ∀ before g k url later, m.calls = before ++ .attach g k url :: later →
    k = m.element.epoch ∧ e₀.epoch < k ∧ .source (.ok url) ∈ before
      ∧ ∀ c ∈ before, c.attaches = false

/-- A move without an engine issues no order to one. -/
theorem Unattached.issues (h : m.Unattached) : Issues e₀ m := by
  intro before g k url later hcalls
  have hattach := h (.attach g k url) (by simp [hcalls])
  cases hattach

/-- A call that attaches nothing leaves a move without an engine. -/
theorem Unattached.call (h : m.Unattached) {c : Call} (hc : c.attaches = false) :
    (m.call c).Unattached := by
  intro c' hmem
  rcases List.mem_append.1 hmem with hold | hnew
  · exact h c' hold
  · rw [List.mem_singleton.1 hnew]
    exact hc

theorem Unattached.dispose (h : m.Unattached) : m.dispose.Unattached := by
  unfold Move.dispose
  split
  · exact h
  · exact Unattached.call (m := { m with session.engine := none }) h rfl

theorem Unattached.fail (h : m.Unattached) (message : String) :
    (m.fail cfg now message).Unattached := h.dispose

theorem Unattached.recover (h : m.Unattached) (message : String) :
    (m.recover cfg now message).Unattached :=
  Unattached.dispose (m := (m.enter .recovering).write (.status ("reconnecting: " ++ message))) h

theorem Unattached.buildFailed (h : m.Unattached) (message : String) (why : Purpose) :
    (m.buildFailed cfg now message why).Unattached := by
  unfold Move.buildFailed
  split
  · exact h
  · exact h.fail message

/-- A build asks for a source, and attaches its engine last of all. -/
theorem Unattached.build (h : m.Unattached) (why : Purpose) :
    Issues m.element (m.build cfg supply now why) := by
  obtain ⟨source, made⟩ := supply
  have hasked : (m.dispose.call (.source source)).Unattached := h.dispose.call rfl
  cases source with
  | error message => exact (hasked.buildFailed message why).issues
  | ok url =>
      cases made with
      | error message =>
          exact ((hasked.call (c := .create (.error message)) rfl).buildFailed message why).issues
      | ok engine =>
          have hmade : ((m.dispose.call (.source (.ok url))).call
              (.create (.ok engine))).Unattached := hasked.call rfl
          intro before g k url' later hcalls
          obtain ⟨rfl, hlast⟩ := attach_last hcalls hmade rfl
          cases hlast
          refine ⟨rfl, ?_, ?_, hmade⟩
          · show m.element.epoch < m.dispose.element.epoch + 1
            rw [element_dispose]
            exact Nat.lt_succ_self _
          · show Call.source (.ok url) ∈ (m.dispose.calls ++ [_]) ++ [_]
            simp

end Move

namespace Session

variable {cfg : Settings} {supply : Supply} {now : Nat} {signal : Signal}
variable {x : Session} {e : Element} {m : Move}

/-- Only builds and refreshes attach, each once. -/
theorem Lands.issues (h : x.Lands cfg supply now e signal m) : m.Issues e := by
  have hbegin : ∀ y : Session, Move.Unattached ⟨y, e, []⟩ := by
    intro y c hc
    cases hc
  cases h with
  | begins => exact (hbegin _).build _
  | pauseOver => exact (hbegin _).build _
  | declined => exact (hbegin _).build _
  | rebuilds => exact (hbegin _).build _
  | told | reissued | resumes | skips =>
      refine Move.Unattached.issues ?_
      intro c hc
      rw [List.mem_singleton.1 hc]
      rfl
  | offered | postponed | plays | balks | goesOn => exact Move.Unattached.issues (hbegin x)
  | refused message => exact ((hbegin _).fail message).issues
  | outdated message => exact ((hbegin _).recover message).issues
  | lapsed message => exact ((hbegin _).recover message).issues
  | fatal message => exact ((hbegin _).recover message).issues
  | @refreshes due url engine =>
      intro before g k url' later hcalls
      have hasked : ∀ c ∈ [Call.source (.ok url)], c.attaches = false := by simp [Call.attaches]
      have hcalls' : [Call.source (.ok url)] ++ [Call.attach engine _ url]
          = before ++ .attach g k url' :: later := hcalls
      obtain ⟨rfl, hlast⟩ := attach_last hcalls' hasked rfl
      cases hlast
      exact ⟨rfl, Nat.lt_succ_self _, List.mem_singleton_self _, hasked⟩

/-- Nor does a crash attach any more. -/
private theorem Lands.issues_crash (h : x.Lands cfg supply now e signal m) :
    (x.crash signal e m).Issues e := by
  rcases Registry.crash_cases x signal e m with ⟨helement, hcalls⟩ | ⟨-, hcalls⟩
  · unfold Move.Issues
    rw [helement, hcalls]
    exact h.issues
  · refine Move.Unattached.issues fun c hc => ?_
    rw [hcalls] at hc
    cases hc

/-- What a session keeps: the engine in its hand, or the one that it
attaches. -/
def Keeps (x : Session) (g : EngineId) : Prop :=
  x.engine = some g ∨ ∃ why, x.point = .building why g

/-- What is kept is in the hand, and there is room for one engine. -/
theorem Hands.keeps {a : Hand} (h : x.Hands a) {g : EngineId} :
    x.Keeps g ↔ a.engine? = some g := by
  unfold Keeps
  cases h with
  | attaching hpoint hengine => simp [hpoint, hengine, Hand.engine?]
  | holding hpoint hengine => simp [hpoint, hengine, Hand.engine?]
  | empty hpoint hengine => simp [hpoint, hengine, Hand.engine?]

end Session

-- ============================================================== engines

namespace Entry

/-- The epoch that an entry attaches an engine for on the element of a
stream. -/
def epoch? (name : String) : Entry → Option Nat
  | ⟨_, stream, .call (.attach _ k _)⟩ => if stream = name then some k else none
  | _ => none

end Entry

/-- The engines that are made in a ledger. -/
def enginesIn (book : List Entry) : List EngineId := created (book.map (·.deed))

/-- How often an engine is disposed. -/
def disposals (g : EngineId) (book : List Entry) : Nat :=
  book.countP fun entry => entry.deed.disposes g

/-- The accounts of a history's ledger. -/
structure Accounted (h : History) (events : List Event) : Prop where
  /-- The ledger has the calls that were made. -/
  calls : (h.run events).calls = h.calls ++ callsIn (h.ledger events)
  /-- Each engine belongs to one session. -/
  owner : ∀ a ∈ h.ledger events, ∀ b ∈ h.ledger events, ∀ g,
    a.deed.engine? = some g → b.deed.engine? = some g → a.session = b.session
  /-- A session keeps at most one engine at a time. -/
  single : ∀ name x g g', (h.run events).players.Has name x → x.Keeps g → x.Keeps g' → g = g'
  /-- It disposes the one before it asks for another one. -/
  inTurn : ∀ n g answer before between later,
    deedsOf n (h.ledger events)
        = before ++ .call (.create (.ok g)) :: (between ++ .call (.create answer) :: later) →
      Deed.call (.dispose g) ∈ between
  /-- An engine whose attach came back is disposed once, or held and not
  disposed so far, or its session has crashed. -/
  once : ∀ n g, Deed.returned g ∈ deedsOf n (h.ledger events) →
    disposals g (h.ledger events) = 1
      ∨ disposals g (h.ledger events) = 0
        ∧ ((∃ name x, (h.run events).players.Has name x ∧ x.serial = n ∧ x.engine = some g)
          ∨ ∃ before, deedsOf n (h.ledger events) = before ++ [.crashed])
  /-- When its session ends it is disposed. -/
  byTheEnd : ∀ n before later, deedsOf n (h.ledger events) = before ++ .ended :: later →
    later = [] ∧ ∀ g, Deed.returned g ∈ before → disposals g (h.ledger events) = 1
  /-- A session crashes once, and only where the clock cannot tell a whole
  interval between refreshes. -/
  crashes : ∀ n before later, deedsOf n (h.ledger events) = before ++ .crashed :: later →
    later = [] ∧ ∃ name supply now signal, .activity (.signal name supply now signal) ∈ events
      ∧ ¬ Clock.IsInstant (now + h.players.settings.refreshInterval)
  /-- A disposed engine is not spoken of again. -/
  final : ∀ n stream g before later,
    h.ledger events = before ++ ⟨n, stream, .call (.dispose g)⟩ :: later →
      ∀ entry ∈ later, entry.deed.engine? ≠ some g
  /-- An engine that is not disposed is kept, or its build was cut short, or its
  session has crashed. -/
  lost : ∀ n g, Deed.call (.create (.ok g)) ∈ deedsOf n (h.ledger events) →
    disposals g (h.ledger events) = 0 →
      (∃ name x, (h.run events).players.Has name x ∧ x.serial = n ∧ x.Keeps g)
        ∨ (∃ before k url, deedsOf n (h.ledger events)
            = before ++ [.call (.create (.ok g)), .call (.attach g k url), .ended])
        ∨ ∃ before, deedsOf n (h.ledger events) = before ++ [.crashed]
  /-- An attach is for the present epoch of the element, which is beyond
  those of all attaches before it, and with a source that was asked for
  since the last one. -/
  attaches : ∀ before event after, events = before ++ event :: after →
    ∀ earlier n name g k url later,
      (h.run before).entries event = earlier ++ ⟨n, name, .call (.attach g k url)⟩ :: later →
        k = ((h.run (before ++ [event])).players.element name).epoch
          ∧ (∀ entry ∈ h.ledger before ++ earlier, ∀ j, entry.epoch? name = some j → j < k)
          ∧ ∃ prior since,
              h.ledger before ++ earlier = prior ++ ⟨n, name, .call (.source (.ok url))⟩ :: since
                ∧ ∀ entry ∈ since, entry.epoch? name = none

-- ---------------------------------------------------- engines told apart

/-- The engines of a session are among those of the ledger. -/
theorem created_deedsOf (n : Nat) (book : List Entry) :
    List.Sublist (created (deedsOf n book)) (enginesIn book) :=
  (List.filter_sublist.map _).filterMap _

/-- The engines made are those that a creation returned. -/
theorem mem_created {deeds : List Deed} {g : EngineId} :
    g ∈ created deeds ↔ Deed.call (.create (.ok g)) ∈ deeds := by
  unfold created
  rw [List.mem_filterMap]
  constructor
  · rintro ⟨d, hd, hg⟩
    unfold Deed.created? at hg
    split at hg
    · cases hg
      exact hd
    · cases hg
  · intro hd
    exact ⟨_, hd, rfl⟩

/-- Engines being told apart, one is made by one session only. -/
theorem session_of_created {book : List Entry} (hfresh : (enginesIn book).Nodup) {g : EngineId}
    {n n' : Nat} (hn : g ∈ created (deedsOf n book)) (hn' : g ∈ created (deedsOf n' book)) :
    n = n' := by
  induction book with
  | nil => cases hn
  | cons entry rest ih =>
      have hsplit : ∀ m, g ∈ created (deedsOf m (entry :: rest)) →
          (entry.session = m ∧ entry.deed.created? = some g) ∨ g ∈ created (deedsOf m rest) := by
        intro m hm
        by_cases hsession : entry.session = m
        · have hcons : deedsOf m (entry :: rest) = entry.deed :: deedsOf m rest := by
            simp [deedsOf, hsession]
          rw [hcons, Hand.mem_created_cons] at hm
          exact hm.imp_left fun hd => ⟨hsession, hd⟩
        · have hcons : deedsOf m (entry :: rest) = deedsOf m rest := by
            simp [deedsOf, hsession]
          rw [hcons] at hm
          exact Or.inr hm
      have hrest : (enginesIn rest).Nodup :=
        hfresh.sublist ((List.sublist_cons_self _ _).filterMap _)
      -- the first entry makes an engine that none of the others makes
      have hfirst : entry.deed.created? = some g → ∀ m, g ∉ created (deedsOf m rest) := by
        intro hmade m hm
        have hagain : g ∈ enginesIn rest := (created_deedsOf m rest).subset hm
        have hcons : enginesIn (entry :: rest) = g :: enginesIn rest := by
          simp [enginesIn, created, hmade]
        rw [hcons] at hfresh
        exact (List.nodup_cons.1 hfresh).1 hagain
      rcases hsplit n hn with ⟨rfl, hmade⟩ | hlater
      · rcases hsplit n' hn' with ⟨rfl, -⟩ | hlater'
        · rfl
        · exact absurd hlater' (hfirst hmade n')
      · rcases hsplit n' hn' with ⟨-, hmade⟩ | hlater'
        · exact absurd hlater (hfirst hmade n)
        · exact ih hrest hlater hlater'

namespace History

variable {h : History} {book : List Entry} {g : EngineId} {n : Nat}

/-- An engine that is spoken of was made by the session that speaks of it. -/
theorem Kept.maker (hk : Kept h book) {entry : Entry} (hentry : entry ∈ book)
    (hg : entry.deed.engine? = some g) : g ∈ created (deedsOf entry.session book) := by
  obtain ⟨a, hwalk, -⟩ := hk.walk entry.session
  rcases Hand.made_of_mentioned hwalk (mem_deedsOf.2 ⟨_, hentry⟩) hg with hnone | hmade
  · cases hnone
  · exact hmade

/-- All disposals of an engine are made by the session that made it. -/
private theorem Kept.disposals_eq (hk : Kept h book) (hfresh : (enginesIn book).Nodup)
    (hmade : g ∈ created (deedsOf n book)) :
    disposals g book = (deedsOf n book).countP (Deed.disposes g) := by
  unfold disposals deedsOf
  rw [List.countP_map, List.countP_filter]
  refine List.countP_congr ?_
  intro entry hentry
  simp only [Function.comp_apply, Bool.and_eq_true, decide_eq_true_eq, iff_self_and]
  intro hdisposes
  have hg : entry.deed.engine? = some g := by
    unfold Deed.disposes at hdisposes
    split at hdisposes
    case h_1 g' heq =>
      rw [heq]
      simpa [Deed.engine?] using hdisposes
    case h_2 => cases hdisposes
  exact session_of_created hfresh (hk.maker hentry hg) hmade

/-- An engine is made once, and so it is disposed once or in hand, up to
where its session ends. -/
theorem Kept.balance (hk : Kept h book) (hfresh : (enginesIn book).Nodup)
    (hmade : g ∈ created (deedsOf n book)) {deeds : List Deed} {a : Hand}
    (hwalk : Walk Hand.Goes .empty deeds a) (ha : a ≠ .gone)
    (hdeeds : deedsOf n book = deeds ∨ ∃ d, deedsOf n book = deeds ++ [d] ∧ Hand.Parts a d) :
    disposals g book + a.holds g = 1 := by
  have hsame : created (deedsOf n book) = created deeds
      ∧ (deedsOf n book).countP (Deed.disposes g) = deeds.countP (Deed.disposes g) := by
    rcases hdeeds with hdeeds | ⟨d, hdeeds, hparts⟩
    · rw [hdeeds]
      exact ⟨rfl, rfl⟩
    · rw [hdeeds]
      cases hparts <;> simp [created, Deed.created?, Deed.disposes]
  have hcount : (created deeds).count g = 1 := by
    rw [← hsame.1]
    exact List.count_eq_one_of_mem (hfresh.sublist (created_deedsOf n book)) hmade
  have hconserved := Hand.conserved hwalk ha g
  rw [hk.disposals_eq hfresh hmade, hsame.2, hconserved, hcount]
  rfl

/-- A session that has done something lives, or it has come to its end. -/
theorem Kept.lives_or_ended (hk : Kept h book) {d : Deed} (hd : d ∈ deedsOf n book) :
    (∃ name x a, h.players.Has name x ∧ x.serial = n ∧ x.Hands a
        ∧ Walk Hand.Goes .empty (deedsOf n book) a)
      ∨ ∃ before a d, deedsOf n book = before ++ [d] ∧ Walk Hand.Goes .empty before a
          ∧ Hand.Parts a d := by
  obtain ⟨a, hwalk, hstand | hnil⟩ := hk.walk n
  · cases hstand with
    | lives hhas hserial hhands => exact Or.inl ⟨_, _, _, hhas, hserial, hhands, hwalk⟩
    | ended => exact Or.inr (Hand.walk_gone hwalk (by decide))
  · rw [hnil] at hd
    cases hd

/-- An engine that is still being attached has not come back. -/
theorem Kept.not_returned (hfresh : (enginesIn book).Nodup) {deeds : List Deed}
    (hwalk : Walk Hand.Goes .empty deeds (.attaching g))
    (hdeeds : List.Sublist deeds (deedsOf n book)) : Deed.returned g ∉ deeds := by
  intro hreturned
  obtain ⟨before, k, url, rfl, hbefore⟩ := Hand.walk_attaching hwalk
  have hmade : g ∈ created before := by
    have hmem : Deed.returned g ∈ before := by simpa using hreturned
    rcases Hand.made_of_mentioned hbefore hmem rfl with hnone | hmade
    · cases hnone
    · exact hmade
  have htwice : created (before ++ [.call (.create (.ok g)), .call (.attach g k url)])
      = created before ++ [g] := by
    simp [created, Deed.created?]
  have hnodup : (created before ++ [g]).Nodup := by
    rw [← htwice]
    exact hfresh.sublist ((hdeeds.filterMap _).trans (created_deedsOf n book))
  exact (List.nodup_append.1 hnodup).2.2 g hmade g (List.mem_singleton_self g) rfl

-- ============================================================= the laws

/-- Between two creations of a session the first engine is disposed. -/
private theorem Kept.inTurn (hk : Kept h book) {answer : Except String EngineId}
    {before between later : List Deed}
    (hdeeds : deedsOf n book
      = before ++ .call (.create (.ok g)) :: (between ++ .call (.create answer) :: later)) :
    Deed.call (.dispose g) ∈ between := by
  obtain ⟨a, hwalk, -⟩ := hk.walk n
  rw [hdeeds] at hwalk
  obtain ⟨b, b', -, hmakes, hrest⟩ := hwalk.at_place
  obtain ⟨c, c', hbetween, hasks, -⟩ := hrest.at_place
  -- an engine is asked for with nothing in hand
  have hc : c = .empty := by
    cases hasks with
    | lacks | makes => rfl
  subst hc
  cases hmakes
  have hconserved := Hand.conserved hbetween (by decide) g
  have hheld : (Hand.made g).holds g = 1 := by simp [Hand.holds, Hand.engine?]
  have hdisposed : 0 < between.countP (Deed.disposes g) := by
    have hempty : Hand.empty.holds g = 0 := rfl
    omega
  obtain ⟨d, hd, hdisposes⟩ := List.countP_pos_iff.1 hdisposed
  unfold Deed.disposes at hdisposes
  split at hdisposes
  case h_1 g' =>
    rw [beq_iff_eq] at hdisposes
    rw [hdisposes] at hd
    exact hd
  case h_2 => cases hdisposes

/-- When a session has come to its end, all engines that came back to it have
been disposed, but for the one that it held in a crash. -/
theorem Kept.parted (hk : Kept h book) (hfresh : (enginesIn book).Nodup) {before : List Deed}
    {a : Hand} {d : Deed} (hdeeds : deedsOf n book = before ++ [d])
    (hwalk : Walk Hand.Goes .empty before a) (hparts : Hand.Parts a d)
    (hreturned : Deed.returned g ∈ before) :
    disposals g book = 1 ∨ disposals g book = 0 ∧ d = .crashed := by
  have hmem : Deed.returned g ∈ deedsOf n book := by
    rw [hdeeds]
    exact List.mem_append_left _ hreturned
  obtain ⟨stream, hentry⟩ := mem_deedsOf.1 hmem
  have hmade : g ∈ created (deedsOf n book) := hk.maker hentry rfl
  have hbalance := hk.balance hfresh hmade hwalk hparts.ne_gone (Or.inr ⟨d, hdeeds, hparts⟩)
  cases hparts with
  | empty | broken => exact Or.inl hbalance
  | attaching g' =>
      -- the engine is not the one that is still being attached
      have hother : g' ≠ g := by
        rintro rfl
        have hsub : List.Sublist before (deedsOf n book) := by
          rw [hdeeds]
          exact List.sublist_append_left before _
        exact Kept.not_returned hfresh hwalk hsub hreturned
      have hnone : (Hand.attaching g').holds g = 0 := by
        simp [Hand.holds, Hand.engine?, hother]
      exact Or.inl (by omega)
  | holding g' =>
      by_cases hsame : g' = g
      · have hheld : (Hand.holding g').holds g = 1 := by simp [Hand.holds, Hand.engine?, hsame]
        exact Or.inr ⟨by omega, rfl⟩
      · have hnone : (Hand.holding g').holds g = 0 := by
          simp [Hand.holds, Hand.engine?, hsame]
        exact Or.inl (by omega)

/-- An engine whose attachment returned is disposed exactly once, is still
held, or went down with its session's crash. -/
theorem Kept.once (hk : Kept h book) (hfresh : (enginesIn book).Nodup)
    (hreturned : Deed.returned g ∈ deedsOf n book) :
    disposals g book = 1
      ∨ disposals g book = 0
        ∧ ((∃ name x, h.players.Has name x ∧ x.serial = n ∧ x.engine = some g)
          ∨ ∃ before, deedsOf n book = before ++ [.crashed]) := by
  obtain ⟨stream, hentry⟩ := mem_deedsOf.1 hreturned
  have hmade : g ∈ created (deedsOf n book) := hk.maker hentry rfl
  rcases hk.lives_or_ended hreturned with
    ⟨name, x, a, hhas, hserial, hhands, hwalk⟩ | ⟨before, a, d, hdeeds, hwalk, hparts⟩
  · have hstays : a ≠ .gone := by
      rintro rfl
      cases hhands
    have hbalance := hk.balance hfresh hmade hwalk hstays (Or.inl rfl)
    by_cases hheld : a.engine? = some g
    · have hholds : a.holds g = 1 := by simp [Hand.holds, hheld]
      refine Or.inr ⟨by omega, Or.inl ⟨name, x, hhas, hserial, ?_⟩⟩
      cases hhands with
      | attaching hpoint hengine =>
          cases hheld
          exact absurd hreturned (Kept.not_returned hfresh hwalk (List.Sublist.refl _))
      | holding hpoint hengine =>
          cases hheld
          exact hengine
      | empty => cases hheld
    · have hholds : a.holds g = 0 := by
        unfold Hand.holds
        rw [List.count_eq_zero]
        simpa [Option.mem_toList] using hheld
      exact Or.inl (by omega)
  · have hbefore : Deed.returned g ∈ before := by
      rw [hdeeds] at hreturned
      cases hparts <;> simpa using hreturned
    rcases hk.parted hfresh hdeeds hwalk hparts hbefore with hdisposed | ⟨hkept, rfl⟩
    · exact Or.inl hdisposed
    · exact Or.inr ⟨hkept, Or.inr ⟨before, hdeeds⟩⟩

/-- The end of a session is the last of its deeds. -/
theorem Kept.last (hk : Kept h book) {before later : List Deed} {d : Deed}
    (hend : ∀ a b, Hand.Goes a d b → b = .gone) (hdeeds : deedsOf n book = before ++ d :: later) :
    later = [] ∧ ∃ a, Walk Hand.Goes .empty before a ∧ Hand.Parts a d := by
  obtain ⟨a, hwalk, -⟩ := hk.walk n
  rw [hdeeds] at hwalk
  obtain ⟨b, b', hbefore, hends, hlater⟩ := hwalk.at_place
  obtain rfl := hend b b' hends
  exact ⟨(Hand.walk_of_gone hlater).1, b, hbefore, hends.parts⟩

/-- A session that ended has disposed of every engine whose attachment
returned. -/
private theorem Kept.byTheEnd (hk : Kept h book) (hfresh : (enginesIn book).Nodup)
    {before later : List Deed} (hdeeds : deedsOf n book = before ++ .ended :: later) :
    later = [] ∧ ∀ g, Deed.returned g ∈ before → disposals g book = 1 := by
  obtain ⟨rfl, a, hwalk, hparts⟩ := hk.last (fun a b hgoes => by cases hgoes <;> rfl) hdeeds
  refine ⟨rfl, fun g hreturned => ?_⟩
  rcases hk.parted hfresh hdeeds hwalk hparts hreturned with hdisposed | ⟨-, hcrashed⟩
  · exact hdisposed
  · cases hcrashed

/-- Nothing is asked of an engine after its disposal. -/
theorem Kept.final (hk : Kept h book) (hfresh : (enginesIn book).Nodup) {stream : String}
    {before later : List Entry}
    (hbook : book = before ++ ⟨n, stream, .call (.dispose g)⟩ :: later) {entry : Entry}
    (hentry : entry ∈ later) : entry.deed.engine? ≠ some g := by
  intro hg
  have hmem : entry ∈ book := by
    rw [hbook]
    exact List.mem_append_right _ (List.mem_cons_of_mem _ hentry)
  have hdisposal : (⟨n, stream, .call (.dispose g)⟩ : Entry) ∈ book := by simp [hbook]
  -- whoever speaks of the engine is the session that made it
  have hsession : entry.session = n :=
    session_of_created hfresh (hk.maker hmem hg) (hk.maker hdisposal rfl)
  have hdeeds : deedsOf n book
      = deedsOf n before ++ .call (.dispose g) :: deedsOf n later := by
    rw [hbook, deedsOf_append]
    simp [deedsOf]
  obtain ⟨a, hwalk, -⟩ := hk.walk n
  rw [hdeeds] at hwalk
  obtain ⟨b, b', hbefore, hdisposes, hlater⟩ := hwalk.at_place
  cases hdisposes
  have hmade : g ∈ created (deedsOf n before) := by
    rcases Hand.made_of_held hbefore rfl with hnone | hmade
    · cases hnone
    · exact hmade
  have hagain : g ∈ created (deedsOf n later) := by
    have hd : entry.deed ∈ deedsOf n later := mem_deedsOf.2 ⟨entry.stream, by
      rw [← hsession]
      exact hentry⟩
    rcases Hand.made_of_mentioned hlater hd hg with hnone | hmade
    · cases hnone
    · exact hmade
  -- and it would have made it twice
  have hnodup : (created (deedsOf n book)).Nodup := hfresh.sublist (created_deedsOf n book)
  have hparts : created (deedsOf n book)
      = created (deedsOf n before) ++ created (deedsOf n later) := by
    rw [hdeeds]
    unfold created
    rw [List.filterMap_append, List.filterMap_cons_none rfl]
  rw [hparts] at hnodup
  exact (List.nodup_append.1 hnodup).2.2 g hmade g hagain rfl

/-- An engine that was never disposed is still held or was lost where the
session was cut off. -/
theorem Kept.lost (hk : Kept h book) (hfresh : (enginesIn book).Nodup)
    (hmakes : Deed.call (.create (.ok g)) ∈ deedsOf n book) (hkept : disposals g book = 0) :
    (∃ name x, h.players.Has name x ∧ x.serial = n ∧ x.Keeps g)
      ∨ (∃ before k url, deedsOf n book
          = before ++ [.call (.create (.ok g)), .call (.attach g k url), .ended])
      ∨ ∃ before, deedsOf n book = before ++ [.crashed] := by
  have hmade : g ∈ created (deedsOf n book) := mem_created.2 hmakes
  have hheld : ∀ {a : Hand}, disposals g book + a.holds g = 1 → a.engine? = some g := by
    intro a hbalance
    have hpos : 0 < a.engine?.toList.count g := by
      unfold Hand.holds at hbalance
      omega
    simpa [Option.mem_toList] using List.count_pos_iff.1 hpos
  rcases hk.lives_or_ended hmakes with
    ⟨name, x, a, hhas, hserial, hhands, hwalk⟩ | ⟨before, a, d, hdeeds, hwalk, hparts⟩
  · have hstays : a ≠ .gone := by
      rintro rfl
      cases hhands
    have hbalance := hk.balance hfresh hmade hwalk hstays (Or.inl rfl)
    exact Or.inl ⟨name, x, hhas, hserial, hhands.keeps.2 (hheld hbalance)⟩
  · have hbalance := hk.balance hfresh hmade hwalk hparts.ne_gone (Or.inr ⟨d, hdeeds, hparts⟩)
    have hengine := hheld hbalance
    cases hparts with
    | empty | broken => cases hengine
    | attaching g' =>
        cases hengine
        obtain ⟨prior, k, url, rfl, -⟩ := Hand.walk_attaching hwalk
        exact Or.inr (Or.inl ⟨prior, k, url, by simp [hdeeds]⟩)
    | holding g' => exact Or.inr (Or.inr ⟨before, hdeeds⟩)

/-- What is entered of a session before it attaches an engine. -/
private theorem issued_of_enter {e : Element} {m : Move} {deeds : List Deed} {i : Nat}
    {stream : String}
    {earlier later : List Entry} {name : String} {k : Nat} {url : Url} (hissues : m.Issues e)
    (hcalls : callsIn (enter i stream deeds) = m.calls.map fun c => (stream, c))
    (hbook : earlier ++ ⟨n, name, .call (.attach g k url)⟩ :: later = enter i stream deeds) :
    stream = name ∧ k = m.element.epoch ∧ e.epoch < k
      ∧ ⟨n, name, .call (.source (.ok url))⟩ ∈ earlier
      ∧ ∀ entry ∈ earlier, entry.epoch? name = none := by
  rw [← hbook] at hcalls
  obtain ⟨before, after, hmade, rfl, hearlier⟩ := callsIn_split hcalls
  obtain ⟨hepoch, hbeyond, hasked, hnone⟩ := hissues before g k url after hmade
  have hentered : ∀ entry ∈ earlier ++ ⟨n, stream, .call (.attach g k url)⟩ :: later,
      entry.session = i := by
    rw [hbook]
    intro entry hentry
    obtain ⟨d, -, rfl⟩ := List.mem_map.1 hentry
    rfl
  refine ⟨rfl, hepoch, hbeyond, ?_, ?_⟩
  · have hmem : (stream, Call.source (.ok url)) ∈ callsIn earlier := by
      rw [hearlier]
      exact List.mem_map.2 ⟨_, hasked, rfl⟩
    obtain ⟨n', hn'⟩ := mem_callsIn.1 hmem
    have hserial := hentered _ (List.mem_append_left _ hn')
    have hserial' := hentered ⟨n, stream, .call (.attach g k url)⟩ (by simp)
    rw [show n' = n from hserial.trans hserial'.symm] at hn'
    exact hn'
  · rintro ⟨n', stream', d⟩ hentry
    unfold Entry.epoch?
    split
    case h_2 => rfl
    case h_1 j url' heq =>
      cases heq
      have hmem : _ ∈ callsIn earlier := mem_callsIn.2 ⟨_, hentry⟩
      rw [hearlier] at hmem
      obtain ⟨c, hc, hpair⟩ := List.mem_map.1 hmem
      cases hpair
      have hattach := hnone _ hc
      cases hattach

/-- What is entered by a step that attaches an engine. -/
private theorem Sound.attaches (hs : h.Sound) {event : Event} {earlier later : List Entry}
    {name : String} {k : Nat} {url : Url}
    (hentries : h.entries event = earlier ++ ⟨n, name, .call (.attach g k url)⟩ :: later) :
    k = ((h.after event).players.element name).epoch
      ∧ (h.players.element name).epoch < k
      ∧ ⟨n, name, .call (.source (.ok url))⟩ ∈ earlier
      ∧ ∀ entry ∈ earlier, entry.epoch? name = none := by
  have hshape := h.enters event
  rw [hentries] at hshape
  generalize h.after event = h' at hshape ⊢
  generalize hbook : earlier ++ ⟨n, name, .call (.attach g k url)⟩ :: later = book at hshape
  -- the element is left as the step leaves it
  have hleft : ∀ (players : Registry) (stream : String) (e : Element),
      e = (Registry.element { players with elements := players.elements.set stream e } stream) := by
    intro players stream e
    unfold Registry.element
    rw [ByName.get?_set_self]
    rfl
  cases hshape with
  | operates => simp at hbook
  | @wakes i stream x hx =>
      obtain ⟨before, after, hcancel, -⟩ :=
        callsIn_split ((congrArg callsIn hbook).trans (callsIn_wake _ _ _))
      have hattach : Call.attach g k url ∈ x.engine.toList.map Call.dispose := by
        have hmem : Call.attach g k url ∈ x.cancel.2 := by simp [hcancel]
        exact hmem
      obtain ⟨_, -, hdispose⟩ := List.mem_map.1 hattach
      cases hdispose
  | @steps stream supply now signal x m hx hstep =>
      have hlands : x.Lands h.players.settings supply now (h.players.element stream) signal m :=
        ((hs.players stream).session x hx).lands (Session.step_of_step? hstep)
      obtain ⟨rfl, hepoch, hrest⟩ :=
        issued_of_enter hlands.issues (callsIn_step _ _ _ _ _ _) hbook
      exact ⟨hepoch.trans (congrArg Element.epoch (hleft h.players stream m.element)), hrest⟩
  | @crashes stream supply now signal x m hx hstep hlate left hl =>
      have hlands : x.Lands h.players.settings supply now (h.players.element stream) signal m :=
        ((hs.players stream).session x hx).lands (Session.step_of_step? hstep)
      subst hl
      obtain ⟨rfl, hepoch, hrest⟩ :=
        issued_of_enter hlands.issues_crash (callsIn_step _ _ _ _ _ _) hbook
      exact ⟨hepoch.trans (congrArg Element.epoch (hleft h.players stream _)), hrest⟩

/-- A session crashes on a signal, where the clock cannot tell a whole interval
between refreshes. -/
private theorem Sound.late (hs : h.Sound) {event : Event} {stream : String}
    (hentry : ⟨n, stream, .crashed⟩ ∈ h.entries event) :
    ∃ name supply now signal, event = .activity (.signal name supply now signal)
      ∧ ¬ Clock.IsInstant (now + h.players.settings.refreshInterval) := by
  -- neither an answer nor a call is a crash
  have hnoReturn : ∀ (x : Session) (signal : Signal) (calls : List Call),
      Deed.crashed ∉ x.returns signal ++ calls.map .call := by
    intro x signal calls
    unfold Session.returns
    split
    · split <;> simp
    · simp
  cases event with
  | activity a =>
      cases a with
      | signal name supply now signal =>
          refine ⟨name, supply, now, signal, rfl, ?_⟩
          unfold entries at hentry
          cases hx : h.players.sessions.get? name with
          | none => simp [hx] at hentry
          | some x =>
              cases hm : x.step? h.players.settings supply now signal (h.players.element name) with
              | none => simp [hx, Session.act?_of_none hm] at hentry
              | some m =>
                  have hrule := Session.step_of_step? hm
                  have hsound := hs.players name
                  refine ((hsound.session x hx).lands hrule).late (hsound.timed x hx) ?_
                  -- in time, the session would go on and tell of no crash
                  intro htime
                  simp only [hx, Session.act?_of_some hm, if_pos htime, Session.outcome,
                    if_pos hrule.isRunning] at hentry
                  obtain ⟨d, hd, hsame⟩ := List.mem_map.1 hentry
                  cases hsame
                  rcases List.mem_append.1 hd with hdone | hlistens
                  · exact hnoReturn x signal m.calls hdone
                  · unfold Session.listening at hlistens
                    split at hlistens <;> simp at hlistens
      | write name engine epoch w => cases hentry
      | wake supply now i signal =>
          unfold entries at hentry
          cases hx : h.players.departing[i]? with
          | none => simp [hx] at hentry
          | some entry => simp [hx, enter] at hentry
  | _ => cases hentry

/-- Whatever is entered is entered by one of the events. -/
theorem mem_ledger {h : History} {events : List Event} {entry : Entry}
    (hentry : entry ∈ h.ledger events) :
    ∃ before event after, events = before ++ event :: after
      ∧ entry ∈ (h.run before).entries event := by
  induction events generalizing h with
  | nil => cases hentry
  | cons event later ih =>
      rcases List.mem_append.1 hentry with hfirst | hrest
      · exact ⟨[], event, later, rfl, hfirst⟩
      · obtain ⟨before, event', after, rfl, hentered⟩ := ih hrest
        exact ⟨event :: before, event', after, rfl, hentered⟩

/-- Every attach that is entered is known to its element. -/
private theorem knows_of_entered (settings : Settings) (supported : Bool) {events : List Event}
    {name : String} {entry : Entry} {j : Nat}
    (hentry : entry ∈ (opened settings supported).ledger events)
    (hj : entry.epoch? name = some j) :
    j ≤ (((opened settings supported).run events).players.element name).epoch := by
  obtain ⟨n, stream, d⟩ := entry
  unfold Entry.epoch? at hj
  split at hj
  case h_2 => cases hj
  case h_1 g i url heq =>
    cases heq
    split at hj
    case isFalse => cases hj
    case isTrue hname =>
      cases hj
      subst hname
      have hcalls : (stream, Call.attach g j url)
          ∈ ((opened settings supported).run events).calls := by
        rw [calls_ledger]
        exact List.mem_append_right _ (mem_callsIn.2 ⟨n, hentry⟩)
      exact ((sound_run settings supported events).attached _ _ _ _ hcalls).1

/-- Engine accounting, for every history whose engines are told apart. -/
theorem engines_accounted (settings : Settings) (supported : Bool) (events : List Event)
    (hfresh : (enginesIn ((opened settings supported).ledger events)).Nodup) :
    Accounted (opened settings supported) events := by
  have hk := kept_run settings supported events
  refine
    { calls := calls_ledger _ events
      owner := ?_
      single := ?_
      inTurn := fun n g answer before between later hdeeds => hk.inTurn hdeeds
      once := fun n g hreturned => hk.once hfresh hreturned
      byTheEnd := fun n before later hdeeds => hk.byTheEnd hfresh hdeeds
      crashes := ?_
      final := fun n stream g before later hbook entry hentry => hk.final hfresh hbook hentry
      lost := fun n g hmakes hkept => hk.lost hfresh hmakes hkept
      attaches := ?_ }
  -- the session that made an engine is the only one to have it
  · intro a ha b hb g hga hgb
    exact session_of_created hfresh (hk.maker ha hga) (hk.maker hb hgb)
  -- a session's hands are empty or hold one engine
  · intro name x g g' hhas hg hg'
    obtain ⟨a, -, hstand⟩ := hk.walks x.serial (hk.numbered.below name x hhas)
    cases hstand with
    | lives hy hserial hhands =>
        obtain ⟨-, rfl⟩ := hk.numbered.unique hy hhas hserial
        have heq : some g = some g' := (hhands.keeps.1 hg).symm.trans (hhands.keeps.1 hg')
        cases heq
        rfl
    | ended hnone => exact absurd rfl (hnone name x hhas)
  -- a crash is the last deed of its session, and its event came too late for the clock
  · intro n before later hdeeds
    obtain ⟨rfl, -⟩ := hk.last (fun a b hgoes => by cases hgoes <;> rfl) hdeeds
    have hmem : Deed.crashed ∈ deedsOf n ((opened settings supported).ledger events) := by
      simp [hdeeds]
    obtain ⟨stream, hentry⟩ := mem_deedsOf.1 hmem
    obtain ⟨prior, event, after, rfl, hentered⟩ := mem_ledger hentry
    obtain ⟨name, supply, now, signal, rfl, hlate⟩ :=
      (sound_run settings supported prior).late hentered
    rw [settings_run] at hlate
    exact ⟨rfl, name, supply, now, signal, by simp, hlate⟩
  · rintro before event after rfl earlier n name g k url later hentries
    obtain ⟨hepoch, hbeyond, hasked, hnone⟩ :=
      (sound_run settings supported before).attaches hentries
    refine ⟨?_, ?_, ?_⟩
    · rw [run_append]
      exact hepoch
    · intro entry hentry j hj
      rcases List.mem_append.1 hentry with hold | hnew
      · exact Nat.lt_of_le_of_lt (knows_of_entered settings supported hold hj) hbeyond
      · rw [hnone entry hnew] at hj
        cases hj
    · obtain ⟨prior, since, rfl⟩ := List.append_of_mem hasked
      refine ⟨_ ++ prior, since, (List.append_assoc _ _ _).symm, ?_⟩
      intro entry hentry
      exact hnone entry (List.mem_append_right _ (List.mem_cons_of_mem _ hentry))

/-- A stream plays, its engine fails, and it is torn down while the next
engine is being attached. -/
def cutShort (url : Url) : List Event :=
  [ .attach "yard",
    .activity (.signal "yard" ⟨.ok url, .ok 1⟩ 0 .begins),
    .activity (.signal "yard" ⟨.ok url, .ok 2⟩ 0 (.attached (.ok ()))),
    .activity (.signal "yard" ⟨.ok url, .ok 2⟩ 0 (.played (.ok ()))),
    .activity (.signal "yard" ⟨.ok url, .ok 2⟩ 50 (.fatal "manifest gone")),
    .activity (.signal "yard" ⟨.ok url, .ok 2⟩ 1050 .pauseOver),
    .teardown "yard",
    .activity (.wake ⟨.ok url, .ok 3⟩ 1100 0 (.attached (.ok ()))) ]

/-- The first engine is disposed once, and the second one is lost. -/
theorem engines_accounted_of_cutShort :
    enginesIn ((opened {} true).ledger (cutShort default)) = [1, 2]
      ∧ disposals 1 ((opened {} true).ledger (cutShort default)) = 1
      ∧ disposals 2 ((opened {} true).ledger (cutShort default)) = 0
      ∧ Accounted (opened {} true) (cutShort default) := by
  have hengines : enginesIn ((opened {} true).ledger (cutShort default)) = [1, 2] := by decide
  have haccounted : Accounted (opened {} true) (cutShort default) :=
    engines_accounted {} true (cutShort default) (by rw [hengines]; decide)
  exact ⟨hengines, by decide, by decide, haccounted⟩

/-- The longest interval between refreshes that a configuration can give. -/
def patient : Settings := { refreshInterval := 18446744073709551615 * 1000 }

/-- A stream starts to play. -/
def started (url : Url) : List Event :=
  [ .attach "yard",
    .activity (.signal "yard" ⟨.ok url, .ok 1⟩ 0 .begins),
    .activity (.signal "yard" ⟨.ok url, .ok 2⟩ 0 (.attached (.ok ()))),
    .activity (.signal "yard" ⟨.ok url, .ok 2⟩ 0 (.played (.ok ()))) ]

/-- With so long an interval the first engine that plays is not disposed. The
session that had it in hand has crashed as it set its clock, and later
teardowns find no session. -/
theorem engine_dropped :
    deedsOf 0 ((opened patient true).ledger (started default ++ [.teardown "yard", .teardownAll]))
        = [ .call (.source (.ok default)), .call (.create (.ok 1)),
            .call (.attach 1 1 default), .returned 1, .call (.play 1 false), .crashed ]
      ∧ disposals 1 ((opened patient true).ledger
          (started default ++ [.teardown "yard", .teardownAll])) = 0
      ∧ ((opened patient true).run (started default)).players.sessions.get? "yard" = none
      ∧ ((opened patient true).run (started default)).players.departing = [] :=
  ⟨rfl, by decide, by decide, rfl⟩

end History

end VideoWall.Player
