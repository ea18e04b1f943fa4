/-
The ledger of a registry: what each session did, in the order in which it
was done.

# The entries

Sessions are numbered as they start. A step of a session enters the
attach that came back with its signal, the calls it made, and that it
listens to an engine if that is how it waits from then on, or that it has
crashed; a session on its way out that is woken enters its calls and that it
has ended. Nothing else enters anything (`History.entries`). The calls of a history are the
calls of its ledger (`calls_ledger`).

A session on its way out waits for nothing but its turn, so it is taken
to be woken before it would be aborted.

# What holds

No two sessions have the same number (`Registry.Numbered`). Each session
has kept to the rules of custody so far, and where its deeds have led is
what it has in hand, or that it is gone (`Registry.Standing`). Every
event keeps both (`Kept.after`), so they hold after every history
(`kept_run`).
-/
import Mathlib.Data.List.Nodup
import VideoWall.Proofs.Player.Custody
import VideoWall.Proofs.Player.RefreshClock

namespace VideoWall.Player

open Media

-- ============================================================= entries

/-- Something that a session did. -/
structure Entry where
  session : Nat
  stream : String
  deed : Deed

/-- The deeds of a session. -/
def deedsOf (n : Nat) (book : List Entry) : List Deed :=
  (book.filter fun entry => entry.session = n).map (·.deed)

/-- The calls of a ledger, each with the name of its stream. -/
def callsIn (book : List Entry) : List (String × Call) :=
  book.filterMap fun entry => entry.deed.call?.map fun c => (entry.stream, c)

/-- Deeds of one session, as they are entered. -/
def enter (n : Nat) (stream : String) (deeds : List Deed) : List Entry :=
  deeds.map fun deed => ⟨n, stream, deed⟩

/-- What is entered of a session after its calls: how it waits, or that it has
crashed. -/
def Session.outcome (x : Session) : List Deed := if x.isRunning then x.listening else [.crashed]

namespace History

/-- What an event enters. -/
def entries (h : History) : Event → List Entry
  | .activity (.signal name supply now signal) =>
      match h.players.sessions.get? name with
      | none => []
      | some x =>
          match x.act? false h.players.settings supply now signal (h.players.element name) with
          | none => []
          | some m =>
              enter x.serial name (x.returns signal ++ m.calls.map .call ++ m.session.outcome)
  | .activity (.wake _ _ i _) =>
      match h.players.departing[i]? with
      | none => []
      | some (name, x) => enter x.serial name (x.cancel.2.map .call ++ [.ended])
  | _ => []

/-- What events enter, one after the other. -/
def ledger (h : History) : List Event → List Entry
  | [] => []
  | event :: later => h.entries event ++ (h.after event).ledger later

end History

-- ------------------------------------------------ deeds of one session

/-- A deed of a session stands in the book under its number. -/
theorem mem_deedsOf {n : Nat} {book : List Entry} {d : Deed} :
    d ∈ deedsOf n book ↔ ∃ stream, ⟨n, stream, d⟩ ∈ book := by
  unfold deedsOf
  constructor
  · intro h
    obtain ⟨⟨session, stream, deed⟩, hmem, rfl⟩ := List.mem_map.1 h
    obtain ⟨hbook, hn⟩ := List.mem_filter.1 hmem
    obtain rfl : session = n := by simpa using hn
    exact ⟨stream, hbook⟩
  · rintro ⟨stream, hbook⟩
    exact List.mem_map.2 ⟨⟨n, stream, d⟩, List.mem_filter.2 ⟨hbook, by simp⟩, rfl⟩

/-- Deeds are kept in the order of the book. -/
@[simp]
theorem deedsOf_append (n : Nat) (book more : List Entry) :
    deedsOf n (book ++ more) = deedsOf n book ++ deedsOf n more := by
  simp [deedsOf]

/-- Of the deeds of one session all are its own, and none another's. -/
theorem deedsOf_enter (n m : Nat) (stream : String) (deeds : List Deed) :
    deedsOf n (enter m stream deeds) = if m = n then deeds else [] := by
  unfold deedsOf enter
  induction deeds with
  | nil => simp
  | cons deed rest ih =>
      by_cases h : m = n
      · simp_all
      · simp_all

theorem callsIn_append (book more : List Entry) :
    callsIn (book ++ more) = callsIn book ++ callsIn more :=
  List.filterMap_append ..

theorem callsIn_enter_calls (n : Nat) (stream : String) (calls : List Call) :
    callsIn (enter n stream (calls.map .call)) = calls.map fun c => (stream, c) := by
  unfold callsIn enter
  induction calls with
  | nil => rfl
  | cons c rest ih => simp [Deed.call?]

/-- What is no call does not count among the calls. -/
theorem callsIn_enter_silent (n : Nat) (stream : String) {deeds : List Deed}
    (h : ∀ d ∈ deeds, d.call? = none) : callsIn (enter n stream deeds) = [] := by
  refine List.filterMap_eq_nil_iff.2 ?_
  intro entry hentry
  obtain ⟨d, hd, rfl⟩ := List.mem_map.1 hentry
  rw [h d hd]
  rfl

theorem enter_append (n : Nat) (stream : String) (deeds more : List Deed) :
    enter n stream (deeds ++ more) = enter n stream deeds ++ enter n stream more :=
  List.map_append

theorem Session.call?_outcome (x : Session) : ∀ d ∈ x.outcome, d.call? = none := by
  unfold outcome
  split
  · exact x.call?_listening
  · simp [Deed.call?]

/-- The calls that a step enters are the calls it made. -/
theorem callsIn_step (n : Nat) (stream : String) (x y : Session) (signal : Signal)
    (calls : List Call) :
    callsIn (enter n stream (x.returns signal ++ calls.map .call ++ y.outcome))
      = calls.map fun c => (stream, c) := by
  rw [enter_append, enter_append, callsIn_append, callsIn_append, callsIn_enter_calls,
    callsIn_enter_silent _ _ (x.call?_returns signal), callsIn_enter_silent _ _ y.call?_outcome,
    List.nil_append, List.append_nil]

/-- The calls of a waking are those that its session made. -/
theorem callsIn_wake (n : Nat) (stream : String) (calls : List Call) :
    callsIn (enter n stream (calls.map .call ++ [.ended])) = calls.map fun c => (stream, c) := by
  have hend : ∀ d ∈ [Deed.ended], d.call? = none := by simp [Deed.call?]
  rw [enter_append, callsIn_append, callsIn_enter_calls, callsIn_enter_silent n stream hend,
    List.append_nil]

/-- An entered call is among those of its stream, after the ones entered
before it. -/
theorem callsIn_split {earlier later : List Entry} {n : Nat} {name stream : String} {c : Call}
    {calls : List Call}
    (h : callsIn (earlier ++ ⟨n, name, .call c⟩ :: later) = calls.map fun c => (stream, c)) :
    ∃ before after, calls = before ++ c :: after ∧ stream = name
      ∧ callsIn earlier = before.map fun c => (stream, c) := by
  rw [callsIn_append] at h
  obtain ⟨before, rest, rfl, hbefore, hrest⟩ := List.map_eq_append_iff.1 h.symm
  obtain ⟨c', after, rfl, hc, -⟩ := List.map_eq_cons_iff.1 hrest
  cases hc
  exact ⟨before, after, rfl, rfl, hbefore.symm⟩

/-- Calls and their entries. -/
theorem mem_callsIn {book : List Entry} {stream : String} {c : Call} :
    (stream, c) ∈ callsIn book ↔ ∃ n, ⟨n, stream, .call c⟩ ∈ book := by
  unfold callsIn
  rw [List.mem_filterMap]
  constructor
  · rintro ⟨⟨n, name, d⟩, hmem, hd⟩
    obtain ⟨c', hc', hpair⟩ := Option.map_eq_some_iff.1 hd
    cases hpair
    have hcall : d = .call c := by
      unfold Deed.call? at hc'
      split at hc'
      · cases hc'
        assumption
      · cases hc'
    rw [hcall] at hmem
    exact ⟨n, hmem⟩
  · rintro ⟨n, hmem⟩
    exact ⟨_, hmem, rfl⟩

-- ============================================================= numbers

namespace Move

variable {m : Move} {cfg : Settings} {supply : Supply} {now : Nat}

@[simp]
theorem serial_dispose (m : Move) : m.dispose.session.serial = m.session.serial := by
  rw [session_dispose]

@[simp]
theorem serial_fail (m : Move) (message : String) :
    (m.fail cfg now message).session.serial = m.session.serial :=
  serial_dispose m

@[simp]
theorem serial_recover (m : Move) (message : String) :
    (m.recover cfg now message).session.serial = m.session.serial :=
  serial_dispose _

@[simp]
theorem serial_buildFailed (m : Move) (message : String) (why : Purpose) :
    (m.buildFailed cfg now message why).session.serial = m.session.serial := by
  unfold buildFailed
  split
  · rfl
  · exact serial_fail m message

@[simp]
theorem serial_build (m : Move) (why : Purpose) :
    (m.build cfg supply now why).session.serial = m.session.serial := by
  obtain ⟨source, made⟩ := supply
  cases source with
  | error message => exact (serial_buildFailed _ message why).trans (serial_dispose m)
  | ok url =>
      cases made with
      | error message => exact (serial_buildFailed _ message why).trans (serial_dispose m)
      | ok engine => exact serial_dispose m

end Move

/-- A session keeps its number. -/
theorem Session.Lands.serial {cfg : Settings} {supply : Supply} {now : Nat} {signal : Signal}
    {x : Session} {e : Element} {m : Move} (h : x.Lands cfg supply now e signal m) :
    m.session.serial = x.serial := by
  cases h with
  | told | reissued | resumes | refreshes | skips | postponed | offered | plays | balks | goesOn =>
      rfl
  | begins | pauseOver | declined | rebuilds => exact Move.serial_build _ _
  | refused message => exact Move.serial_fail _ message
  | outdated message | lapsed message | fatal message => exact Move.serial_recover _ message

namespace Registry

variable {r r' : Registry} {name : String} {n : Nat} {a : Hand}

/-- Whether a session runs for a stream or is on its way out. -/
def Has (r : Registry) (name : String) (x : Session) : Prop :=
  r.sessions.get? name = some x ∨ (name, x) ∈ r.departing

/-- Sessions are numbered as they start, and so no two have the same
number. -/
structure Numbered (r : Registry) : Prop where
  below : ∀ name x, r.Has name x → x.serial < r.attaches
  running : ∀ name other x y, r.sessions.get? name = some x → r.sessions.get? other = some y →
    x.serial = y.serial → name = other
  parted : ∀ name x entry, r.sessions.get? name = some x → entry ∈ r.departing →
    x.serial ≠ entry.2.serial
  departing : (r.departing.map fun entry => entry.2.serial).Nodup

/-- A number is that of one session. -/
theorem Numbered.unique (h : r.Numbered) {other : String} {x y : Session} (hx : r.Has name x)
    (hy : r.Has other y) (hserial : x.serial = y.serial) : name = other ∧ x = y := by
  rcases hx with hx | hx
  · rcases hy with hy | hy
    · obtain rfl := h.running name other x y hx hy hserial
      rw [hx] at hy
      cases hy
      exact ⟨rfl, rfl⟩
    · exact absurd hserial (h.parted name x (other, y) hx hy)
  · rcases hy with hy | hy
    · exact absurd hserial.symm (h.parted other y (name, x) hy hx)
    · cases List.inj_on_of_nodup_map h.departing hx hy hserial
      exact ⟨rfl, rfl⟩

-- =========================================================== standings

/-- What the session of a number has in hand: it lives, or it is gone. -/
inductive Standing (r : Registry) (n : Nat) : Hand → Prop where
  | lives {name : String} {x : Session} {a : Hand} (hhas : r.Has name x) (hserial : x.serial = n)
      (hhands : x.Hands a) : Standing r n a
  | ended (hnone : ∀ name x, r.Has name x → x.serial ≠ n) : Standing r n .gone

/-- What an operation makes of sessions: those that were there stand as
before, and new ones have nothing in hand. -/
structure Continues (r r' : Registry) : Prop where
  numbered : r.Numbered → r'.Numbered
  attaches : r.attaches ≤ r'.attaches
  old : ∀ n a, n < r.attaches → r.Standing n a → r'.Standing n a
  new : ∀ n, r.attaches ≤ n → n < r'.attaches → r'.Standing n .empty

/-- A registry continues itself. -/
theorem Continues.refl (r : Registry) : Continues r r :=
  ⟨id, Nat.le_refl _, fun _ _ _ hstand => hstand,
    fun _ hle hlt => absurd hlt (Nat.not_lt.2 hle)⟩

/-- A continuation may be continued. -/
theorem Continues.trans {r₁ r₂ r₃ : Registry} (h : Continues r₁ r₂) (h' : Continues r₂ r₃) :
    Continues r₁ r₃ := by
  refine ⟨fun hn => h'.numbered (h.numbered hn), Nat.le_trans h.attaches h'.attaches, ?_, ?_⟩
  · intro n a hlt hstand
    exact h'.old n a (Nat.lt_of_lt_of_le hlt h.attaches) (h.old n a hlt hstand)
  · intro n hle hlt
    by_cases hn : n < r₂.attaches
    · exact h'.old n .empty hn (h.new n hle hn)
    · exact h'.new n (Nat.not_lt.1 hn) hlt

/-- What does not start sessions continues them if it leaves their numbers
and hands alone. -/
theorem continues_of_has (hnumbered : r.Numbered → r'.Numbered)
    (hattaches : r'.attaches = r.attaches)
    (hold : ∀ name x, r.Has name x → ∃ other y, r'.Has other y ∧ y.serial = x.serial
      ∧ ∀ a, x.Hands a → y.Hands a)
    (hnone : ∀ name y, r'.Has name y → ∃ other x, r.Has other x ∧ x.serial = y.serial) :
    Continues r r' := by
  refine ⟨hnumbered, Nat.le_of_eq hattaches.symm, ?_, ?_⟩
  · intro n a _ hstand
    cases hstand with
    | lives hhas hserial hhands =>
        obtain ⟨other, y, hy, hsame, hkeeps⟩ := hold _ _ hhas
        exact .lives hy (hsame.trans hserial) (hkeeps _ hhands)
    | ended hgone =>
        refine .ended ?_
        intro name y hy hn
        obtain ⟨other, x, hx, hsame⟩ := hnone name y hy
        exact hgone other x hx (hsame.trans hn)
  · intro n hle hlt
    rw [hattaches] at hlt
    exact absurd hlt (Nat.not_lt.2 hle)

-- ========================================================== operations

/-- A teardown only moves a session to those on their way out. -/
theorem has_teardown (r : Registry) (name other : String) (x : Session) :
    (r.teardown name).Has other x ↔ r.Has other x := by
  have hdeparting : (other, x) ∈ (r.teardown name).departing
      ↔ (other, x) ∈ r.departing ∨ (other = name ∧ r.sessions.get? name = some x) := by
    have hmoved : (other, x) ∈ ((r.sessions.get? name).map fun s => (name, s)).toList
        ↔ other = name ∧ r.sessions.get? name = some x := by
      rw [Option.mem_toList, Option.map_eq_some_iff]
      constructor
      · rintro ⟨y, hy, hsame⟩
        cases hsame
        exact ⟨rfl, hy⟩
      · rintro ⟨rfl, hx⟩
        exact ⟨x, hx, rfl⟩
    show (other, x) ∈ r.departing ++ _ ↔ _
    rw [List.mem_append, hmoved]
  unfold Has
  rw [hdeparting, get?_sessions_teardown]
  by_cases ho : other = name
  · subst ho
    simp [or_comm]
  · simp [ho]

/-- A teardown keeps the numbers of the sessions. -/
private theorem numbered_teardown (h : r.Numbered) (name : String) :
    (r.teardown name).Numbered := by
  have hrunning : ∀ other x, (r.teardown name).sessions.get? other = some x →
      other ≠ name ∧ r.sessions.get? other = some x := by
    intro other x hx
    rw [get?_sessions_teardown] at hx
    split at hx
    · cases hx
    · exact ⟨‹_›, hx⟩
  have hdeparting : ∀ entry ∈ (r.teardown name).departing,
      entry ∈ r.departing ∨ (entry.1 = name ∧ r.sessions.get? name = some entry.2) := by
    intro entry hentry
    rcases List.mem_append.1 hentry with hold | hnew
    · exact Or.inl hold
    · obtain ⟨x, hx, rfl⟩ := Option.map_eq_some_iff.1 (Option.mem_toList.1 hnew)
      exact Or.inr ⟨rfl, hx⟩
  refine ⟨?_, ?_, ?_, ?_⟩
  · intro other x hx
    exact h.below other x ((has_teardown r name other x).1 hx)
  · intro n₁ n₂ x y hx hy
    exact h.running n₁ n₂ x y (hrunning n₁ x hx).2 (hrunning n₂ y hy).2
  · intro other x entry hx hentry
    obtain ⟨hne, hx⟩ := hrunning other x hx
    rcases hdeparting entry hentry with hold | ⟨-, hmoved⟩
    · exact h.parted other x entry hx hold
    · intro hserial
      exact hne (h.running other name x entry.2 hx hmoved hserial)
  · cases hx : r.sessions.get? name with
    | none => simpa [teardown, hx] using h.departing
    | some x =>
        have hmoved : (r.teardown name).departing = r.departing ++ [(name, x)] := by
          simp [teardown, hx]
        rw [hmoved, List.map_append]
        refine List.nodup_append.2 ⟨h.departing, List.nodup_singleton _, ?_⟩
        intro n hn n' hn'
        obtain ⟨entry, hentry, rfl⟩ := List.mem_map.1 hn
        obtain rfl := List.mem_singleton.1 hn'
        exact (h.parted name x entry hx hentry).symm

/-- A teardown continues the registry. -/
theorem continues_teardown (r : Registry) (name : String) : Continues r (r.teardown name) := by
  refine continues_of_has (fun hn => numbered_teardown hn name) rfl ?_ ?_
  · intro other x hx
    exact ⟨other, x, (has_teardown r name other x).2 hx, rfl, fun _ hhands => hhands⟩
  · intro other y hy
    exact ⟨other, y, (has_teardown r name other y).1 hy, rfl⟩

theorem continues_teardowns (names : List String) (r : Registry) :
    Continues r (names.foldl teardown r) := by
  induction names generalizing r with
  | nil => exact Continues.refl r
  | cons name rest ih => exact (continues_teardown r name).trans (ih (r.teardown name))

/-- A session that starts takes the next number. -/
theorem continues_start (name : String) {x : Session} (hfree : r.sessions.get? name = none)
    (hx : x = { serial := r.attaches })
    (hsessions : ∀ other,
      r'.sessions.get? other = if other = name then some x else r.sessions.get? other)
    (hdeparting : r'.departing = r.departing) (hattaches : r'.attaches = r.attaches + 1) :
    Continues r r' := by
  have hhas : ∀ other y, r'.Has other y ↔ r.Has other y ∨ (other = name ∧ y = x) := by
    intro other y
    unfold Has
    rw [hsessions, hdeparting]
    by_cases ho : other = name
    · subst ho
      simp [hfree, or_comm, eq_comm]
    · simp [ho]
  have hserial : x.serial = r.attaches := by rw [hx]
  refine ⟨?_, by omega, ?_, ?_⟩
  · intro h
    -- the new session has a number that none before it had
    have hnext : ∀ other y, r.sessions.get? other = some y → y.serial ≠ x.serial := by
      intro other y hy
      have := h.below other y (Or.inl hy)
      omega
    refine ⟨?_, ?_, ?_, hdeparting ▸ h.departing⟩
    · intro other y hy
      rcases (hhas other y).1 hy with hold | ⟨rfl, rfl⟩
      · have := h.below other y hold
        omega
      · omega
    · intro n₁ n₂ y z hy hz hsame
      rw [hsessions] at hy hz
      split at hy
      case isTrue h₁ =>
        split at hz
        case isTrue h₂ => exact h₁.trans h₂.symm
        case isFalse h₂ =>
          cases hy
          exact absurd hsame.symm (hnext n₂ z hz)
      case isFalse h₁ =>
        split at hz
        case isTrue h₂ =>
          cases hz
          exact absurd hsame (hnext n₁ y hy)
        case isFalse h₂ => exact h.running n₁ n₂ y z hy hz hsame
    · intro other y entry hy hentry
      rw [hdeparting] at hentry
      rw [hsessions] at hy
      split at hy
      case isTrue =>
        cases hy
        have := h.below entry.1 entry.2 (Or.inr hentry)
        omega
      case isFalse => exact h.parted other y entry hy hentry
  · intro n a hlt hstand
    -- what was there stands as it did: the new one has another number
    cases hstand with
    | lives hold hn hhands => exact .lives ((hhas _ _).2 (Or.inl hold)) hn hhands
    | ended hnone =>
        refine .ended ?_
        intro other y hy
        rcases (hhas other y).1 hy with hold | ⟨rfl, rfl⟩
        · exact hnone other y hold
        · omega
  · intro n hle hlt
    have hn : x.serial = n := by omega
    -- the only number that is new is that of the session started, whose hands are empty
    refine .lives ((hhas name x).2 (Or.inr ⟨rfl, rfl⟩)) hn ?_
    subst hx
    exact .empty (by simp) rfl

/-- Numbers stay apart as long as sessions keep theirs. -/
theorem numbered_of_map {f : String → Session → Session} (h : r.Numbered)
    (hsessions : ∀ other, r'.sessions.get? other = (r.sessions.get? other).map (f other))
    (hdeparting : r'.departing = r.departing) (hattaches : r'.attaches = r.attaches)
    (hserial : ∀ other x, r.sessions.get? other = some x → (f other x).serial = x.serial) :
    r'.Numbered := by
  have hbefore : ∀ other y, r'.sessions.get? other = some y →
      ∃ x, r.sessions.get? other = some x ∧ x.serial = y.serial := by
    intro other y hy
    rw [hsessions] at hy
    obtain ⟨x, hx, rfl⟩ := Option.map_eq_some_iff.1 hy
    exact ⟨x, hx, (hserial other x hx).symm⟩
  refine ⟨?_, ?_, ?_, hdeparting ▸ h.departing⟩
  · rintro other y (hy | hy)
    · obtain ⟨x, hx, hsame⟩ := hbefore other y hy
      rw [hattaches, ← hsame]
      exact h.below other x (Or.inl hx)
    · rw [hdeparting] at hy
      rw [hattaches]
      exact h.below other y (Or.inr hy)
  · intro n₁ n₂ y z hy hz hsame
    obtain ⟨x₁, hx₁, hsame₁⟩ := hbefore n₁ y hy
    obtain ⟨x₂, hx₂, hsame₂⟩ := hbefore n₂ z hz
    exact h.running n₁ n₂ x₁ x₂ hx₁ hx₂ (hsame₁.trans (hsame.trans hsame₂.symm))
  · intro other y entry hy hentry
    obtain ⟨x, hx, hsame⟩ := hbefore other y hy
    rw [hdeparting] at hentry
    rw [← hsame]
    exact h.parted other x entry hx hentry

/-- What leaves the numbers and the hands of sessions alone continues them
all. -/
theorem continues_of_map {f : String → Session → Session}
    (hsessions : ∀ other, r'.sessions.get? other = (r.sessions.get? other).map (f other))
    (hdeparting : r'.departing = r.departing) (hattaches : r'.attaches = r.attaches)
    (hserial : ∀ other x, (f other x).serial = x.serial)
    (hhands : ∀ other x a, x.Hands a → (f other x).Hands a) : Continues r r' := by
  refine continues_of_has ?_ hattaches ?_ ?_
  · intro h
    exact numbered_of_map h hsessions hdeparting hattaches fun other x _ => hserial other x
  · rintro other x (hx | hx)
    · refine ⟨other, f other x, Or.inl ?_, hserial other x, hhands other x⟩
      rw [hsessions, hx]
      rfl
    · exact ⟨other, x, Or.inr (hdeparting ▸ hx), rfl, fun _ hhands => hhands⟩
  · rintro other y (hy | hy)
    · rw [hsessions] at hy
      obtain ⟨x, hx, rfl⟩ := Option.map_eq_some_iff.1 hy
      exact ⟨other, x, Or.inl hx, (hserial other x).symm⟩
    · exact ⟨other, y, Or.inr (hdeparting ▸ hy), rfl⟩

/-- What changes elements only continues all sessions. -/
theorem continues_of_eq (hsessions : r'.sessions = r.sessions)
    (hdeparting : r'.departing = r.departing) (hattaches : r'.attaches = r.attaches) :
    Continues r r' := by
  refine continues_of_map (f := fun _ x => x) ?_ hdeparting hattaches (fun _ _ => rfl)
    (fun _ _ _ hhands => hhands)
  intro other
  rw [hsessions, Option.map_id']

/-- An attachment continues the registry. -/
theorem continues_attach (r : Registry) (name : String) : Continues r (r.attach name) := by
  cases hrun : r.isAttached name with
  | true =>
      rw [attach_of_attached hrun]
      exact Continues.refl r
  | false =>
      refine (continues_teardown r name).trans ?_
      cases hs : r.supported with
      | true =>
          refine continues_start name ?_ rfl ?_ ?_ ?_
          · rw [get?_sessions_teardown, if_pos rfl]
          · intro other
            rw [get?_sessions_attach hrun hs, get?_sessions_teardown]
            split
            · rfl
            · rfl
          · rw [attach_of_supported hrun hs]
            rfl
          · rw [attach_of_supported hrun hs]
            rfl
      | false =>
          rw [attach_of_unsupported hrun hs]
          exact continues_of_eq rfl rfl rfl

/-- A replacement continues the registry. -/
theorem continues_replace (r : Registry) (name : String) : Continues r (r.replace name) :=
  (continues_teardown r name).trans (continues_attach _ name)

/-- A wish is only counted; where no session runs it is a new session. -/
theorem continues_requestPlay (r : Registry) (name : String) :
    Continues r (r.requestPlay name) := by
  cases hrun : r.isAttached name with
  | false =>
      rw [requestPlay_of_not_attached hrun]
      exact continues_replace r name
  | true =>
      rw [requestPlay_of_attached hrun]
      refine continues_of_map (f := fun other x =>
        if other = name then { x with wishes := x.wishes + 1 } else x) ?_ rfl rfl ?_ ?_
      · intro other
        refine (ByName.get?_modify r.sessions name other _).trans ?_
        by_cases ho : other = name
        · simp [ho]
        · simp [ho]
      · intro other x
        split
        · rfl
        · rfl
      · intro other x a hhands
        split
        · cases hhands with
          | attaching hpoint hengine => exact .attaching hpoint hengine
          | holding hpoint hengine => exact .holding hpoint hengine
          | empty hpoint hengine => exact .empty hpoint hengine
        · exact hhands

-- ========================================================== activities

/-- Where one session changes, the others stand as before. -/
private theorem Numbered.set (h : r.Numbered) {x y : Session} (hx : r.sessions.get? name = some x)
    (hserial : y.serial = x.serial) (elements : ByName Element) :
    { r with sessions := r.sessions.set name y, elements }.Numbered
      ∧ (∀ n a, n ≠ x.serial → r.Standing n a →
          { r with sessions := r.sessions.set name y, elements }.Standing n a)
      ∧ ∀ b, y.Hands b →
          { r with sessions := r.sessions.set name y, elements }.Standing x.serial b := by
  have hget : ∀ other, (r.sessions.set name y).get? other
      = if other = name then some y else r.sessions.get? other :=
    fun other => ByName.get?_set r.sessions name other y
  refine ⟨?_, ?_, ?_⟩
  · refine numbered_of_map (f := fun other z => if other = name then y else z) h ?_ rfl rfl ?_
    · intro other
      refine (hget other).trans ?_
      by_cases ho : other = name
      · simp [ho, hx]
      · simp [ho]
    · intro other z hz
      by_cases ho : other = name
      · rw [ho, hx] at hz
        cases hz
        simp [ho, hserial]
      · simp [ho]
  · intro n a hn hstand
    -- a session with another number is not the one that is set
    have hother : ∀ {other z}, r.sessions.get? other = some z → z.serial = n → other ≠ name := by
      rintro other z hz hzn rfl
      rw [hx] at hz
      cases hz
      exact hn hzn.symm
    cases hstand with
    | lives hhas hzn hhands =>
        rcases hhas with hz | hz
        · exact .lives (Or.inl ((hget _).trans (by rw [if_neg (hother hz hzn), hz]))) hzn hhands
        · exact .lives (Or.inr hz) hzn hhands
    | ended hnone =>
        refine .ended ?_
        rintro other z (hz | hz)
        · replace hz := (hget other).symm.trans hz
          split at hz
          · cases hz
            exact fun hyn => hn (hyn.symm.trans hserial)
          · exact hnone other z (Or.inl hz)
        · exact hnone other z (Or.inr hz)
  · intro b hhands
    exact .lives (Or.inl ((hget name).trans (if_pos rfl))) hserial hhands

/-- Where one session is no more, the others stand as before. -/
private theorem Numbered.drop (h : r.Numbered) {x : Session} (hx : r.sessions.get? name = some x)
    (ended : ByName Phase) (elements : ByName Element) :
    { r with sessions := r.sessions.erase name, ended, elements }.Numbered
      ∧ (∀ n a, n ≠ x.serial → r.Standing n a →
          { r with sessions := r.sessions.erase name, ended, elements }.Standing n a)
      ∧ { r with sessions := r.sessions.erase name, ended, elements }.Standing x.serial .gone := by
  have hget : ∀ {other z}, (r.sessions.erase name).get? other = some z →
      other ≠ name ∧ r.sessions.get? other = some z := by
    intro other z hz
    rw [ByName.get?_erase] at hz
    split at hz
    · cases hz
    · exact ⟨‹_›, hz⟩
  refine ⟨?_, ?_, ?_⟩
  · refine ⟨?_, ?_, ?_, h.departing⟩
    · rintro other z (hz | hz)
      · exact h.below other z (Or.inl (hget hz).2)
      · exact h.below other z (Or.inr hz)
    · intro n₁ n₂ y z hy hz
      exact h.running n₁ n₂ y z (hget hy).2 (hget hz).2
    · intro other z entry hz
      exact h.parted other z entry (hget hz).2
  · intro n a hn hstand
    cases hstand with
    | @lives other z _ hhas hzn hhands =>
        rcases hhas with hz | hz
        · have hother : other ≠ name := by
            -- the session dropped has the number `x.serial`, and this one has not
            rintro rfl
            rw [hx] at hz
            cases hz
            exact hn hzn.symm
          exact .lives (Or.inl ((ByName.get?_erase_of_ne hother _).trans hz)) hzn hhands
        · exact .lives (Or.inr hz) hzn hhands
    | ended hnone =>
        refine .ended ?_
        rintro other z (hz | hz)
        · exact hnone other z (Or.inl (hget hz).2)
        · exact hnone other z (Or.inr hz)
  · refine .ended ?_
    rintro other z (hz | hz)
    · obtain ⟨hother, hz⟩ := hget hz
      exact fun hsame => hother (h.running other name z x hz hx hsame)
    · exact fun hsame => h.parted name x (other, z) hx hz hsame.symm

/-- When a session on its way out has left, the others stand as before. -/
private theorem Numbered.leave (h : r.Numbered) {i : Nat} {x : Session}
    (hx : r.departing[i]? = some (name, x)) :
    { r with departing := r.departing.eraseIdx i }.Numbered
      ∧ (∀ n a, n ≠ x.serial → r.Standing n a →
          { r with departing := r.departing.eraseIdx i }.Standing n a)
      ∧ { r with departing := r.departing.eraseIdx i }.Standing x.serial .gone := by
  have hsub : List.Sublist (r.departing.eraseIdx i) r.departing := List.eraseIdx_sublist ..
  have hmem : (name, x) ∈ r.departing := List.mem_of_getElem? hx
  have hhas : ∀ other z, { r with departing := r.departing.eraseIdx i }.Has other z →
      r.Has other z := by
    rintro other z (hz | hz)
    · exact Or.inl hz
    · exact Or.inr (hsub.subset hz)
  -- what is left of those on their way out has other numbers
  have hleft : ∀ entry ∈ r.departing.eraseIdx i, entry.2.serial ≠ x.serial := by
    intro entry hentry hsame
    obtain ⟨j, hj, hji, rfl⟩ := List.mem_eraseIdx_iff_getElem.1 hentry
    obtain ⟨hi, hxi⟩ := List.getElem?_eq_some_iff.1 hx
    have hsame' : r.departing[j].2.serial = r.departing[i].2.serial := by rw [hsame, hxi]
    have hji' : r.departing[j] = r.departing[i] :=
      List.inj_on_of_nodup_map h.departing (List.getElem_mem hj) (List.getElem_mem hi) hsame'
    exact hji ((List.Nodup.getElem_inj_iff h.departing.of_map).1 hji')
  refine ⟨?_, ?_, ?_⟩
  · refine ⟨?_, h.running, ?_, ?_⟩
    · intro other z hz
      exact h.below other z (hhas other z hz)
    · intro other z entry hz hentry
      exact h.parted other z entry hz (hsub.subset hentry)
    · exact h.departing.sublist (hsub.map _)
  · intro n a hn hstand
    cases hstand with
    | @lives other z a hz hzn hhands =>
        rcases hz with hz | hz
        · exact .lives (Or.inl hz) hzn hhands
        · have hstays : (other, z) ∈ r.departing.eraseIdx i := by
            obtain ⟨j, hj, hzj⟩ := List.getElem_of_mem hz
            refine List.mem_eraseIdx_iff_getElem.2 ⟨j, hj, ?_, hzj⟩
            rintro rfl
            rw [List.getElem?_eq_getElem hj, hzj] at hx
            cases hx
            exact hn hzn.symm
          exact .lives (Or.inr hstays) hzn hhands
    | ended hnone => exact .ended fun other z hz => hnone other z (hhas other z hz)
  · refine .ended ?_
    rintro other z (hz | hz)
    · exact fun hsame => h.parted other z (name, x) hz hmem hsame
    · exact hleft (other, z) hz

end Registry

-- ============================================================= crashes

namespace Session

variable {cfg : Settings} {supply : Supply} {now : Nat} {signal : Signal}
variable {x : Session} {e : Element} {m : Move} {a : Hand}

/-- A session that has kept its clock in time crashes at rest, or as a refresh
is due. -/
private theorem Lands.resting_of_late (h : x.Lands cfg supply now e signal m) (htimed : x.InTime)
    (hlate : ¬ m.session.InTime) :
    signal = .refreshDue ∧ x.point = .resting
      ∨ signal ≠ .refreshDue ∧ m.session.point = .resting := by
  by_cases hsignal : signal = .refreshDue
  · subst hsignal
    cases h with
    | refreshes hpoint | skips hpoint => exact Or.inl ⟨rfl, hpoint⟩
  · refine Or.inr ⟨hsignal, Decidable.byContradiction fun hworks => hlate ?_⟩
    have hclock : m.session.refreshAt = (x.clockFor cfg now signal).1 :=
      congrArg Prod.fst (h.ticks.working hworks)
    have hkept : (x.clockFor cfg now signal).1 = x.refreshAt := by
      cases signal with
      | refreshDue => exact absurd rfl hsignal
      | _ => rfl
    unfold InTime
    rw [hclock, hkept]
    exact htimed

/-- What is left of a step that crashes keeps to the rules. -/
private theorem Lands.crash (h : x.Lands cfg supply now e signal m) (hx : x.Hands a)
    (htimed : x.InTime) (hlate : ¬ m.session.InTime) : Walk Hand.Goes a
      (x.returns signal ++ (x.crash signal e m).calls.map .call
        ++ (x.crash signal e m).session.outcome)
      .gone := by
  have houtcome : (x.crash signal e m).session.outcome = [.crashed] :=
    if_neg (by rw [Registry.isRunning_crash]; decide)
  rw [houtcome]
  rcases h.resting_of_late htimed hlate with ⟨rfl, hpoint⟩ | ⟨hsignal, hpoint⟩
  · rw [hx.inHand (by simp [hpoint])]
    exact x.crashes
  · obtain ⟨b, hwalk, hthere⟩ := h.deals hx
    have hcalls : (x.crash signal e m).calls = m.calls := by
      cases signal with
      | refreshDue => exact absurd rfl hsignal
      | _ => rfl
    rw [hcalls]
    rw [hthere.inHand (by simp [hpoint])] at hwalk
    exact hwalk.append m.session.crashes

end Session

-- ============================================================== a run

namespace History

variable {h h' : History} {book more : List Entry}

/-- What an event makes of a history, and what it enters. -/
inductive Enters (h : History) : History → List Entry → Prop where
  | operates {players : Registry} (hcontinues : h.players.Continues players) :
      Enters h { h with players } []
  | steps {name : String} {supply : Supply} {now : Nat} {signal : Signal} {x : Session} {m : Move}
      (hx : h.players.sessions.get? name = some x)
      (hstep : x.step? h.players.settings supply now signal (h.players.element name) = some m)
      (htime : m.session.InTime) :
      Enters h
        ⟨{ h.players with
            sessions := h.players.sessions.set name m.session
            elements := h.players.elements.set name m.element },
          h.calls ++ m.calls.map fun call => (name, call)⟩
        (enter x.serial name (x.returns signal ++ m.calls.map .call ++ m.session.outcome))
  | crashes {name : String} {supply : Supply} {now : Nat} {signal : Signal} {x : Session} {m : Move}
      (hx : h.players.sessions.get? name = some x)
      (hstep : x.step? h.players.settings supply now signal (h.players.element name) = some m)
      (hlate : ¬ m.session.InTime) {left : Move}
      (hleft : left = x.crash signal (h.players.element name) m) :
      Enters h
        ⟨{ h.players with
            sessions := h.players.sessions.erase name
            ended := h.players.ended.set name left.session.phase
            elements := h.players.elements.set name left.element },
          h.calls ++ left.calls.map fun call => (name, call)⟩
        (enter x.serial name (x.returns signal ++ left.calls.map .call ++ left.session.outcome))
  | wakes {i : Nat} {name : String} {x : Session}
      (hx : h.players.departing[i]? = some (name, x)) :
      Enters h
        ⟨{ h.players with departing := h.players.departing.eraseIdx i },
          h.calls ++ x.cancel.2.map fun call => (name, call)⟩
        (enter x.serial name (x.cancel.2.map .call ++ [.ended]))

/-- Every event enters the book what it did. -/
theorem enters (h : History) (event : Event) : h.Enters (h.after event) (h.entries event) := by
  cases event with
  | attach name => exact .operates (Registry.continues_attach _ name)
  | replace name => exact .operates (Registry.continues_replace _ name)
  | teardown name => exact .operates (Registry.continues_teardown _ name)
  | teardownAll => exact .operates (Registry.continues_teardowns _ _)
  | requestPlay name => exact .operates (Registry.continues_requestPlay _ name)
  | activity a =>
      show h.Enters (h.act a) _
      cases a with
      -- only a signal may enter deeds; they follow from what the session makes of it
      | signal name supply now signal =>
          cases hx : h.players.sessions.get? name with
          | none =>
              simp only [act, entries, Registry.step?_of_absent hx, hx]
              exact .operates (Registry.Continues.refl _)
          | some x =>
              cases hm : x.step? h.players.settings supply now signal (h.players.element name) with
              | none =>
                  simp only [act, entries, Registry.step?_of_none hx hm, hx,
                    Session.act?_of_none hm]
                  exact .operates (Registry.Continues.refl _)
              | some m =>
                  by_cases htime : m.session.InTime
                  · simp only [act, entries, Registry.step?_of_some hx hm htime, hx,
                      Session.act?_of_some hm, if_pos htime]
                    exact .steps hx hm htime
                  · simp only [act, entries, Registry.step?_of_crash hx hm htime, hx,
                      Session.act?_of_some hm, if_neg htime]
                    exact .crashes hx hm htime rfl
      | write name engine epoch w =>
          unfold act
          dsimp only
          split
          · exact .operates (Registry.continues_of_eq rfl rfl rfl)
          · exact .operates (Registry.Continues.refl _)
      | wake supply now i signal =>
          cases hwake : h.players.wake? supply now i signal with
          | none =>
              simp only [act, entries, hwake, Registry.departing_of_wake?_none hwake]
              exact .operates (Registry.Continues.refl _)
          | some result =>
              obtain ⟨players, calls⟩ := result
              obtain ⟨name, x, hx, rfl, rfl⟩ := Registry.wake?_inv hwake
              simp only [act, entries, hwake, hx]
              exact .wakes hx

/-- The calls of a history are those of its ledger. -/
theorem calls_ledger (h : History) (events : List Event) :
    (h.run events).calls = h.calls ++ callsIn (h.ledger events) := by
  induction events generalizing h with
  | nil => simp [ledger, run, callsIn]
  | cons event later ih =>
      have hentered : (h.after event).calls = h.calls ++ callsIn (h.entries event) := by
        have hshape := h.enters event
        generalize h.after event = h', h.entries event = book at hshape
        cases hshape with
        | operates => simp [callsIn]
        | steps | crashes => rw [callsIn_step]
        | wakes => rw [callsIn_wake]
      show ((h.after event).run later).calls = _
      rw [ih, hentered]
      show _ = h.calls ++ callsIn (h.entries event ++ _)
      rw [callsIn_append, List.append_assoc]

/-- Numbers are apart, and the deeds of each session have led to where it
stands. -/
structure Kept (h : History) (book : List Entry) : Prop where
  numbered : h.players.Numbered
  below : ∀ entry ∈ book, entry.session < h.players.attaches
  walks : ∀ n, n < h.players.attaches →
    ∃ a, Walk Hand.Goes .empty (deedsOf n book) a ∧ h.players.Standing n a

/-- A session that has not started has done nothing. -/
theorem Kept.unstarted (hk : Kept h book) {n : Nat} (hn : h.players.attaches ≤ n) :
    deedsOf n book = [] := by
  refine List.eq_nil_iff_forall_not_mem.2 ?_
  intro d hd
  obtain ⟨stream, hmem⟩ := mem_deedsOf.1 hd
  exact absurd (hk.below _ hmem) (Nat.not_lt.2 hn)

/-- Every session has kept to the rules of custody. -/
theorem Kept.walk (hk : Kept h book) (n : Nat) :
    ∃ a, Walk Hand.Goes .empty (deedsOf n book) a
      ∧ (h.players.Standing n a ∨ deedsOf n book = []) := by
  by_cases hn : n < h.players.attaches
  · obtain ⟨a, hwalk, hstand⟩ := hk.walks n hn
    exact ⟨a, hwalk, Or.inl hstand⟩
  · have hnil := hk.unstarted (Nat.not_lt.1 hn)
    refine ⟨.empty, ?_, Or.inr hnil⟩
    rw [hnil]
    exact .stay _

/-- An operation of the registry leaves a book kept. -/
private theorem Kept.operates (hk : Kept h book) {players : Registry}
    (hcontinues : h.players.Continues players) : Kept { h with players } (book ++ []) := by
  rw [List.append_nil]
  refine ⟨hcontinues.numbered hk.numbered, ?_, ?_⟩
  · intro entry hentry
    exact Nat.lt_of_lt_of_le (hk.below entry hentry) hcontinues.attaches
  · intro n hn
    by_cases hold : n < h.players.attaches
    · obtain ⟨a, hwalk, hstand⟩ := hk.walks n hold
      exact ⟨a, hwalk, hcontinues.old n a hold hstand⟩
    · have hle := Nat.not_lt.1 hold
      refine ⟨.empty, ?_, hcontinues.new n hle hn⟩
      rw [hk.unstarted hle]
      exact .stay _

/-- One session goes on by its deeds, and the others stand as before. -/
theorem Kept.enter (hk : Kept h book) {name : String} {x : Session} {deeds : List Deed}
    (hhas : h.players.Has name x) (hattaches : h'.players.attaches = h.players.attaches)
    (hnumbered : h'.players.Numbered)
    (hothers : ∀ n a, n ≠ x.serial → h.players.Standing n a → h'.players.Standing n a)
    (hown : ∀ a, x.Hands a →
      ∃ b, Walk Hand.Goes a deeds b ∧ h'.players.Standing x.serial b) :
    Kept h' (book ++ enter x.serial name deeds) := by
  refine ⟨hnumbered, ?_, ?_⟩
  · intro entry hentry
    rw [hattaches]
    rcases List.mem_append.1 hentry with hold | hnew
    · exact hk.below entry hold
    · obtain ⟨d, -, rfl⟩ := List.mem_map.1 hnew
      exact hk.numbered.below name x hhas
  · intro n hn
    rw [hattaches] at hn
    obtain ⟨a, hwalk, hstand⟩ := hk.walks n hn
    rw [deedsOf_append, deedsOf_enter]
    by_cases hsame : x.serial = n
    · subst hsame
      rw [if_pos rfl]
      have hhands : x.Hands a := by
        cases hstand with
        | lives hy hserial hhands =>
            obtain ⟨-, rfl⟩ := hk.numbered.unique hy hhas hserial
            exact hhands
        | ended hnone => exact absurd rfl (hnone name x hhas)
      obtain ⟨b, hgoes, hstands⟩ := hown a hhands
      exact ⟨b, hwalk.append hgoes, hstands⟩
    · rw [if_neg hsame, List.append_nil]
      exact ⟨a, hwalk, hothers n a (Ne.symm hsame) hstand⟩

/-- Every event keeps numbers apart and sessions to the rules. -/
theorem Kept.after (hk : Kept h book) (hs : h.Sound) (event : Event) :
    Kept (h.after event) (book ++ h.entries event) := by
  have hshape := h.enters event
  generalize h.after event = h', h.entries event = more at hshape
  cases hshape with
  | operates hcontinues => exact hk.operates hcontinues
  | @steps name supply now signal x m hx hstep htime =>
      have hlands : x.Lands h.players.settings supply now (h.players.element name) signal m :=
        ((hs.players name).session x hx).lands (Session.step_of_step? hstep)
      obtain ⟨hnumbered, hothers, hown⟩ := hk.numbered.set hx hlands.serial
        (h.players.elements.set name m.element)
      refine hk.enter (Or.inl hx) rfl hnumbered hothers ?_
      intro a hhands
      obtain ⟨b, hwalk, hthere⟩ := hlands.deals hhands
      have hwaits : m.session.outcome = m.session.listening :=
        if_pos (Session.step_of_step? hstep).isRunning
      rw [hwaits]
      exact ⟨b, hwalk.append hthere.listening, hown b hthere⟩
  | @crashes name supply now signal x m hx hstep hlate left hleft =>
      have hlands : x.Lands h.players.settings supply now (h.players.element name) signal m :=
        ((hs.players name).session x hx).lands (Session.step_of_step? hstep)
      obtain ⟨hnumbered, hothers, hgone⟩ := hk.numbered.drop hx
        (h.players.ended.set name left.session.phase)
        (h.players.elements.set name left.element)
      refine hk.enter (Or.inl hx) rfl hnumbered hothers fun a hhands => ⟨.gone, ?_, hgone⟩
      rw [hleft]
      exact hlands.crash hhands ((hs.players name).timed x hx) hlate
  | @wakes i name x hx =>
      obtain ⟨hnumbered, hothers, hgone⟩ := hk.numbered.leave hx
      refine hk.enter (Or.inr (List.mem_of_getElem? hx)) rfl hnumbered hothers ?_
      intro a hhands
      exact ⟨.gone, hhands.cancel, hgone⟩

/-- A run's ledger keeps the book. -/
theorem Kept.run (hk : Kept h book) (hs : h.Sound) (events : List Event) :
    Kept (h.run events) (book ++ h.ledger events) := by
  induction events generalizing h book with
  | nil =>
      show Kept h (book ++ [])
      rw [List.append_nil]
      exact hk
  | cons event later ih =>
      have hrest := ih (hk.after hs event) (hs.after event)
      rw [List.append_assoc] at hrest
      exact hrest

/-- After every history the sessions have kept to the rules. -/
theorem kept_run (settings : Settings) (supported : Bool) (events : List Event) :
    Kept ((opened settings supported).run events) ((opened settings supported).ledger events) := by
  have hopened : Kept (opened settings supported) [] := by
    refine ⟨⟨?_, ?_, ?_, List.nodup_nil⟩, ?_, ?_⟩
    · rintro name x (hx | hx)
      · cases hx
      · cases hx
    · intro name other x y hx
      cases hx
    · intro name x entry hx
      cases hx
    · intro entry hentry
      cases hentry
    · intro n hn
      exact absurd hn (Nat.not_lt_zero n)
  exact hopened.run (sound_opened settings supported) events

end History

end VideoWall.Player
