/-
The operations on a wall, and what they do to its players and its poller.

# Two ways to change a wall

Almost every operation sets the list of streams or the view to something
else and then reconciles. What reconciling does is therefore said once,
for a wall with any list and any view (`Sound.reconcile`), and an
operation is one of a few shapes (`Controller.Performs`).

# Soundness

A wall is sound (`Controller.Sound`) when its players and its poller are,
when the streams on screen have a session, as far as video can be decoded at
all, and when every other stream is torn down. Operations keep that. To
reconcile is to replace what has crashed: afterwards every session on screen
and every task runs.
-/
import VideoWall.Proofs.Player.Attached
import VideoWall.Proofs.Polling.Pace
import VideoWall.Wall.Controller

namespace VideoWall.Wall

open Recorder Player Polling

-- ========================================================== operations

/-- What the user can do to a wall. -/
inductive Operation where
  | setStreams (streams : List Stream)
  | setLayout (layout : Layout)
  | select (name : String)
  | stepPage (delta : Int)
  | setShowDetections (shown : Bool)
  | restartVisible
  | reconcile
  | requestPlay (name : String)

/-- Whether an operation is about what is shown of the list, not about the
list. -/
def Operation.keepsList : Operation → Bool
  | .setStreams _ => false
  | _ => true

namespace Controller

variable {c b : Controller} {name : String}

/-- The wall after an operation. A wish to play is for a stream on
screen. -/
def perform (c : Controller) : Operation → Controller
  | .setStreams streams => c.setStreams streams
  | .setLayout layout => c.setLayout layout
  | .select name => c.select name
  | .stepPage delta => c.stepPage delta
  | .setShowDetections shown => c.setShowDetections shown
  | .restartVisible => c.restartVisible
  | .reconcile => c.reconcile
  | .requestPlay name => if name ∈ c.visible then c.requestPlay name else c

/-- The names of the list. -/
def names (c : Controller) : List String := c.streams.map (·.name)

/-- The selection is in the list. -/
def SelectionListed (c : Controller) : Prop :=
  ∀ name, c.view.selected = some name → name ∈ c.names

/-- Nothing but the list and the view is different. -/
structure SameDevices (c b : Controller) : Prop where
  players : b.players = c.players
  poller : b.poller = c.poller
  visible : b.visible = c.visible

/-- The shapes of operations. -/
inductive Performs (c : Controller) : Controller → Prop where
  | nothing : Performs c c
  | selects (name : String) (hlisted : name ∈ c.names) (hlayout : c.view.layout ≠ .single) :
      Performs c { c with view.selected := some name }
  | reconciles (b : Controller) (hsame : SameDevices c b)
      (hlisted : c.SelectionListed → (∀ name ∈ c.visible, name ∈ c.names) →
        b.SelectionListed) : Performs c b.reconcile
  | restarts : Performs c c.restartVisible
  | wishes (name : String) (hvisible : name ∈ c.visible) : Performs c (c.requestPlay name)

/-- A stream that is found is listed. -/
theorem mem_names_of_stream? (h : (c.stream? name).isSome = true) : name ∈ c.names := by
  unfold stream? at h
  obtain ⟨s, hs⟩ := Option.isSome_iff_exists.1 h
  have hname := List.find?_some hs
  exact List.mem_map.2 ⟨s, List.mem_of_find?_eq_some hs, by simpa using hname⟩

/-- A new list keeps a selection only if it has it. -/
theorem selectionListed_setStreams (c : Controller) (streams : List Stream) :
    SelectionListed
      { c with
        streams
        view.selected := c.view.selected.filter fun name =>
          (({ c with streams } : Controller).stream? name).isSome } := by
  intro name hselected
  obtain ⟨-, hlisted⟩ := Option.filter_eq_some_iff.1 hselected
  exact mem_names_of_stream? (c := { c with streams }) hlisted

private theorem selectionListed_setLayout (hc : c.SelectionListed)
    (hvisible : ∀ name ∈ c.visible, name ∈ c.names) (layout : Layout) (page : Nat) :
    SelectionListed
      { c with view := { c.view with layout, selected := c.selectionFor layout, page } } := by
  intro name hselected
  have hfor : c.selectionFor layout = some name := hselected
  unfold selectionFor at hfor
  split at hfor
  · exact hvisible name (List.mem_of_mem_head? hfor)
  · exact hc name hfor

/-- Every operation has one of the shapes. -/
theorem performs (c : Controller) (op : Operation) : c.Performs (c.perform op) := by
  cases op with
  | setStreams streams =>
      exact .reconciles _ ⟨rfl, rfl, rfl⟩ fun _ _ => selectionListed_setStreams c streams
  | setLayout layout =>
      exact .reconciles _ ⟨rfl, rfl, rfl⟩ fun hc hvisible =>
        selectionListed_setLayout hc hvisible layout _
  -- a selection reconciles on a wall of one tile only; with pages it is just noted
  | select name =>
      unfold perform select
      dsimp only
      split
      case isFalse => exact .nothing
      case isTrue hlisted =>
        split
        case isTrue =>
          refine .reconciles _ ⟨rfl, rfl, rfl⟩ fun _ _ n hn => ?_
          cases hn
          exact mem_names_of_stream? hlisted
        case isFalse hlayout => exact .selects name (mem_names_of_stream? hlisted) hlayout
  | stepPage delta =>
      unfold perform stepPage
      dsimp only
      split
      · exact .nothing
      · split
        · refine .reconciles _ ⟨rfl, rfl, rfl⟩ fun _ _ n hn => ?_
          obtain ⟨s, hs, rfl⟩ := Option.map_eq_some_iff.1 hn
          exact List.mem_map.2 ⟨s, List.mem_of_getElem? hs, rfl⟩
        · exact .reconciles _ ⟨rfl, rfl, rfl⟩ fun hc _ => hc
  | setShowDetections shown => exact .reconciles _ ⟨rfl, rfl, rfl⟩ fun hc _ => hc
  | restartVisible => exact .restarts
  | reconcile => exact .reconciles c ⟨rfl, rfl, rfl⟩ fun hc _ => hc
  | requestPlay name =>
      unfold perform
      dsimp only
      split
      case isTrue hvisible => exact .wishes name hvisible
      case isFalse => exact .nothing

/-- Only an operation that gives the wall a list changes the list. -/
theorem streams_perform (c : Controller) (op : Operation) (hop : op.keepsList = true) :
    (c.perform op).streams = c.streams := by
  cases op with
  | setStreams streams => cases hop
  | setLayout | setShowDetections | restartVisible | reconcile => rfl
  | select name =>
      unfold perform select
      dsimp only
      split
      · split
        · rfl
        · rfl
      · rfl
  | stepPage delta =>
      unfold perform stepPage
      dsimp only
      split
      · rfl
      · split
        · rfl
        · rfl
  | requestPlay name =>
      unfold perform
      dsimp only
      split
      · rfl
      · rfl

/-- Operations that keep the list keep it. -/
theorem streams_foldl_perform (c : Controller) (ops : List Operation)
    (hops : ops.all Operation.keepsList = true) : (ops.foldl perform c).streams = c.streams := by
  induction ops generalizing c with
  | nil => rfl
  | cons op rest ih =>
      obtain ⟨hop, hrest⟩ := Bool.and_eq_true_iff.1 hops
      exact (ih (c.perform op) hrest).trans (streams_perform c op hop)

-- ========================================================== soundness

/-- Players and poller are sound, and the players are those on screen. -/
structure Sound (c : Controller) : Prop where
  players : c.players.Sound
  poller : c.poller.Sound
  onScreen : c.players.supported = true → ∀ name ∈ c.visible, c.players.hasSession name = true
  offScreen : ∀ name, name ∉ c.visible → c.players.TornDown name

/-- Where video can be decoded, the streams with a session are those on
screen. -/
theorem Sound.hasSession_iff (h : c.Sound) (hs : c.players.supported = true) (name : String) :
    c.players.hasSession name = true ↔ name ∈ c.visible := by
  refine ⟨fun hhas => ?_, h.onScreen hs name⟩
  by_cases hvisible : name ∈ c.visible
  · exact hvisible
  · rw [(h.offScreen name hvisible).hasSession] at hhas
    cases hhas

/-- A session on screen runs unless it has crashed. -/
theorem Sound.isAttached_iff (h : c.Sound) (hs : c.players.supported = true) (name : String) :
    c.players.isAttached name = true ↔ name ∈ c.visible ∧ c.players.hasCrashed name = false := by
  rw [(h.players name).isAttached_iff, h.hasSession_iff hs]

/-- Whether a wall is sound is told by its devices. -/
theorem Sound.congr (h : c.Sound) (hsame : SameDevices c b) : b.Sound := by
  refine ⟨?_, ?_, ?_, ?_⟩
  · rw [hsame.players]
    exact h.players
  · rw [hsame.poller]
    exact h.poller
  · rw [hsame.players, hsame.visible]
    exact h.onScreen
  · rw [hsame.players, hsame.visible]
    exact h.offScreen

-- ====================================================== reconciling

/-- The names that leave the screen for those in `next`. -/
def leaving (c : Controller) (next : List Stream) : List String :=
  c.visible.filter fun name => !next.any (·.name == name)

/-- Streams that leave were visible and no longer are. -/
theorem mem_leaving {next : List Stream} :
    name ∈ c.leaving next ↔ name ∈ c.visible ∧ name ∉ next.map (·.name) := by
  simp [leaving, List.mem_filter]

theorem reconcilePlayers_eq (c : Controller) (next : List Stream) :
    c.reconcilePlayers next
      = (next.map (·.name)).foldl Registry.attach
          ((c.leaving next).foldl Registry.teardown c.players) := by
  rw [List.foldl_map]
  rfl

theorem follows_reconcilePlayers (c : Controller) (next : List Stream) :
    Registry.Follows c.players (c.reconcilePlayers next) := by
  rw [reconcilePlayers_eq]
  exact (Registry.follows_foldl Registry.follows_teardown (c.leaving next) c.players).trans
    (Registry.follows_foldl Registry.follows_attach _ _)

/-- Reconciling attaches what is to be seen. -/
theorem isAttached_reconcilePlayers (hs : c.players.supported = true) {next : List Stream}
    (hname : name ∈ next.map (·.name)) : (c.reconcilePlayers next).isAttached name = true := by
  rw [reconcilePlayers_eq]
  have hsupported : ((c.leaving next).foldl Registry.teardown c.players).supported = true :=
    (Registry.follows_foldl Registry.follows_teardown _ _).supported.trans hs
  refine (Registry.isAttached_foldl (fun r n o h => Registry.isAttached_attach h n o)
    Registry.supported_attach hsupported _ name).2 (Or.inl hname)

/-- What is not to be on screen is torn down: it was on screen and has
left, or it was torn down before. -/
theorem tornDown_reconcilePlayers (h : c.Sound) {next : List Stream}
    (hname : name ∉ next.map (·.name)) : (c.reconcilePlayers next).TornDown name := by
  rw [reconcilePlayers_eq]
  have hleft : ((c.leaving next).foldl Registry.teardown c.players).TornDown name := by
    by_cases hvisible : name ∈ c.visible
    · exact Registry.tornDown_teardowns (mem_leaving.2 ⟨hvisible, hname⟩) h.players
    · exact (h.offScreen name hvisible).teardowns _
  exact hleft.congr (Registry.agrees_foldl (fun _ _ ho => Registry.agrees_attach ho) hname _)

/-- No session on screen has crashed, and what is to be on screen has one that
runs. -/
theorem hasCrashed_reconcilePlayers (h : c.Sound) (next : List Stream) (name : String) :
    (c.reconcilePlayers next).hasCrashed name = false := by
  by_cases hname : name ∈ next.map (·.name)
  · have hleft : ((c.leaving next).foldl Registry.teardown c.players).Sound :=
      (Registry.follows_foldl Registry.follows_teardown _ _).sound h.players
    rw [reconcilePlayers_eq, Bool.eq_false_iff]
    intro hcrashed
    exact ((Registry.hasCrashed_foldl (fun r n o hr => Registry.hasCrashed_attach hr n o)
      Registry.follows_attach hleft _ name).1 hcrashed).1 hname
  · exact (tornDown_reconcilePlayers h hname).hasCrashed

/-- The streams that are polled without being wanted. -/
def stale (c : Controller) (next : List Stream) : List String :=
  c.poller.enabledStreams.filter fun name => !next.any fun s => s.name == name && c.polls s

/-- Tasks that nothing asks for are stale. -/
theorem mem_stale {next : List Stream} :
    name ∈ c.stale next
      ↔ c.poller.hasTask name = true ∧ ¬ ∃ s ∈ next, s.name = name ∧ c.polls s = true := by
  unfold stale
  rw [List.mem_filter, Poller.mem_enabledStreams]
  simp

theorem reconcilePoller_eq (c : Controller) (next : List Stream) :
    c.reconcilePoller next
      = ((next.filter c.polls).map (·.name)).foldl Poller.enable
          ((c.stale next).foldl Poller.disable c.poller) := by
  rw [List.foldl_map]
  rfl

/-- What is visible and polls is polled. -/
theorem mem_polled {next : List Stream} :
    name ∈ (next.filter c.polls).map (·.name)
      ↔ ∃ s ∈ next, s.name = name ∧ c.polls s = true := by
  simp only [List.mem_map, List.mem_filter]
  constructor
  · rintro ⟨s, ⟨hs, hp⟩, hn⟩
    exact ⟨s, hs, hn, hp⟩
  · rintro ⟨s, hs, hn, hp⟩
    exact ⟨s, ⟨hs, hp⟩, hn⟩

/-- The streams that are polled in the end are those that are to be. -/
theorem isEnabled_reconcilePoller (c : Controller) (next : List Stream) (name : String) :
    (c.reconcilePoller next).isEnabled name = true
      ↔ ∃ s ∈ next, s.name = name ∧ c.polls s = true := by
  rw [reconcilePoller_eq, Poller.isEnabled_enables, Poller.isEnabled_disables, mem_polled,
    mem_stale]
  constructor
  · rintro (hw | ⟨hkept, hp⟩)
    · exact hw
    · exact Classical.not_not.1 fun hnot => hkept ⟨Poller.hasTask_of_isEnabled hp, hnot⟩
  · exact Or.inl

/-- No task has crashed then: those that had are replaced, or not wanted. -/
theorem hasCrashed_reconcilePoller (c : Controller) (next : List Stream) (name : String) :
    (c.reconcilePoller next).hasCrashed name = false := by
  rw [reconcilePoller_eq, Bool.eq_false_iff]
  intro hcrashed
  rw [Poller.hasCrashed_enables, Poller.hasCrashed_disables, mem_polled, mem_stale] at hcrashed
  obtain ⟨hnot, hkept, hbefore⟩ := hcrashed
  exact hkept ⟨Poller.hasTask_of_hasCrashed hbefore, hnot⟩

/-- After reconciling the tasks are those asked for. -/
theorem hasTask_reconcilePoller (h : c.poller.Sound) (next : List Stream) (name : String) :
    (c.reconcilePoller next).hasTask name = true
      ↔ ∃ s ∈ next, s.name = name ∧ c.polls s = true := by
  have hsound : (c.reconcilePoller next).Sound := by
    rw [reconcilePoller_eq]
    exact Poller.sound_enables _ (Poller.sound_disables _ h)
  rw [← isEnabled_reconcilePoller, (hsound name).isEnabled_iff,
    and_iff_left (hasCrashed_reconcilePoller c next name)]

theorem sound_reconcilePoller (h : c.poller.Sound) (next : List Stream) :
    (c.reconcilePoller next).Sound := by
  rw [reconcilePoller_eq]
  exact Poller.sound_enables _ (Poller.sound_disables _ h)

/-- Reconciling keeps a wall sound, whatever belongs on screen. -/
theorem Sound.reconcile (h : c.Sound) : c.reconcile.Sound := by
  have hsettled : ({ c with view := c.settledView } : Controller).Sound := h.congr ⟨rfl, rfl, rfl⟩
  refine ⟨?_, ?_, ?_, ?_⟩
  · exact (follows_reconcilePlayers _ _).sound hsettled.players
  · exact sound_reconcilePoller hsettled.poller _
  · intro hs name hname
    have hbefore := (follows_reconcilePlayers { c with view := c.settledView }
      ({ c with view := c.settledView } : Controller).wanted).supported
    exact Bool.or_eq_true_iff.2
      (Or.inl (isAttached_reconcilePlayers (hbefore.symm.trans hs) hname))
  · intro name hname
    exact tornDown_reconcilePlayers hsettled hname

private theorem paced_reconcilePoller {cfg : Polling.Settings} (h : c.poller.Paced cfg)
    (next : List Stream) : (c.reconcilePoller next).Paced cfg := by
  rw [reconcilePoller_eq]
  exact (h.disables _).enables _

-- ==================================================== all operations

/-- An operation of the wall is operations of its registry. -/
theorem follows_perform (c : Controller) (op : Operation) :
    Registry.Follows c.players (c.perform op).players := by
  have hshape := c.performs op
  generalize c.perform op = c' at hshape
  cases hshape with
  | nothing => exact Registry.Follows.refl _
  | selects name hlisted hlayout => exact Registry.Follows.refl _
  | reconciles b hsame hlisted =>
      rw [← hsame.players]
      exact follows_reconcilePlayers _ _
  | restarts => exact Registry.follows_foldl Registry.follows_replace c.visible c.players
  | wishes name hvisible => exact Registry.follows_requestPlay c.players name

/-- New sessions for the streams on screen, and for no others. -/
private theorem Sound.restartVisible (h : c.Sound) : c.restartVisible.Sound := by
  have hfollows := Registry.follows_foldl Registry.follows_replace c.visible c.players
  refine ⟨hfollows.sound h.players, h.poller, ?_, ?_⟩
  · intro hs name hname
    refine Bool.or_eq_true_iff.2 (Or.inl ?_)
    refine (Registry.isAttached_foldl (fun r n o h => Registry.isAttached_replace h n o)
      (fun r n => (Registry.follows_replace r n).supported) ?_ c.visible name).2 (Or.inl hname)
    exact hfollows.supported.symm.trans hs
  · intro name hname
    exact (h.offScreen name hname).congr
      (Registry.agrees_foldl (fun _ _ ho => Registry.agrees_replace ho) hname _)

/-- A wish to play keeps a wall sound. -/
theorem Sound.requestPlay (h : c.Sound) (hvisible : name ∈ c.visible) :
    (c.requestPlay name).Sound := by
  have hfollows := Registry.follows_requestPlay c.players name
  refine ⟨hfollows.sound h.players, h.poller, ?_, ?_⟩
  · intro hs other hother
    have hbefore : c.players.supported = true := hfollows.supported.symm.trans hs
    have hhas := h.onScreen hbefore other hother
    by_cases ho : other = name
    · exact Bool.or_eq_true_iff.2
        (Or.inl ((Registry.isAttached_requestPlay hbefore name other).2 (Or.inl ho)))
    · have hagrees := Registry.agrees_requestPlay (r := c.players) ho
      unfold Registry.hasSession at hhas ⊢
      rwa [show (c.requestPlay name).players = c.players.requestPlay name from rfl,
        hagrees.isAttached, hagrees.hasCrashed]
  · intro other hother
    refine (h.offScreen other hother).congr (Registry.agrees_requestPlay ?_)
    rintro rfl
    exact hother hvisible

/-- Every operation keeps a wall sound. -/
theorem Sound.perform (h : c.Sound) (op : Operation) : (c.perform op).Sound := by
  have hshape := c.performs op
  generalize c.perform op = c' at hshape
  cases hshape with
  | nothing => exact h
  | selects name hlisted hlayout => exact h.congr ⟨rfl, rfl, rfl⟩
  | reconciles b hsame hlisted => exact (h.congr hsame).reconcile
  | restarts => exact h.restartVisible
  | wishes name hvisible => exact h.requestPlay hvisible

/-- No operation makes a session crash. -/
theorem Sound.hasCrashed_perform (h : c.Sound) (op : Operation)
    (hcrashed : (c.perform op).players.hasCrashed name = true) :
    c.players.hasCrashed name = true := by
  have hshape := c.performs op
  generalize c.perform op = c' at hshape hcrashed
  cases hshape with
  | nothing => exact hcrashed
  | selects => exact hcrashed
  | reconciles b hsame hlisted =>
      have hsettled : ({ b with view := b.settledView } : Controller).Sound :=
        (h.congr hsame).congr ⟨rfl, rfl, rfl⟩
      have hnone := hasCrashed_reconcilePlayers hsettled
        ({ b with view := b.settledView } : Controller).wanted name
      exact absurd (hcrashed.symm.trans hnone) (by decide)
  | restarts =>
      exact ((Registry.hasCrashed_foldl (fun r n o hr => Registry.hasCrashed_replace hr n o)
        Registry.follows_replace h.players c.visible name).1 hcrashed).2
  | wishes other hvisible =>
      exact ((Registry.hasCrashed_requestPlay h.players other name).1 hcrashed).2

/-- No operation changes how sessions play. -/
theorem settings_perform (c : Controller) (op : Operation) :
    (c.perform op).players.settings = c.players.settings := by
  have hshape := c.performs op
  generalize c.perform op = c' at hshape
  cases hshape with
  | nothing | selects => rfl
  | reconciles b hsame hlisted =>
      rw [← hsame.players]
      show (reconcilePlayers { b with view := b.settledView } _).settings = _
      rw [reconcilePlayers_eq, Registry.settings_foldl Registry.settings_attach,
        Registry.settings_teardowns]
  | restarts =>
      have hreplace : ∀ (r : Registry) (name : String), (r.replace name).settings = r.settings :=
        fun r name => Registry.settings_attach (r.teardown name) name
      exact Registry.settings_foldl hreplace c.visible c.players
  | wishes name hvisible => exact Registry.settings_requestPlay _ name

/-- Nor one of its tasks wait longer than the settings allow. -/
theorem paced_perform {cfg : Polling.Settings} (h : c.poller.Paced cfg) (op : Operation) :
    (c.perform op).poller.Paced cfg := by
  have hshape := c.performs op
  generalize c.perform op = c' at hshape
  cases hshape with
  | nothing | selects | restarts | wishes => exact h
  | reconciles b hsame hlisted =>
      rw [← hsame.poller] at h
      exact paced_reconcilePoller (c := { b with view := b.settledView }) h _

-- ========================================================== shutdown

/-- Nothing is on screen, nothing runs, and nothing is shown. -/
structure Stopped (c : Controller) : Prop where
  visible : c.visible = []
  sessions : ∀ name, c.players.sessions.get? name = none
  crashed : ∀ name, c.players.hasCrashed name = false
  tasks : ∀ name, c.poller.tasks.get? name = none
  feeds : ∀ name, (c.poller.feed name).Blank

/-- A shutdown keeps a wall sound. -/
theorem Sound.shutdown (h : c.Sound) : c.shutdown.Sound := by
  refine ⟨?_, ?_, ?_, ?_⟩
  · exact (Registry.follows_teardownAll c.players).sound h.players
  · exact Poller.sound_disables _ h.poller
  · intro _ name hname
    cases hname
  · intro name _
    exact Registry.tornDown_teardownAll h.players name

/-- A shutdown stops the wall. -/
theorem Sound.stopped_shutdown (h : c.Sound) : c.shutdown.Stopped := by
  have htasks := Poller.disableAll_tasks c.poller
  refine ⟨rfl, ?_, ?_, htasks, ?_⟩
  · intro name
    exact (Registry.tornDown_teardownAll h.players name).session
  · intro name
    exact (Registry.tornDown_teardownAll h.players name).hasCrashed
  · intro name
    exact (h.shutdown.poller name).idle (htasks name)

end Controller

end VideoWall.Wall
