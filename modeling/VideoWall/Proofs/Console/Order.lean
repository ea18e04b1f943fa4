/-
A live screen is in order after whatever has happened to it.

# On the tiles

The cursor stands on a tile, if there is one, and pictures are kept for
tiles on screen only (`OnTiles`). Keys and loads end with settling, which
sees to that whatever the screen was like (`onTiles_settled`), and drawing
adds pictures of tiles on screen.

# The list and its loads

Loads are numbered as they begin, and the one under way is the latest
(`Loading`). What an event does to the list and to loading is one of four
things (`History.Loads`): nothing; it begins a load; or it ends the load
under way, with a list or with a failure. So a list is that of the latest
load, and a wall with streams is never covered by a page that says that
they are loading or that they could not be loaded.
-/
import VideoWall.Proofs.Console.History
import VideoWall.Proofs.Wall.Pages

namespace VideoWall.Console

open Recorder Player Wall

variable {c c' : Console}

-- ============================================================ on the tiles

/-- The cursor and the pictures that are kept are those of tiles. -/
structure OnTiles (c : Console) : Prop where
  cursor : c.cursor < max 1 c.wall.visible.length
  overlays : ∀ name ∈ c.overlays.names, name ∈ c.wall.visible
  video : ∀ name ∈ c.video.names, name ∈ c.wall.visible

/-- What is kept of a table is on screen. -/
theorem mem_visible_of_onScreen {α : Type} {t : ByName α} {name : String}
    (h : name ∈ (c.onScreen t).names) : name ∈ c.wall.visible := by
  rw [ByName.mem_names, get?_onScreen] at h
  split at h
  · assumption
  · cases h

/-- Settling puts all on tiles, whatever it was before. -/
theorem onTiles_settled (c : Console) : c.settled.OnTiles := by
  refine ⟨?_, fun name h => mem_visible_of_onScreen h, fun name h => mem_visible_of_onScreen h⟩
  show min c.cursor (c.wall.visible.length - 1) < max 1 c.wall.visible.length
  omega

/-- There is a stream under the cursor if there is one on screen. -/
theorem OnTiles.isSome_selected? (h : c.OnTiles) :
    c.selected?.isSome = true ↔ c.wall.visible ≠ [] := by
  have hcursor := h.cursor
  unfold selected?
  rw [Option.isSome_iff_ne_none, ne_eq, List.getElem?_eq_none_iff, ← List.length_pos_iff]
  omega

/-- To show a tile adds no picture but its own. -/
theorem names_showTile (c : Console) (name : String) (width height : Nat) :
    (∀ other ∈ (c.showTile name width height).1.overlays.names,
        other = name ∨ other ∈ c.overlays.names)
      ∧ ∀ other ∈ (c.showTile name width height).1.video.names,
          other = name ∨ other ∈ c.video.names := by
  have hsame : (∀ other ∈ c.overlays.names, other = name ∨ other ∈ c.overlays.names)
      ∧ ∀ other ∈ c.video.names, other = name ∨ other ∈ c.video.names :=
    ⟨fun _ => Or.inr, fun _ => Or.inr⟩
  unfold showTile
  dsimp only
  split
  · exact hsame
  · exact hsame
  · exact hsame
  · unfold showFrame
    dsimp only
    split
    · exact ⟨fun _ => ByName.mem_names_set.1, fun _ => ByName.mem_names_set.1⟩
    · exact ⟨hsame.1, fun _ => ByName.mem_names_set.1⟩

theorem OnTiles.showTile (h : c.OnTiles) {name : String} (hname : name ∈ c.wall.visible)
    (width height : Nat) : (c.showTile name width height).1.OnTiles := by
  obtain ⟨hoverlays, hvideo⟩ := names_showTile c name width height
  rw [showTile_eq] at hoverlays hvideo ⊢
  refine ⟨h.cursor, fun other hother => ?_, fun other hother => ?_⟩
  · rcases hoverlays other hother with rfl | hkept
    · exact hname
    · exact h.overlays other hkept
  · rcases hvideo other hother with rfl | hkept
    · exact hname
    · exact h.video other hkept

/-- Tiles on screen are kept pictures of, and no others. -/
private theorem OnTiles.showTiles (h : c.OnTiles) {tiles : List Tile}
    (htiles : ∀ tile ∈ tiles, tile.name ∈ c.wall.visible) : (c.showTiles tiles).OnTiles := by
  induction tiles generalizing c with
  | nil => exact h
  | cons tile rest ih =>
      refine ih (h.showTile (htiles tile List.mem_cons_self) tile.width tile.height) ?_
      intro other hother
      rw [wall_showTile]
      exact htiles other (List.mem_cons_of_mem _ hother)

private theorem OnTiles.draw (h : c.OnTiles) (now width height : Nat) :
    (c.draw now width height).1.OnTiles := by
  obtain ⟨tiles, htiles, hdrawn⟩ := draw_eq c now width height
  have hshown := h.showTiles htiles
  rw [hdrawn]
  exact ⟨hshown.cursor, hshown.overlays, hshown.video⟩

/-- A key that does nothing leaves the screen as it is, and all others end
with settling. -/
private theorem OnTiles.press (h : c.OnTiles) (now : Nat) (k : Key) :
    (c.press now k).1.OnTiles := by
  unfold Console.press
  split
  · exact h
  · split
    · exact h
    · exact onTiles_settled _

/-- After a load only pictures of tiles on screen are kept. -/
private theorem OnTiles.takeLoad (h : c.OnTiles) (now : Nat)
    (outcome : Except Failure (List Stream)) :
    (c.takeLoad now outcome).OnTiles := by
  unfold Console.takeLoad
  cases outcome with
  | ok streams =>
      have hsettled := onTiles_settled
        { c with pending := none, wall := c.wall.setStreams streams, load := .ready }
      dsimp only
      split
      · exact ⟨hsettled.cursor, hsettled.overlays, hsettled.video⟩
      · exact hsettled
  | error f =>
      dsimp only
      split
      · exact ⟨h.cursor, h.overlays, h.video⟩
      · exact ⟨h.cursor, h.overlays, h.video⟩

-- ================================================================= loading

/-- The key for loading begins a load. -/
private theorem sameLoading_press_reload (c : Console) (now : Nat) :
    c.reload.SameLoading (c.press now (.char 'r')).1 := ⟨rfl, rfl, rfl, rfl⟩

theorem sameLoading_showTile (c : Console) (name : String) (width height : Nat) :
    c.SameLoading (c.showTile name width height).1 := by
  rw [showTile_eq]
  exact ⟨rfl, rfl, rfl, rfl⟩

private theorem sameLoading_showTiles (c : Console) (tiles : List Tile) :
    c.SameLoading (c.showTiles tiles) := by
  induction tiles generalizing c with
  | nil => exact ⟨rfl, rfl, rfl, rfl⟩
  | cons tile rest ih =>
      exact (sameLoading_showTile c tile.name tile.width tile.height).trans (ih _)

/-- The list is there unless there is none, and the load under way is the
latest. -/
structure Loading (c : Console) : Prop where
  ready : c.load ≠ .ready → c.wall.streams = []
  latest : ∀ serial, c.pending = some serial → serial + 1 = c.loads

/-- What does not touch loading leaves it as it was. -/
theorem Loading.congr (h : c.Loading) (hsame : c.SameLoading c') : c'.Loading := by
  refine ⟨fun hload => ?_, fun serial hpending => ?_⟩
  · rw [hsame.load] at hload
    rw [hsame.streams]
    exact h.ready hload
  · rw [hsame.pending] at hpending
    rw [hsame.loads]
    exact h.latest serial hpending

private theorem Loading.reload (h : c.Loading) : c.reload.Loading := by
  refine ⟨fun hload => ?_, fun serial hpending => ?_⟩
  · by_cases hempty : c.wall.streams.isEmpty = true
    · exact List.isEmpty_iff.1 hempty
    · have hkept : c.reload.load = c.load := if_neg hempty
      rw [hkept] at hload
      exact h.ready hload
  · cases hpending
    rfl

/-- Nothing is under way after a load, and none was begun by it. -/
theorem pending_takeLoad (c : Console) (now : Nat) (outcome : Except Failure (List Stream)) :
    (c.takeLoad now outcome).pending = none ∧ (c.takeLoad now outcome).loads = c.loads := by
  unfold takeLoad
  cases outcome with
  | ok streams =>
      dsimp only
      split
      · exact ⟨rfl, rfl⟩
      · exact ⟨rfl, rfl⟩
  | error f =>
      dsimp only
      split
      · exact ⟨rfl, rfl⟩
      · exact ⟨rfl, rfl⟩

/-- A list that comes is put on the wall. -/
theorem takeLoad_ok (c : Console) (now : Nat) (streams : List Stream) :
    (c.takeLoad now (.ok streams)).wall = c.wall.setStreams streams
      ∧ (c.takeLoad now (.ok streams)).load = .ready := by
  unfold takeLoad
  dsimp only
  split
  · exact ⟨rfl, rfl⟩
  · exact ⟨rfl, rfl⟩

/-- A failure leaves the wall as it is, and does not cover it. -/
theorem takeLoad_error (c : Console) (now : Nat) (f : Failure) :
    (c.takeLoad now (.error f)).wall = c.wall
      ∧ (c.wall.streams ≠ [] → (c.takeLoad now (.error f)).load = c.load) := by
  unfold takeLoad
  dsimp only
  split
  case isTrue hempty => exact ⟨rfl, fun hstreams => absurd (List.isEmpty_iff.1 hempty) hstreams⟩
  case isFalse => exact ⟨rfl, fun _ => rfl⟩

private theorem Loading.takeLoad (h : c.Loading) (now : Nat)
    (outcome : Except Failure (List Stream)) :
    (c.takeLoad now outcome).Loading := by
  refine ⟨fun hload => ?_, fun serial hpending => ?_⟩
  · cases outcome with
    | ok streams => exact absurd (takeLoad_ok c now streams).2 hload
    | error f =>
        obtain ⟨hwall, hkept⟩ := takeLoad_error c now f
        rw [hwall]
        refine Classical.byContradiction fun hstreams => ?_
        rw [hkept hstreams] at hload
        exact hstreams (h.ready hload)
  · rw [(pending_takeLoad c now outcome).1] at hpending
    cases hpending

-- =========================================================== histories

/-- Whether an event begins a load. -/
def Event.beginsLoad : Event → Bool
  | .reload => true
  | .key _ k => k = .char 'r'
  | _ => false

namespace History

variable {h : History}

/-- What an event does to the list of streams and to its loading. -/
inductive Loads (h : History) : Event → History → Prop where
  | nothing {event : Event} {next : History} (hbegins : event.beginsLoad = false)
      (hsame : h.console.SameLoading next.console) : Loads h event next
  | begins {event : Event} {next : History} (hbegins : event.beginsLoad = true)
      (hsame : h.console.reload.SameLoading next.console) : Loads h event next
  | takes (serial now : Nat) (outcome : Except Failure (List Stream))
      (hpending : h.console.pending = some serial) :
      Loads h (.loaded serial now outcome) { h with console := h.console.takeLoad now outcome }

/-- The load under way is taken. -/
theorem after_loaded {serial : Nat} (hpending : h.console.pending = some serial) (now : Nat)
    (outcome : Except Failure (List Stream)) :
    h.after (.loaded serial now outcome)
      = { h with console := h.console.takeLoad now outcome } := by
  show ({ h with console := h.console.loaded serial now outcome } : History) = _
  unfold Console.loaded
  rw [if_pos hpending]

/-- What comes of a load that is not under way is ignored. -/
theorem after_loaded_stale {serial : Nat} (hpending : h.console.pending ≠ some serial)
    (now : Nat) (outcome : Except Failure (List Stream)) :
    h.after (.loaded serial now outcome) = h := by
  show ({ h with console := h.console.loaded serial now outcome } : History) = _
  unfold Console.loaded
  rw [if_neg hpending]

/-- What an event is for loading. -/
theorem loads_after (h : History) (event : Event) : h.Loads event (h.after event) := by
  cases event with
  | key now k =>
      by_cases hk : k = .char 'r'
      · subst hk
        exact .begins rfl (sameLoading_press_reload h.console now)
      · exact .nothing (decide_eq_false hk) ((turns_press h.console now hk).loading)
  | reload => exact .begins rfl ⟨rfl, rfl, rfl, rfl⟩
  | loaded serial now outcome =>
      by_cases hpending : h.console.pending = some serial
      · rw [after_loaded hpending]
        exact .takes serial now outcome hpending
      · rw [after_loaded_stale hpending]
        exact .nothing rfl ⟨rfl, rfl, rfl, rfl⟩
  | toast now severity message => exact .nothing rfl ⟨rfl, rfl, rfl, rfl⟩
  | draw now width height =>
      obtain ⟨tiles, -, hdrawn⟩ := draw_eq h.console now width height
      refine .nothing rfl ((sameLoading_showTiles h.console tiles).trans ?_)
      show (h.console.showTiles tiles).SameLoading (h.console.draw now width height).1
      rw [hdrawn]
      exact ⟨rfl, rfl, rfl, rfl⟩
  | tile name width height =>
      refine .nothing rfl ?_
      unfold after
      dsimp only
      split
      · exact sameLoading_showTile h.console name width height
      · exact ⟨rfl, rfl, rfl, rfl⟩
  | playing a => exact .nothing rfl ⟨rfl, rfl, rfl, rfl⟩
  | polling a => exact .nothing rfl ⟨rfl, rfl, rfl, rfl⟩

-- ================================================================ in order

/-- The cursor, the pictures and the list are in order. -/
structure InOrder (h : History) : Prop where
  tiles : h.console.OnTiles
  loading : h.console.Loading

theorem onTiles_after (ht : h.console.OnTiles) (event : Event) :
    (h.after event).console.OnTiles := by
  cases event with
  | key now k => exact ht.press now k
  | loaded serial now outcome =>
      by_cases hpending : h.console.pending = some serial
      · rw [after_loaded hpending]
        exact ht.takeLoad now outcome
      · rw [after_loaded_stale hpending]
        exact ht
  | draw now width height => exact ht.draw now width height
  | tile name width height =>
      unfold after
      dsimp only
      split
      case isTrue hvisible => exact ht.showTile hvisible width height
      case isFalse => exact ht
  | reload | toast | playing | polling => exact ⟨ht.cursor, ht.overlays, ht.video⟩

theorem loading_after (hl : h.console.Loading) (event : Event) :
    (h.after event).console.Loading := by
  have hloads := h.loads_after event
  generalize h.after event = next at hloads
  cases hloads with
  | nothing hbegins hsame => exact hl.congr hsame
  | begins hbegins hsame => exact hl.reload.congr hsame
  | takes serial now outcome hpending => exact hl.takeLoad now outcome

/-- Loads stay in order in every history. -/
theorem InOrder.run (ho : h.InOrder) (events : List Event) : (h.run events).InOrder := by
  induction events generalizing h with
  | nil => exact ho
  | cons event later ih => exact ih ⟨onTiles_after ho.tiles event, loading_after ho.loading event⟩

/-- They are so at the beginning. -/
theorem inOrder_opened (client : Client) (theme : Theme) (font : Overlay.FontMetrics)
    (playing : Player.Settings) (supported : Bool) (polling : Polling.Settings) (view : View) :
    (opened client theme font playing supported polling view).InOrder := by
  refine ⟨⟨Nat.one_pos, ?_, ?_⟩, ⟨fun _ => rfl, fun serial hpending => ?_⟩⟩
  · intro name hname
    cases hname
  · intro name hname
    cases hname
  · cases hpending
    rfl

-- ============================================================ loads in turn

/-- As many loads have begun as events that begin one. -/
theorem loads_run (h : History) (events : List Event) :
    (h.run events).console.loads = h.console.loads + events.countP Event.beginsLoad := by
  induction events generalizing h with
  | nil => rfl
  | cons event later ih =>
      have hloads := h.loads_after event
      rw [run_cons, ih, List.countP_cons]
      generalize h.after event = next at hloads
      cases hloads with
      | nothing hbegins hsame =>
          rw [hsame.loads, hbegins]
          rfl
      | begins hbegins hsame =>
          rw [hsame.loads, hbegins, if_pos rfl]
          show h.console.loads + 1 + _ = _
          omega
      | takes serial now outcome hpending =>
          rw [(pending_takeLoad h.console now outcome).2]
          rfl

/-- The latest load is under way as long as nothing has come of it. -/
theorem pending_run (hpending : h.console.pending = some 0) (hloads : h.console.loads = 1)
    (events : List Event)
    (hopen : ∀ now outcome, Event.loaded (events.countP Event.beginsLoad) now outcome ∉ events) :
    (h.run events).console.pending = some (events.countP Event.beginsLoad) := by
  induction events using List.reverseRecOn with
  | nil => exact hpending
  | append_singleton before event ih =>
      have hloads' := h.loads_run before
      have hstep := (h.run before).loads_after event
      rw [run_append]
      show ((h.run before).after event).console.pending = _
      rw [List.countP_append, List.countP_singleton] at hopen ⊢
      generalize (h.run before).after event = next at hstep
      cases hstep with
      | nothing hbegins hsame =>
          rw [hbegins] at hopen ⊢
          rw [hsame.pending]
          exact ih fun now outcome hmem => hopen now outcome (List.mem_append_left _ hmem)
      | begins hbegins hsame =>
          rw [hbegins, hsame.pending]
          show some (h.run before).console.loads = _
          rw [hloads', hloads, Nat.add_comm]
          rfl
      | takes serial now outcome hunderWay =>
          -- this load would have been the latest
          have hkept := ih fun now outcome hmem => hopen now outcome (List.mem_append_left _ hmem)
          rw [hunderWay] at hkept
          cases hkept
          exact absurd (by simp [Event.beginsLoad]) (hopen now outcome)

/-- A wall without streams shows none. -/
private theorem visible_of_streams (hw : h.console.wall.ShowsPage)
    (hstreams : h.console.wall.streams = []) :
    h.console.wall.visible = [] := by
  rw [hw, hstreams]
  simp [pageOf]

/-- The wall of a live screen shows its page. -/
theorem showsPage_run (client : Client) (theme : Theme) (font : Overlay.FontMetrics)
    (playing : Player.Settings) (supported : Bool) (polling : Polling.Settings) (view : View)
    (events : List Event) :
    ((opened client theme font playing supported polling view).run
      events).console.wall.ShowsPage := by
  obtain ⟨events', hopen, hwall⟩ :=
    wall_run (opened client theme font playing supported polling view) events
  have hshows := Wall.History.showsPage_run
    (Wall.History.showsPage_opened playing supported polling view) events'
  have hsame : ((opened client theme font playing supported polling view).run events).console.wall
      = ((Wall.History.opened playing supported polling view).run events').wall :=
    congrArg (·.wall) hwall
  rw [hsame]
  exact hshows.resolve_right fun hdark => hopen hdark.1

/-- After whatever keys, loads, failures and draws: the cursor is on a
tile, so that there is a stream under it just if there is one on screen;
pictures are kept for tiles on screen only; the list is said to be loading
or to have failed only while there is nothing on the wall; a load that
fails leaves the wall alone; and only what comes of the load that was begun
last does anything, and its list is put on the wall. -/
theorem live_screen_in_order (client : Client) (theme : Theme) (font : Overlay.FontMetrics)
    (playing : Player.Settings) (supported : Bool) (polling : Polling.Settings) (view : View)
    (events : List Event) (h : History)
    (hrun : h = (opened client theme font playing supported polling view).run events) :
    h.console.cursor < max 1 h.console.wall.visible.length
    ∧ (h.console.selected?.isSome = true ↔ h.console.wall.visible ≠ [])
    ∧ (∀ name, name ∈ h.console.overlays.names ∨ name ∈ h.console.video.names →
        name ∈ h.console.wall.visible)
    ∧ (h.console.load ≠ .ready → h.console.wall.streams = [] ∧ h.console.wall.visible = [])
    ∧ (∀ serial now f, (h.after (.loaded serial now (.error f))).wall = h.wall)
    ∧ (∀ serial now outcome, h.after (.loaded serial now outcome) ≠ h →
        serial = events.countP Event.beginsLoad)
    ∧ ∀ now streams,
        (∀ now outcome, Event.loaded (events.countP Event.beginsLoad) now outcome ∉ events) →
        (h.after (.loaded (events.countP Event.beginsLoad) now (.ok streams))).console.wall
            = h.console.wall.setStreams streams
          ∧ (h.after (.loaded (events.countP Event.beginsLoad) now (.ok streams))).console.load
            = .ready := by
  have ho := (inOrder_opened client theme font playing supported polling view).run events
  have hcount := (opened client theme font playing supported polling view).loads_run events
  have hunderWay := pending_run (h := opened client theme font playing supported polling view)
    rfl rfl events
  have hshows := showsPage_run client theme font playing supported polling view events
  rw [← hrun] at ho hcount hunderWay hshows
  refine ⟨ho.tiles.cursor, ho.tiles.isSome_selected?, ?_, ?_, ?_, ?_, ?_⟩
  · rintro name (hname | hname)
    · exact ho.tiles.overlays name hname
    · exact ho.tiles.video name hname
  · intro hload
    have hstreams := ho.loading.ready hload
    exact ⟨hstreams, visible_of_streams hshows hstreams⟩
  · intro serial now f
    by_cases hpending : h.console.pending = some serial
    · rw [after_loaded hpending]
      exact congrArg (fun wall => (⟨wall, h.calls⟩ : Wall.History))
        (takeLoad_error h.console now f).1
    · rw [after_loaded_stale hpending]
  · intro serial now outcome hchanged
    -- a load that changes something is the one under way, and that is the latest begun
    have hpending : h.console.pending = some serial :=
      Classical.byContradiction fun hstale => hchanged (after_loaded_stale hstale now outcome)
    have hlatest := ho.loading.latest serial hpending
    have hfirst : (opened client theme font playing supported polling view).console.loads = 1 := rfl
    omega
  · intro now streams hopen
    rw [after_loaded (hunderWay hopen)]
    exact takeLoad_ok h.console now streams

/-- Two streams are on screen, the cursor is moved to the second one, and
the list is loaded again, twice. -/
def twoReloads : List Event :=
  [ .loaded 0 0 (.ok Wall.History.twoStreams), .key 1 .right,
    .key 2 (.char 'r'), .key 3 (.char 'r') ]

/-- A screen that was loaded twice, of which the first answer came last. -/
def reloadedTwice : History :=
  (opened ⟨default, none, 5000⟩ {} Overlay.labelFont {} true {} {}).run twoReloads

/-- What comes of the load that was given up is ignored, and the list of the
other one is put on the wall. -/
theorem live_screen_of_two_reloads :
    (reloadedTwice.console.cursor = 1
      ∧ reloadedTwice.console.cursor < max 1 reloadedTwice.console.wall.visible.length
      ∧ reloadedTwice.console.selected? = some "yard")
    ∧ reloadedTwice.after (.loaded 1 4 (.ok [])) = reloadedTwice
    ∧ (∀ now outcome, Event.loaded 2 now outcome ∉ twoReloads)
    ∧ (reloadedTwice.after (.loaded 2 4 (.ok []))).console.wall
        = reloadedTwice.console.wall.setStreams [] := by
  have hopen : ∀ now outcome, Event.loaded 2 now outcome ∉ twoReloads := by simp [twoReloads]
  obtain ⟨hcursor, -, -, -, -, hstale, htaken⟩ :=
    live_screen_in_order ⟨default, none, 5000⟩ {} Overlay.labelFont {} true {} {} twoReloads
      reloadedTwice rfl
  refine ⟨⟨by decide, hcursor, by decide⟩, ?_, hopen, (htaken 4 [] hopen).1⟩
  refine Classical.byContradiction fun hchanged => ?_
  have hlatest := hstale 1 4 (.ok []) hchanged
  revert hlatest
  decide

end History

end VideoWall.Console
