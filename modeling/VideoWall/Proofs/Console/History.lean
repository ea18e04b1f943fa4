/-
Histories of a live screen: keys, loads, toasts and draws in any order,
and in between whatever sessions, engines, decoders and polling tasks do
by themselves.

# Keys

What a key makes of the live screen is told apart once. A key turns it
(`Turns`): the wall goes through operations that keep the list of streams,
and nothing happens to loading. Only the key for loading does not
(`turns_press`), and that one does not touch the wall.

# The wall

The wall of a live screen lives a history of its own. A key performs a
few operations on it, a load gives it a list of streams, drawing leaves it
alone, and activities are activities of the wall (`History.wall_after`).
So what holds after every history of a wall holds of the wall of a live
screen (`History.wall_run`).

# Draws

The whole screen is drawn tile by tile, and of the screen only the
pictures of the tiles and the toasts change (`draw_eq`). A history may
also draw single tiles, of any size: it then passes through the states
that the screen is in while it is drawn.
-/
import VideoWall.Console.Drawing
import VideoWall.Console.Keys
import VideoWall.Proofs.Wall.History

namespace VideoWall.Console

open Recorder Player Wall

-- ============================================== what becomes of a console

/-- What a key or a load makes of a console: its wall has been through some
operations, its colours are the same, and no overlay was painted. -/
structure Operates (c c' : Console) : Prop where
  wall : ∃ ops : List Operation, c'.wall = ops.foldl Controller.perform c.wall
  renderer : c'.renderer = c.renderer
  overlays : ∀ name o, c'.overlays.get? name = some o → c.overlays.get? name = some o

/-- Nothing has happened to the list of streams and to its loading. -/
structure SameLoading (c c' : Console) : Prop where
  streams : c'.wall.streams = c.wall.streams
  load : c'.load = c.load
  pending : c'.pending = c.pending
  loads : c'.loads = c.loads

/-- What a key makes of a console, unless it begins a load. -/
structure Turns (c c' : Console) : Prop where
  operates : c.Operates c'
  loading : c.SameLoading c'

variable {c c' : Console}

/-- Operations on the wall alone are all that was done. -/
theorem operates_of_ops (ops : List Operation)
    (hwall : c'.wall = ops.foldl Controller.perform c.wall) (hrenderer : c'.renderer = c.renderer)
    (hoverlays : c'.overlays = c.overlays) : c.Operates c' := by
  refine ⟨⟨ops, hwall⟩, hrenderer, fun name o ho => ?_⟩
  rwa [hoverlays] at ho

theorem SameLoading.trans {c'' : Console} (h : c.SameLoading c') (h' : c'.SameLoading c'') :
    c.SameLoading c'' :=
  ⟨h'.streams.trans h.streams, h'.load.trans h.load, h'.pending.trans h.pending,
    h'.loads.trans h.loads⟩

/-- Operations that keep the list turn the screen. -/
theorem turns_of_ops (ops : List Operation) (hops : ops.all Operation.keepsList = true)
    (hoperates : c'.wall = ops.foldl Controller.perform c.wall ∧ c'.renderer = c.renderer
      ∧ c'.overlays = c.overlays)
    (hloading : c'.load = c.load ∧ c'.pending = c.pending ∧ c'.loads = c.loads) :
    c.Turns c' := by
  obtain ⟨hwall, hrenderer, hoverlays⟩ := hoperates
  obtain ⟨hload, hpending, hloads⟩ := hloading
  refine ⟨operates_of_ops ops hwall hrenderer hoverlays, ?_, hload, hpending, hloads⟩
  rw [hwall, c.wall.streams_foldl_perform ops hops]

-- ================================================================ the keys

theorem turns_pickLayout (c : Console) (layout : Layout) : c.Turns (c.pickLayout layout) := by
  unfold pickLayout
  dsimp only
  split
  · exact turns_of_ops [.select _, .setLayout .single] rfl ⟨rfl, rfl, rfl⟩ ⟨rfl, rfl, rfl⟩
  · exact turns_of_ops [.setLayout _] rfl ⟨rfl, rfl, rfl⟩ ⟨rfl, rfl, rfl⟩

theorem turns_moveCursor (c : Console) (delta : Int) : c.Turns (c.moveCursor delta) := by
  unfold moveCursor
  split
  · exact turns_of_ops [.stepPage delta.sign] rfl ⟨rfl, rfl, rfl⟩ ⟨rfl, rfl, rfl⟩
  · split
    · exact turns_of_ops [] rfl ⟨rfl, rfl, rfl⟩ ⟨rfl, rfl, rfl⟩
    · exact turns_of_ops [] rfl ⟨rfl, rfl, rfl⟩ ⟨rfl, rfl, rfl⟩

theorem turns_turnPage (c : Console) (delta : Int) : c.Turns (c.turnPage delta) :=
  turns_of_ops [.stepPage delta] rfl ⟨rfl, rfl, rfl⟩ ⟨rfl, rfl, rfl⟩

theorem turns_toggleFocus (c : Console) : c.Turns c.toggleFocus := by
  unfold toggleFocus
  split
  case h_1 layout hrestore =>
    exact turns_of_ops [.setLayout layout] rfl ⟨rfl, rfl, rfl⟩ ⟨rfl, rfl, rfl⟩
  case h_2 =>
    split
    case h_1 => exact turns_of_ops [] rfl ⟨rfl, rfl, rfl⟩ ⟨rfl, rfl, rfl⟩
    case h_2 name hname =>
      dsimp only
      split
      · exact turns_of_ops [] rfl ⟨rfl, rfl, rfl⟩ ⟨rfl, rfl, rfl⟩
      · exact turns_of_ops [.select name, .setLayout .single] rfl ⟨rfl, rfl, rfl⟩ ⟨rfl, rfl, rfl⟩

/-- All overlays are dropped when detections are shown or hidden. -/
theorem turns_toggleDetections (c : Console) (now : Nat) : c.Turns (c.toggleDetections now) := by
  refine ⟨⟨⟨[.setShowDetections (!c.wall.view.showDetections)], rfl⟩, rfl, fun name o ho => ?_⟩,
    rfl, rfl, rfl, rfl⟩
  cases ho

theorem turns_withCamera {now : Nat} {errand : Camera → Errand} {errands : List Errand}
    (h : c.withCamera now errand = (c', errands)) : c.Turns c' := by
  unfold withCamera at h
  split at h
  · cases h
    exact turns_of_ops [] rfl ⟨rfl, rfl, rfl⟩ ⟨rfl, rfl, rfl⟩
  · split at h
    · cases h
      exact turns_of_ops [] rfl ⟨rfl, rfl, rfl⟩ ⟨rfl, rfl, rfl⟩
    · cases h
      exact turns_of_ops [] rfl ⟨rfl, rfl, rfl⟩ ⟨rfl, rfl, rfl⟩

/-- Of the characters only one has to do with the list. -/
theorem turns_typed? {now : Nat} {k : Char} {errands : List Errand} (hk : k ≠ 'r')
    (h : c.typed? now k = some (c', errands)) : c.Turns c' := by
  unfold typed? at h
  split at h
  · cases h
    exact turns_pickLayout c _
  · split at h
    · exact turns_withCamera (Option.some.inj h)
    · split at h
      case h_1 =>
        cases h
        exact turns_toggleFocus c
      case h_2 | h_3 =>
        cases h
        exact turns_turnPage c _
      case h_4 =>
        cases h
        exact turns_toggleDetections c now
      case h_5 =>
        cases h
        exact turns_of_ops [] rfl ⟨rfl, rfl, rfl⟩ ⟨rfl, rfl, rfl⟩
      case h_6 => exact absurd rfl hk
      case h_7 =>
        cases h
        exact turns_of_ops [.restartVisible] rfl ⟨rfl, rfl, rfl⟩ ⟨rfl, rfl, rfl⟩
      case h_8 => exact turns_withCamera (Option.some.inj h)
      case h_9 => cases h

/-- A key that does something turns the screen, but for the one for loading. -/
theorem turns_act? {now : Nat} {k : Key} {errands : List Errand} (hk : k ≠ .char 'r')
    (h : c.act? now k = some (c', errands)) : c.Turns c' := by
  cases k with
  | char k => exact turns_typed? (fun heq => hk (congrArg Key.char heq)) h
  | left | right | up | down =>
      cases h
      exact turns_moveCursor c _
  | pageUp | pageDown =>
      cases h
      exact turns_turnPage c _
  | enter =>
      unfold act? at h
      dsimp only at h
      split at h
      case h_1 =>
        cases h
        exact turns_of_ops [] rfl ⟨rfl, rfl, rfl⟩ ⟨rfl, rfl, rfl⟩
      case h_2 name hname =>
        cases h
        have hvisible : name ∈ c.wall.visible := List.mem_of_getElem? hname
        exact turns_of_ops [.requestPlay name] rfl ⟨(if_pos hvisible).symm, rfl, rfl⟩
          ⟨rfl, rfl, rfl⟩
  | escape | other => cases h

/-- What is kept of a table is what it has for the streams on screen. -/
theorem get?_onScreen {α : Type} (c : Console) (t : ByName α) (name : String) :
    (c.onScreen t).get? name = if name ∈ c.wall.visible then t.get? name else none := by
  unfold onScreen ByName.get?
  dsimp only
  induction t.entries with
  | nil => simp
  | cons entry rest ih =>
      obtain ⟨n, a⟩ := entry
      rw [List.filter_cons]
      by_cases hn : name = n
      · subst hn
        split
        case isTrue hvisible => simp_all
        case isFalse hhidden => simp_all
      · have hne : (name == n) = false := by simpa using hn
        split
        · rw [List.lookup_cons, List.lookup_cons, hne]
          exact ih
        · rw [List.lookup_cons, hne]
          exact ih

/-- To forget the tiles that have left the screen is to paint nothing. -/
theorem Operates.settled (h : c.Operates c') : c.Operates c'.settled := by
  refine ⟨h.wall, h.renderer, fun name o ho => h.overlays name o ?_⟩
  have hkept : (c'.onScreen c'.overlays).get? name = some o := ho
  rw [get?_onScreen] at hkept
  split at hkept
  · exact hkept
  · cases hkept

private theorem Turns.settled (h : c.Turns c') : c.Turns c'.settled :=
  ⟨h.operates.settled, h.loading.streams, h.loading.load, h.loading.pending, h.loading.loads⟩

/-- So does every key, whether it does something or not. -/
theorem turns_press (c : Console) (now : Nat) {k : Key} (hk : k ≠ .char 'r') :
    c.Turns (c.press now k).1 := by
  unfold press
  split
  · exact turns_of_ops [] rfl ⟨rfl, rfl, rfl⟩ ⟨rfl, rfl, rfl⟩
  · split
    · exact turns_of_ops [] rfl ⟨rfl, rfl, rfl⟩ ⟨rfl, rfl, rfl⟩
    · rename_i next errands hact
      exact (turns_act? hk hact).settled

/-- A key does nothing to the wall but what a user can do. -/
theorem operates_press (c : Console) (now : Nat) (k : Key) : c.Operates (c.press now k).1 := by
  by_cases hk : k = .char 'r'
  · subst hk
    have hbegun : c.Operates (c.reload.say now .info "Reloading streams") :=
      operates_of_ops [] rfl rfl rfl
    exact hbegun.settled
  · exact (turns_press c now hk).operates

/-- Nor does a load that comes to its end. -/
theorem operates_loaded (c : Console) (serial now : Nat)
    (outcome : Except Failure (List Stream)) : c.Operates (c.loaded serial now outcome) := by
  unfold loaded
  split
  · cases outcome with
    | ok streams =>
        have htaken : c.Operates
            { c with pending := none, wall := c.wall.setStreams streams, load := .ready } :=
          operates_of_ops [.setStreams streams] rfl rfl rfl
        have hsettled := htaken.settled
        unfold takeLoad
        dsimp only
        split
        · exact ⟨hsettled.wall, hsettled.renderer, hsettled.overlays⟩
        · exact hsettled
    | error f =>
        unfold takeLoad
        dsimp only
        split
        · exact operates_of_ops [] rfl rfl rfl
        · exact operates_of_ops [] rfl rfl rfl
  · exact operates_of_ops [] rfl rfl rfl

-- ============================================================== draws

/-- A tile and the size of its picture. -/
structure Tile where
  name : String
  width : Nat
  height : Nat

/-- Tiles are shown, one after the other. -/
def showTiles (c : Console) (tiles : List Tile) : Console :=
  tiles.foldl (fun c tile => (c.showTile tile.name tile.width tile.height).1) c

/-- To show a tile changes the pictures that are kept for it, and nothing
else. -/
theorem showTile_eq (c : Console) (name : String) (width height : Nat) :
    (c.showTile name width height).1
      = { c with
          overlays := (c.showTile name width height).1.overlays
          video := (c.showTile name width height).1.video } := by
  unfold showTile
  dsimp only
  split
  · rfl
  · rfl
  · rfl
  · unfold showFrame
    dsimp only
    split
    · rfl
    · rfl

theorem wall_showTile (c : Console) (name : String) (width height : Nat) :
    (c.showTile name width height).1.wall = c.wall := by
  rw [showTile_eq]

/-- Showing tiles leaves the wall alone. -/
theorem wall_showTiles (c : Console) (tiles : List Tile) : (c.showTiles tiles).wall = c.wall := by
  induction tiles generalizing c with
  | nil => rfl
  | cons tile rest ih => exact (ih _).trans (wall_showTile c tile.name tile.width tile.height)

theorem renderer_showTiles (c : Console) (tiles : List Tile) :
    (c.showTiles tiles).renderer = c.renderer := by
  induction tiles generalizing c with
  | nil => rfl
  | cons tile rest ih =>
      exact (ih _).trans
        (congrArg (·.renderer) (showTile_eq c tile.name tile.width tile.height))

theorem toasts_showTiles (c : Console) (tiles : List Tile) :
    (c.showTiles tiles).toasts = c.toasts := by
  induction tiles generalizing c with
  | nil => rfl
  | cons tile rest ih =>
      exact (ih _).trans
        (congrArg (·.toasts) (showTile_eq c tile.name tile.width tile.height))

/-- To draw a tile is to show it, if it has a picture. -/
theorem drawTile_eq (c : Console) (b : Terminal.Buffer) (area : Terminal.Area) (name : String)
    (focused : Bool) :
    ∃ tiles : List Tile, (∀ tile ∈ tiles, tile.name = name)
      ∧ (c.drawTile b area name focused).1 = c.showTiles tiles := by
  unfold drawTile
  dsimp only
  split
  · exact ⟨[], by simp, rfl⟩
  · exact ⟨[⟨name, (Terminal.pictureSize area.inner).1, (Terminal.pictureSize area.inner).2⟩],
      by simp, rfl⟩

/-- To draw tiles is to show some of them. -/
private theorem drawTiles_eq (area : Terminal.Area) (names : List (String × Nat)) (c : Console)
    (b : Terminal.Buffer) :
    ∃ tiles : List Tile, (∀ tile ∈ tiles, tile.name ∈ names.map (·.1))
      ∧ (drawTiles area names c b).1 = c.showTiles tiles := by
  induction names generalizing c b with
  | nil => exact ⟨[], by simp, rfl⟩
  | cons entry rest ih =>
      obtain ⟨name, i⟩ := entry
      unfold drawTiles
      dsimp only
      split
      · exact ⟨[], by simp, rfl⟩
      · rename_i cell hcell
        obtain ⟨first, hfirst, hdrawn⟩ := drawTile_eq c b cell name (i == c.cursor)
        obtain ⟨tiles, hnames, hrest⟩ := ih (c.drawTile b cell name (i == c.cursor)).1
          (c.drawTile b cell name (i == c.cursor)).2
        refine ⟨first ++ tiles, ?_, ?_⟩
        · intro tile hmem
          rcases List.mem_append.1 hmem with hmem | hmem
          · rw [hfirst tile hmem]
            exact List.mem_cons_self
          · exact List.mem_cons_of_mem _ (hnames tile hmem)
        · rw [hrest, hdrawn]
          exact (List.foldl_append ..).symm

/-- The screen is drawn by showing tiles of streams on screen. -/
theorem draw_eq (c : Console) (now width height : Nat) :
    ∃ tiles : List Tile, (∀ tile ∈ tiles, tile.name ∈ c.wall.visible)
      ∧ (c.draw now width height).1
          = { c.showTiles tiles with toasts := c.toasts.visibleAt now } := by
  have hwall : ∀ (b : Terminal.Buffer) (area : Terminal.Area),
      ∃ tiles : List Tile, (∀ tile ∈ tiles, tile.name ∈ c.wall.visible)
        ∧ (c.drawWall b area).1 = c.showTiles tiles := by
    intro b area
    unfold drawWall
    dsimp only
    split
    · exact ⟨[], by simp, rfl⟩
    · exact ⟨[], by simp, rfl⟩
    · split
      · exact ⟨[], by simp, rfl⟩
      · obtain ⟨tiles, hnames, hdrawn⟩ := drawTiles_eq area c.wall.visible.zipIdx c b
        rw [List.zipIdx_map_fst] at hnames
        exact ⟨tiles, hnames, hdrawn⟩
  unfold draw
  dsimp only
  obtain ⟨tiles, hnames, hdrawn⟩ := hwall _ _
  refine ⟨tiles, hnames, ?_⟩
  rw [hdrawn, toasts_showTiles]

-- =========================================================== histories

/-- What can happen to a live screen. -/
inductive Event where
  | key (now : Nat) (k : Key)
  | reload
  | loaded (serial now : Nat) (outcome : Except Failure (List Stream))
  | toast (now : Nat) (severity : Severity) (message : String)
  | draw (now width height : Nat)
  | tile (name : String) (width height : Nat)
  | playing (a : Player.Activity)
  | polling (a : Polling.Activity)

/-- A live screen, and the calls that the sessions of its wall have made. -/
structure History where
  console : Console
  calls : List (String × Call) := []

namespace History

variable {h : History}

/-- The history of its wall. -/
def wall (h : History) : Wall.History := ⟨h.console.wall, h.calls⟩

/-- A live screen that has begun to load its first list of streams. -/
def opened (client : Client) (theme : Theme) (font : Overlay.FontMetrics)
    (playing : Player.Settings) (supported : Bool) (polling : Polling.Settings) (view : View) :
    History :=
  let wall := (Wall.History.opened playing supported polling view).wall
  ⟨Console.reload { client, theme, renderer := ⟨theme.detections, font⟩, wall }, []⟩

/-- An event. A tile that is not on screen is not shown. -/
def after (h : History) : Event → History
  | .key now k => { h with console := (h.console.press now k).1 }
  | .reload => { h with console := h.console.reload }
  | .loaded serial now outcome => { h with console := h.console.loaded serial now outcome }
  | .toast now severity message => { h with console := h.console.say now severity message }
  | .draw now width height => { h with console := (h.console.draw now width height).1 }
  | .tile name width height =>
      if name ∈ h.console.wall.visible then
        { h with console := (h.console.showTile name width height).1 }
      else h
  | .playing a =>
      let next := h.wall.after (.playing a)
      ⟨{ h.console with wall := next.wall }, next.calls⟩
  | .polling a =>
      let next := h.wall.after (.polling a)
      ⟨{ h.console with wall := next.wall }, next.calls⟩

/-- Events, one after the other. -/
def run (h : History) (events : List Event) : History := events.foldl after h

@[simp]
theorem run_append (h : History) (before later : List Event) :
    h.run (before ++ later) = (h.run before).run later :=
  List.foldl_append ..

@[simp]
theorem run_cons (h : History) (event : Event) (later : List Event) :
    h.run (event :: later) = (h.after event).run later := rfl

-- ============================================================ the wall

/-- Operations are events of the wall that make no call. -/
theorem run_operations (ops : List Operation) (h : Wall.History) :
    h.run (ops.map .operation) = { h with wall := ops.foldl Controller.perform h.wall } := by
  induction ops generalizing h with
  | nil => rfl
  | cons op rest ih => exact ih _

/-- To the wall of a live screen nothing happens but what can happen to a
wall, and it is not shut down. -/
theorem wall_after (h : History) (event : Event) :
    ∃ events : List Wall.Event, Wall.Event.shutdown ∉ events
      ∧ (h.after event).wall = h.wall.run events := by
  -- drawing leaves the wall alone
  have hstays : ∀ c : Console, c.wall = h.console.wall →
      ∃ events : List Wall.Event, Wall.Event.shutdown ∉ events
        ∧ (⟨c.wall, h.calls⟩ : Wall.History) = h.wall.run events := by
    intro c hc
    refine ⟨[], by simp, ?_⟩
    rw [hc]
    rfl
  have hoperates : ∀ c, h.console.Operates c →
      ∃ events : List Wall.Event, Wall.Event.shutdown ∉ events
        ∧ (⟨c.wall, h.calls⟩ : Wall.History) = h.wall.run events := by
    intro c hc
    obtain ⟨ops, hops⟩ := hc.wall
    refine ⟨ops.map .operation, by simp, ?_⟩
    rw [run_operations, hops]
    rfl
  cases event with
  | key now k => exact hoperates _ (operates_press h.console now k)
  | reload => exact ⟨[], by simp, rfl⟩
  | loaded serial now outcome => exact hoperates _ (operates_loaded h.console serial now outcome)
  | toast now severity message => exact ⟨[], by simp, rfl⟩
  | draw now width height =>
      obtain ⟨tiles, -, hdrawn⟩ := draw_eq h.console now width height
      exact hstays _ ((congrArg (·.wall) hdrawn).trans (wall_showTiles h.console tiles))
  | tile name width height =>
      unfold after
      dsimp only
      split
      · exact hstays _ (wall_showTile h.console name width height)
      · exact hstays _ rfl
  | playing a => exact ⟨[.playing a], by simp, rfl⟩
  | polling a => exact ⟨[.polling a], by simp, rfl⟩

/-- The wall of a live screen lives a history of a wall. -/
theorem wall_run (h : History) (events : List Event) :
    ∃ events' : List Wall.Event, Wall.Event.shutdown ∉ events'
      ∧ (h.run events).wall = h.wall.run events' := by
  induction events generalizing h with
  | nil => exact ⟨[], by simp, rfl⟩
  | cons event later ih =>
      obtain ⟨first, hfirst, hafter⟩ := h.wall_after event
      obtain ⟨rest, hrest, hrun⟩ := ih (h.after event)
      refine ⟨first ++ rest, ?_, ?_⟩
      · rw [List.mem_append, not_or]
        exact ⟨hfirst, hrest⟩
      · rw [run_cons, hrun, hafter, Wall.History.run_append]

end History

end VideoWall.Console
