/-
The focus of a live screen: one stream alone, and back to the pages.

# Semantics

The key for the focus leaves a wall with pages for the stream under the
cursor, and keeps the layout to go back to. Until it is pressed again, the
keys that move about go from stream to stream.

# Main statement

`History.focus_round_trip`: on the way back the wall has the layout from
before and shows the page that holds the stream that was watched last, with
the cursor on it; and if no key was pressed meanwhile, page and cursor are
what they were.

# Why it holds

- There is a layout to go back to on a wall of one tile only (`Focused`):
  the keys for a layout give it up, and nothing else changes the layout. So
  on a wall with pages the key always leads to the focus.
- In the focus a stream is selected and watched (`Focuses`), whatever moves
  about (`Focuses.after`), so the way back finds its page
  (`Controller.Watches.visible_setLayout`).
- In a list without repetition a stream has one place, so the stream that
  the focus began with leads back to its page and to its place there.
-/
import VideoWall.Proofs.Console.Order
import VideoWall.Proofs.Wall.Watching

namespace VideoWall.Console

open Recorder Player Wall

variable {c c' : Console} {layout : Layout} {name : String}

-- ====================================================== a layout to go back to

/-- There is a layout to go back to on a wall of one tile only. -/
def Focused (c : Console) : Prop := c.restore ≠ none → c.wall.view.layout = .single

/-- Without a layout to go back to there is nothing to be focused. -/
theorem focused_of_restore (h : c.restore = none) : c.Focused := fun hrestore => absurd h hrestore

/-- Nothing has happened to the layout. -/
theorem Focused.of_ops (h : c.Focused) (ops : List Operation)
    (hops : ops.all Operation.keepsLayout = true)
    (hwall : c'.wall = ops.foldl Controller.perform c.wall) (hrestore : c'.restore = c.restore) :
    c'.Focused := by
  intro hback
  rw [hrestore] at hback
  rw [hwall, c.wall.layout_foldl_perform ops hops]
  exact h hback

private theorem Focused.moveCursor (h : c.Focused) (delta : Int) :
    (c.moveCursor delta).Focused := by
  unfold Console.moveCursor
  split
  · exact h.of_ops [.stepPage delta.sign] rfl rfl rfl
  · split
    · exact h
    · exact h.of_ops [] rfl rfl rfl

private theorem Focused.toggleFocus (h : c.Focused) : c.toggleFocus.Focused := by
  unfold Console.toggleFocus
  split
  · exact focused_of_restore rfl
  · split
    · exact h
    · dsimp only
      split
      · exact h
      · exact fun _ => Controller.layout_setLayout _ _

private theorem Focused.withCamera (h : c.Focused) {now : Nat} {errand : Camera → Errand}
    {errands : List Errand} (hcamera : c.withCamera now errand = (c', errands)) : c'.Focused := by
  unfold Console.withCamera at hcamera
  split at hcamera
  · cases hcamera
    exact h
  · split at hcamera
    · cases hcamera
      exact h
    · cases hcamera
      exact h

private theorem Focused.typed? (h : c.Focused) {now : Nat} {k : Char} {errands : List Errand}
    (hkey : c.typed? now k = some (c', errands)) : c'.Focused := by
  unfold Console.typed? at hkey
  split at hkey
  · cases hkey
    exact focused_of_restore rfl
  · split at hkey
    · exact h.withCamera (Option.some.inj hkey)
    · split at hkey
      case h_1 =>
        cases hkey
        exact h.toggleFocus
      case h_2 | h_3 =>
        cases hkey
        exact h.of_ops [.stepPage _] rfl rfl rfl
      case h_4 =>
        cases hkey
        exact h.of_ops [.setShowDetections _] rfl rfl rfl
      case h_5 | h_6 =>
        cases hkey
        exact h
      case h_7 =>
        cases hkey
        exact h.of_ops [.restartVisible] rfl rfl rfl
      case h_8 => exact h.withCamera (Option.some.inj hkey)
      case h_9 => cases hkey

private theorem Focused.act? (h : c.Focused) {now : Nat} {k : Key} {errands : List Errand}
    (hkey : c.act? now k = some (c', errands)) : c'.Focused := by
  cases k with
  | char k => exact h.typed? hkey
  | left | right | up | down =>
      cases hkey
      exact h.moveCursor _
  | pageUp | pageDown =>
      cases hkey
      exact h.of_ops [.stepPage _] rfl rfl rfl
  | enter =>
      unfold Console.act? at hkey
      dsimp only at hkey
      split at hkey
      · cases hkey
        exact h
      · cases hkey
        exact h
  | escape | other => cases hkey

/-- No key leaves a layout to go back to without a stream in focus. -/
private theorem Focused.press (h : c.Focused) (now : Nat) (k : Key) :
    (c.press now k).1.Focused := by
  unfold Console.press
  split
  · exact h
  · split
    · exact h
    · rename_i next errands hact
      have hnext : next.Focused := h.act? hact
      exact hnext

private theorem Focused.loaded (h : c.Focused) (serial now : Nat)
    (outcome : Except Failure (List Stream)) : (c.loaded serial now outcome).Focused := by
  unfold Console.loaded
  split
  · cases outcome with
    | ok streams =>
        have htaken : Focused
            { c with pending := none, wall := c.wall.setStreams streams, load := .ready } :=
          h.of_ops [.setStreams streams] rfl rfl rfl
        unfold takeLoad
        dsimp only
        split
        · exact htaken
        · exact htaken
    | error f =>
        unfold takeLoad
        dsimp only
        split
        · exact h
        · exact h
  · exact h

theorem restore_showTiles (c : Console) (tiles : List Tile) :
    (c.showTiles tiles).restore = c.restore := by
  induction tiles generalizing c with
  | nil => rfl
  | cons tile rest ih =>
      exact (ih _).trans
        (congrArg (·.restore) (showTile_eq c tile.name tile.width tile.height))

/-- To draw changes neither the wall nor the layout to go back to. -/
theorem restore_draw (c : Console) (now width height : Nat) :
    (c.draw now width height).1.wall = c.wall
      ∧ (c.draw now width height).1.restore = c.restore := by
  obtain ⟨tiles, -, hdrawn⟩ := draw_eq c now width height
  rw [hdrawn]
  exact ⟨wall_showTiles c tiles, restore_showTiles c tiles⟩

-- =========================================================== moving about

/-- The keys that move about on a wall. -/
def Key.navigates : Key → Bool
  | .left | .right | .up | .down | .pageUp | .pageDown => true
  | .char k => k = '[' ∨ k = ']'
  | _ => false

/-- What a key does before the screen settles. -/
theorem press_of_act? {now : Nat} {k : Key} {errands : List Errand}
    (hquit : ¬ (k = .escape ∨ k = .char 'q')) (hkey : c.act? now k = some (c', errands)) :
    (c.press now k).1 = c'.settled := by
  unfold press
  rw [if_neg hquit, hkey]

/-- The key for the focus toggles it. -/
theorem press_focus (c : Console) (now : Nat) :
    (c.press now (.char 'f')).1 = c.toggleFocus.settled :=
  press_of_act? (by simp) (show c.act? now (.char 'f') = some (c.toggleFocus, []) from rfl)

/-- A key that turns the page is a step. -/
private theorem press_turnPage {now : Nat} {k : Key} {delta : Int}
    (hquit : ¬ (k = .escape ∨ k = .char 'q'))
    (hkey : c.act? now k = some (c.turnPage delta, [])) :
    (c.press now k).1.wall = c.wall.stepPage delta ∧ (c.press now k).1.restore = c.restore := by
  rw [press_of_act? hquit hkey]
  exact ⟨rfl, rfl⟩

/-- On a wall of one tile a key that moves the cursor is a step. -/
private theorem press_moveCursor (hsingle : c.wall.view.layout = .single) {now : Nat} {k : Key}
    {delta : Int} (hquit : ¬ (k = .escape ∨ k = .char 'q'))
    (hkey : c.act? now k = some (c.moveCursor delta, [])) :
    (c.press now k).1.wall = c.wall.stepPage delta.sign
      ∧ (c.press now k).1.restore = c.restore := by
  rw [press_of_act? hquit hkey]
  unfold moveCursor
  rw [if_pos hsingle]
  exact ⟨rfl, rfl⟩

/-- On a wall of one tile the keys that move about are steps. -/
private theorem press_navigates (hsingle : c.wall.view.layout = .single) (now : Nat) {k : Key}
    (hk : k.navigates = true) :
    ∃ delta, (c.press now k).1.wall = c.wall.stepPage delta
      ∧ (c.press now k).1.restore = c.restore := by
  cases k with
  | left | right | up | down => exact ⟨_, press_moveCursor hsingle (by simp) rfl⟩
  | pageUp | pageDown => exact ⟨_, press_turnPage (by simp) rfl⟩
  | char k =>
      rcases of_decide_eq_true hk with rfl | rfl
      · exact ⟨_, press_turnPage (by simp) rfl⟩
      · exact ⟨_, press_turnPage (by simp) rfl⟩
  | escape | enter | other => cases hk

-- ============================================================== the focus

/-- A stream is watched alone, and there is a layout to go back to. -/
structure Focuses (layout : Layout) (name : String) (c : Console) : Prop where
  restore : c.restore = some layout
  watches : c.wall.Watches name

/-- Nothing is different about what is on the wall. -/
structure SameScreen (c c' : Console) : Prop where
  restore : c'.restore = c.restore
  streams : c'.wall.streams = c.wall.streams
  view : c'.wall.view = c.wall.view
  visible : c'.wall.visible = c.wall.visible

theorem Focuses.congr (h : c.Focuses layout name) (hsame : c.SameScreen c') :
    c'.Focuses layout name := by
  refine ⟨hsame.restore.trans h.restore, ?_, ?_, ?_, ?_⟩
  · rw [hsame.view]
    exact h.watches.single
  · rw [hsame.view]
    exact h.watches.selected
  · unfold Controller.names
    rw [hsame.streams]
    exact h.watches.listed
  · have hshows := h.watches.shows
    unfold Controller.ShowsPage Controller.currentPage at hshows ⊢
    rw [hsame.visible, hsame.streams, hsame.view]
    exact hshows

/-- The key for the focus leaves a wall with pages for the stream under the
cursor. -/
theorem focuses_press (hfocused : c.Focused) (hpages : c.wall.view.layout ≠ .single)
    (hselected : c.selected? = some name) (hlisted : name ∈ c.wall.names) (now : Nat) :
    (c.press now (.char 'f')).1.Focuses c.wall.view.layout name
      ∧ (c.press now (.char 'f')).1.wall.streams = c.wall.streams := by
  have hrestore : c.restore = none :=
    Classical.byContradiction fun hback => hpages (hfocused hback)
  have htoggled : c.toggleFocus
      = { c with
          restore := some c.wall.view.layout
          wall := (c.wall.select name).setLayout .single
          cursor := 0 } := by
    unfold toggleFocus
    rw [hrestore, hselected]
    exact if_neg hpages
  rw [press_focus, htoggled]
  refine ⟨⟨rfl, Controller.watches_select hlisted hpages⟩, ?_⟩
  exact c.wall.streams_foldl_perform [.select name, .setLayout .single] rfl

/-- The key for the focus leads back to the page of the stream that is
watched, and to that stream. -/
private theorem Focuses.back (h : c.Focuses layout name) (hpages : layout ≠ .single) (now : Nat) :
    (c.press now (.char 'f')).1.restore = none
      ∧ (c.press now (.char 'f')).1.wall.view.layout = layout
      ∧ (c.press now (.char 'f')).1.wall.visible
          = (pageOf c.wall.streams layout (c.wall.currentPage / layout.pageSize)).map (·.name)
      ∧ (c.press now (.char 'f')).1.selected? = some name := by
  obtain ⟨hvisible, hselected⟩ := h.watches.visible_setLayout hpages
  have hplace : ((pageOf c.wall.streams layout (c.wall.currentPage / layout.pageSize)).map
      (·.name))[c.wall.currentPage % layout.pageSize]? = some name :=
    getElem?_page_of_place (names_position? h.watches.position)
  rw [← hvisible] at hplace
  obtain ⟨i, hi⟩ := Option.isSome_iff_exists.1
    (List.isSome_idxOf?.2 (List.mem_of_getElem? hplace))
  obtain ⟨hlt, hfound, -⟩ := List.idxOf?_eq_some_iff.1 hi
  have htoggled : c.toggleFocus
      = { c with restore := none, wall := c.wall.setLayout layout, cursor := i } := by
    unfold toggleFocus
    rw [h.restore]
    dsimp only
    rw [hselected, Option.bind_some, hi]
    rfl
  rw [press_focus, htoggled]
  refine ⟨rfl, Controller.layout_setLayout _ _, hvisible, ?_⟩
  have hcursor : min i ((c.wall.setLayout layout).visible.length - 1) = i := by omega
  show (c.wall.setLayout layout).visible[min i ((c.wall.setLayout layout).visible.length - 1)]?
    = some name
  rw [hcursor, List.getElem?_eq_getElem hlt, hfound]

-- =========================================================== histories

/-- Whether an event is a key. -/
def Event.isKey : Event → Bool
  | .key _ _ => true
  | _ => false

/-- What moves about, or happens meanwhile: no other key is pressed, and no
load comes to its end. -/
def Event.movesAbout : Event → Bool
  | .key _ k => k.navigates
  | .loaded _ _ _ => false
  | _ => true

namespace History

variable {h : History}

theorem focused_after (hf : h.console.Focused) (event : Event) :
    (h.after event).console.Focused := by
  cases event with
  | key now k => exact hf.press now k
  | loaded serial now outcome => exact hf.loaded serial now outcome
  | draw now width height =>
      obtain ⟨hwall, hrestore⟩ := restore_draw h.console now width height
      exact hf.of_ops [] rfl hwall hrestore
  | tile name width height =>
      unfold after
      dsimp only
      split
      · rw [showTile_eq]
        exact hf
      · exact hf
  | reload | toast | playing | polling => exact hf

/-- So it is after every history. -/
theorem focused_run (hf : h.console.Focused) (events : List Event) :
    (h.run events).console.Focused := by
  induction events generalizing h with
  | nil => exact hf
  | cons event later ih => exact ih (focused_after hf event)

/-- What happens without a key or a list leaves the screen alone. -/
theorem sameScreen_after {event : Event} (hmoves : event.movesAbout = true)
    (hkey : event.isKey = false) : h.console.SameScreen (h.after event).console := by
  cases event with
  | key now k => cases hkey
  | loaded serial now outcome => cases hmoves
  | draw now width height =>
      obtain ⟨hwall, hrestore⟩ := restore_draw h.console now width height
      refine ⟨hrestore, ?_, ?_, ?_⟩
      · exact congrArg (·.streams) hwall
      · exact congrArg (·.view) hwall
      · exact congrArg (·.visible) hwall
  | tile name width height =>
      unfold after
      dsimp only
      split
      · rw [showTile_eq]
        exact ⟨rfl, rfl, rfl, rfl⟩
      · exact ⟨rfl, rfl, rfl, rfl⟩
  | reload | toast | playing | polling => exact ⟨rfl, rfl, rfl, rfl⟩

/-- Whatever moves about, a stream of the same list is watched. -/
theorem focuses_after (hf : h.console.Focuses layout name) {event : Event}
    (hmoves : event.movesAbout = true) :
    (h.after event).console.wall.streams = h.console.wall.streams
      ∧ ∃ other, (h.after event).console.Focuses layout other
        ∧ (event.isKey = false → other = name) := by
  cases hkey : event.isKey with
  | false =>
      have hsame := h.sameScreen_after hmoves hkey
      exact ⟨hsame.streams, name, hf.congr hsame, fun _ => rfl⟩
  | true =>
      cases event with
      | key now k =>
          obtain ⟨delta, hwall, hrestore⟩ := press_navigates hf.watches.single now hmoves
          obtain ⟨other, hother⟩ := hf.watches.stepPage delta
          refine ⟨?_, other, ⟨hrestore.trans hf.restore, ?_⟩, fun hno => by cases hno⟩
          · exact (congrArg (·.streams) hwall).trans (Controller.streams_stepPage _ delta)
          · show (h.console.press now k).1.wall.Watches other
            rw [hwall]
            exact hother
      | _ => cases hkey

/-- As long as only the focus moves about, a screen stays focused with the same
layout to go back to. -/
theorem focuses_run (hf : h.console.Focuses layout name) {events : List Event}
    (hmoves : ∀ event ∈ events, event.movesAbout = true) :
    (h.run events).console.wall.streams = h.console.wall.streams
      ∧ ∃ other, (h.run events).console.Focuses layout other
        ∧ ((∀ event ∈ events, event.isKey = false) → other = name) := by
  induction events generalizing h name with
  | nil => exact ⟨rfl, name, hf, fun _ => rfl⟩
  | cons event later ih =>
      obtain ⟨hstreams, next, hnext, hfirst⟩ := focuses_after hf (hmoves event List.mem_cons_self)
      obtain ⟨hlater, other, hother, hrest⟩ := ih hnext
        fun e he => hmoves e (List.mem_cons_of_mem event he)
      refine ⟨hlater.trans hstreams, other, hother, fun hquiet => ?_⟩
      rw [hrest fun e he => hquiet e (List.mem_cons_of_mem event he)]
      exact hfirst (hquiet event List.mem_cons_self)

/-- On a live screen without repetition whose wall has pages and shows a
stream, after any history: the key for the focus, whatever moves about
then, and the key for the focus again lead back to the layout from before,
to the page that holds the stream that was watched last, and to that
stream. If no key was pressed in between, the same streams are on screen as
before, and the cursor is where it was. -/
theorem focus_round_trip (client : Client) (theme : Theme) (font : Overlay.FontMetrics)
    (playing : Player.Settings) (supported : Bool) (polling : Polling.Settings) (view : View)
    (events : List Event) (h : History)
    (hrun : h = (opened client theme font playing supported polling view).run events)
    (hnames : h.console.wall.names.Nodup) (hpages : h.console.wall.view.layout ≠ .single)
    (hvisible : h.console.wall.visible ≠ []) (start stop : Nat) (moves : List Event)
    (hmoves : ∀ event ∈ moves, event.movesAbout = true) (near back : History)
    (hnear : near = (h.after (.key start (.char 'f'))).run moves)
    (hback : back = near.after (.key stop (.char 'f'))) :
    (∃ name i, near.console.wall.view.layout = .single
      ∧ near.console.wall.visible = [name]
      ∧ h.console.wall.names[i]? = some name
      ∧ back.console.wall.visible
          = (pageOf h.console.wall.streams h.console.wall.view.layout
              (i / h.console.wall.view.layout.pageSize)).map (·.name)
      ∧ back.console.selected? = some name)
    ∧ back.console.wall.view.layout = h.console.wall.view.layout
    ∧ back.console.restore = none
    ∧ ((∀ event ∈ moves, event.isKey = false) →
        back.console.wall.visible = h.console.wall.visible
          ∧ back.console.cursor = h.console.cursor) := by
  have hordered : h.InOrder := by
    rw [hrun]
    exact (inOrder_opened client theme font playing supported polling view).run events
  have hshows : h.console.wall.ShowsPage := by
    rw [hrun]
    exact showsPage_run client theme font playing supported polling view events
  have hfocused : h.console.Focused := by
    rw [hrun]
    exact focused_run (focused_of_restore rfl) events
  obtain ⟨first, hfirst⟩ :=
    Option.isSome_iff_exists.1 (hordered.tiles.isSome_selected?.2 hvisible)
  -- the stream under the cursor is on the page, so it is in the list
  have hcursor : (((pageOf h.console.wall.streams h.console.wall.view.layout
      h.console.wall.currentPage).map (·.name)))[h.console.cursor]? = some first := by
    rw [← hshows]
    exact hfirst
  have hlisted : first ∈ h.console.wall.names :=
    List.mem_of_getElem? (getElem?_page_iff.1 hcursor).2
  obtain ⟨hfocuses, hstreams⟩ := focuses_press hfocused hpages hfirst hlisted start
  obtain ⟨hkept, name, hname, hquiet⟩ := focuses_run (h := h.after (.key start (.char 'f')))
    hfocuses hmoves
  rw [← hnear] at hkept hname
  have hlist : near.console.wall.streams = h.console.wall.streams := hkept.trans hstreams
  obtain ⟨hrestore, hlayout, hpage, hselected⟩ := hname.back hpages stop
  have hplace := names_position? hname.watches.position
  rw [hlist] at hpage hplace
  subst hback
  refine ⟨⟨name, near.console.wall.currentPage, hname.watches.single, hname.watches.visible,
    hplace, hpage, hselected⟩, hlayout, hrestore, fun hnokey => ?_⟩
  obtain rfl : name = first := hquiet hnokey
  -- the stream has one place, which is on the page from before
  obtain ⟨hdiv, hmod⟩ := place_of_page hnames hplace hcursor
  have hunder : (near.console.press stop (.char 'f')).1.wall.visible[
      (near.console.press stop (.char 'f')).1.cursor]? = some name := hselected
  rw [hpage] at hunder
  obtain ⟨-, hagain⟩ := place_of_page hnames hplace hunder
  constructor
  · rw [hshows, ← hdiv]
    exact hpage
  · exact hagain.symm.trans hmod

/-- A live screen whose pages have one tile, on the page of the first of two
streams. -/
def pagesOfOne : History :=
  (opened ⟨default, none, 5000⟩ {} Overlay.labelFont {} true {} { layout := .custom 1 1 }).run
    [.loaded 0 0 (.ok Wall.History.twoStreams)]

/-- The focus on the first stream, and on to the second one. -/
def focusOnNext : History := (pagesOfOne.after (.key 1 (.char 'f'))).run [.key 2 .right]

/-- On the way back the page of the second stream is on screen. -/
theorem focus_round_trip_of_next :
    (pagesOfOne.console.wall.visible = ["gate"] ∧ focusOnNext.console.wall.visible = ["yard"])
    ∧ (pagesOfOne.console.wall.names.Nodup ∧ pagesOfOne.console.wall.view.layout ≠ .single
      ∧ pagesOfOne.console.wall.visible ≠ []
      ∧ ∀ event ∈ [Event.key 2 .right], event.movesAbout = true)
    ∧ (focusOnNext.after (.key 3 (.char 'f'))).console.wall.view.layout
        = pagesOfOne.console.wall.view.layout
    ∧ (focusOnNext.after (.key 3 (.char 'f'))).console.wall.visible = ["yard"] := by
  have hnames : pagesOfOne.console.wall.names.Nodup := by decide
  have hpages : pagesOfOne.console.wall.view.layout ≠ .single := by decide
  have hvisible : pagesOfOne.console.wall.visible ≠ [] := by decide
  have hmoves : ∀ event ∈ [Event.key 2 .right], event.movesAbout = true := by
    simp [Event.movesAbout, Key.navigates]
  have hwatched : focusOnNext.console.wall.visible = ["yard"] := by decide
  obtain ⟨⟨name, i, -, halone, hplace, hpage, -⟩, hlayout, -⟩ :=
    focus_round_trip ⟨default, none, 5000⟩ {} Overlay.labelFont {} true {} { layout := .custom 1 1 }
      [.loaded 0 0 (.ok Wall.History.twoStreams)] pagesOfOne rfl hnames hpages hvisible 1 3
      [.key 2 .right] hmoves focusOnNext (focusOnNext.after (.key 3 (.char 'f'))) rfl rfl
  refine ⟨⟨by decide, hwatched⟩, ⟨hnames, hpages, hvisible, hmoves⟩, hlayout, ?_⟩
  -- the second stream has the second place
  have hsecond : pagesOfOne.console.wall.names[1]? = some "yard" := by decide
  rw [hwatched] at halone
  obtain rfl : "yard" = name := by simpa using halone
  obtain ⟨hi, -⟩ := List.getElem?_eq_some_iff.1 hplace
  obtain rfl : i = 1 := (List.getElem?_inj hi hnames).1 (hplace.trans hsecond.symm)
  rw [hpage]
  decide

end History

end VideoWall.Console
