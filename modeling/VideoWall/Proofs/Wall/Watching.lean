/-
What is watched on a wall of one tile, and whether it stays on screen when
the wall has pages again.

# Places and pages

In a list without repetition a stream is on one page only, that of its
place divided by the page size (`mem_names_pageOf`).

# The law

A wall of one tile shows the stream that is selected, or the first one when
none is. A selected stream stays on screen when the wall goes back to
pages, since the page that holds it is looked for
(`Controller.Watches.visible_setLayout`). Without a selection the wall goes
back to the page that it was on before, and the first stream is on screen
only if that is the first page (`History.watched_stays_iff`); otherwise it
is out of sight (`History.out_of_sight`).

# Why it holds

Once there are streams, the selection and the names on screen are in the
list (`Controller.Listed`): operations look streams up before they select
them, and a new list drops a selection that it does not have. A wall of one
tile that watches a selected stream goes on to watch one from step to step
(`Controller.Watches.stepPage`).
-/
import VideoWall.Proofs.Wall.Pages

namespace VideoWall.Wall

open Recorder Player Polling

-- ====================================================== places and pages

variable {streams : List Stream} {layout : Layout} {page i : Nat} {name : String}

/-- What stands on a page stands in the list, that much behind the beginning
of the page. -/
theorem getElem?_page_iff {j : Nat} :
    ((pageOf streams layout page).map (·.name))[j]? = some name
      ↔ j < layout.pageSize
        ∧ (streams.map (·.name))[page * layout.pageSize + j]? = some name := by
  unfold pageOf
  simp only [List.getElem?_map, List.getElem?_take, List.getElem?_drop]
  by_cases hwithin : j < layout.pageSize
  · simp [hwithin]
  · simp [hwithin]

/-- A stream is on the page of its place. -/
theorem getElem?_page_of_place (hplace : (streams.map (·.name))[i]? = some name) :
    ((pageOf streams layout (i / layout.pageSize)).map (·.name))[i % layout.pageSize]?
      = some name := by
  refine getElem?_page_iff.2 ⟨Nat.mod_lt i (pageSize_pos layout), ?_⟩
  rw [Nat.div_add_mod']
  exact hplace

/-- In a list without repetition the page and the place on it are those of
the place in the list. -/
theorem place_of_page {j : Nat} (hnames : (streams.map (·.name)).Nodup)
    (hplace : (streams.map (·.name))[i]? = some name)
    (hpage : ((pageOf streams layout page).map (·.name))[j]? = some name) :
    i / layout.pageSize = page ∧ i % layout.pageSize = j := by
  obtain ⟨hwithin, hsecond⟩ := getElem?_page_iff.1 hpage
  obtain ⟨hi, -⟩ := List.getElem?_eq_some_iff.1 hplace
  have hsame : i = page * layout.pageSize + j :=
    (List.getElem?_inj hi hnames).1 (hplace.trans hsecond.symm)
  rw [hsame, Nat.mul_comm, Nat.mul_add_div (pageSize_pos layout), Nat.mul_add_mod,
    Nat.div_eq_of_lt hwithin, Nat.mod_eq_of_lt hwithin, Nat.add_zero]
  exact ⟨rfl, rfl⟩

/-- In a list without repetition a stream is on the page of its place only. -/
theorem mem_names_pageOf (hnames : (streams.map (·.name)).Nodup)
    (hplace : (streams.map (·.name))[i]? = some name) :
    name ∈ (pageOf streams layout page).map (·.name) ↔ i / layout.pageSize = page := by
  constructor
  · intro hmem
    obtain ⟨j, hj⟩ := List.mem_iff_getElem?.1 hmem
    exact (place_of_page hnames hplace hj).1
  · rintro rfl
    exact List.mem_of_getElem? (getElem?_page_of_place hplace)

/-- The page of a place is one of the pages. -/
private theorem place_div_lt (hplace : (streams.map (·.name))[i]? = some name) :
    i / layout.pageSize < pageCount streams.length layout.pageSize := by
  obtain ⟨hi, -⟩ := List.getElem?_eq_some_iff.1 hplace
  have hroom := le_pageCount_mul (pageSize_pos layout) streams.length
  rw [List.length_map] at hi
  rw [Nat.div_lt_iff_lt_mul (pageSize_pos layout)]
  omega

/-- A name is found at a place where it stands. -/
theorem names_position? (h : position? streams name = some i) :
    (streams.map (·.name))[i]? = some name := by
  obtain ⟨hi, hfound, -⟩ := List.findIdx?_eq_some_iff_getElem.1 h
  have hname : streams[i].name = name := by simpa using hfound
  simp [hi, hname]

/-- Every name of a list is found. -/
private theorem isSome_position? (h : name ∈ streams.map (·.name)) :
    ∃ i, position? streams name = some i := by
  refine Option.isSome_iff_exists.1 ?_
  obtain ⟨s, hs, rfl⟩ := List.mem_map.1 h
  unfold position?
  rw [List.findIdx?_isSome, List.any_eq_true]
  exact ⟨s, hs, by simp⟩

/-- Whether an operation leaves the layout as it is. -/
def Operation.keepsLayout : Operation → Bool
  | .setLayout _ => false
  | _ => true

namespace Controller

variable {c : Controller}

-- ========================================================= what is listed

/-- What is selected and what is on screen is in the list, once there are
streams. -/
structure Listed (c : Controller) : Prop where
  selected : c.streams ≠ [] → c.SelectionListed
  visible : ∀ name ∈ c.visible, name ∈ c.names

/-- Reconciling puts streams of the list on screen. -/
private theorem listed_reconcile (h : c.streams ≠ [] → c.SelectionListed) : c.reconcile.Listed := by
  refine ⟨fun hstreams n hn => ?_, fun n hn => mem_names_of_wanted hn⟩
  refine h hstreams n ?_
  rw [← settledView_selected]
  exact hn

/-- Every operation keeps the visible streams listed. -/
theorem Listed.perform (h : c.Listed) (op : Operation) : (c.perform op).Listed := by
  by_cases hop : op.keepsList = true
  · have hstreams := c.streams_perform op hop
    have hshape := c.performs op
    generalize c.perform op = c' at hstreams hshape
    cases hshape with
    | nothing => exact h
    | selects n hlisted hlayout =>
        refine ⟨fun _ m hm => ?_, h.visible⟩
        cases hm
        exact hlisted
    | reconciles b hsame hlisted =>
        have hlist : b.streams = c.streams := hstreams
        refine listed_reconcile fun hb => hlisted (h.selected ?_) h.visible
        rwa [hlist] at hb
    | restarts => exact ⟨h.selected, h.visible⟩
    | wishes n hvisible => exact ⟨h.selected, h.visible⟩
  · cases op with
    | setStreams streams => exact listed_reconcile fun _ => selectionListed_setStreams c streams
    | _ => exact absurd rfl hop

-- ============================================================== layouts

theorem layout_setLayout (c : Controller) (layout : Layout) :
    (c.setLayout layout).view.layout = layout := settledView_layout _

/-- Only an operation that gives the wall a layout changes the layout. -/
theorem layout_perform (c : Controller) {op : Operation} (hop : op.keepsLayout = true) :
    (c.perform op).view.layout = c.view.layout := by
  cases op with
  | setLayout layout => cases hop
  | setStreams | setShowDetections | reconcile => exact settledView_layout _
  | restartVisible => rfl
  | select name =>
      unfold perform select
      dsimp only
      split
      · split
        · exact settledView_layout _
        · rfl
      · rfl
  | stepPage delta => exact layout_stepPage c delta
  | requestPlay name =>
      unfold perform
      dsimp only
      split
      · rfl
      · rfl

/-- Operations that keep the layout keep it. -/
theorem layout_foldl_perform (c : Controller) (ops : List Operation)
    (hops : ops.all Operation.keepsLayout = true) :
    (ops.foldl perform c).view.layout = c.view.layout := by
  induction ops generalizing c with
  | nil => rfl
  | cons op rest ih =>
      obtain ⟨hop, hrest⟩ := Bool.and_eq_true_iff.1 hops
      exact (ih (c.perform op) hrest).trans (layout_perform c hop)

-- ============================================================ one tile

/-- The stream on screen on a wall of one tile is that of the current page. -/
theorem ShowsPage.alone (h : c.ShowsPage) (hsingle : c.view.layout = .single)
    (hname : name ∈ c.visible) :
    c.visible = [name] ∧ c.names[c.currentPage]? = some name := by
  have hone : c.visible.length ≤ 1 := by
    rw [h, List.length_map, hsingle]
    exact length_pageOf_le
  obtain ⟨i, hi⟩ := List.mem_iff_getElem?.1 hname
  obtain ⟨hlt, -⟩ := List.getElem?_eq_some_iff.1 hi
  obtain rfl : i = 0 := by omega
  constructor
  · obtain ⟨other, hother⟩ := List.length_eq_one_iff.1 (show c.visible.length = 1 by omega)
    rw [hother] at hi ⊢
    simpa using hi
  · rw [h, getElem?_page_iff, hsingle] at hi
    have hsize : Layout.pageSize .single = 1 := rfl
    rw [hsize, Nat.mul_one, Nat.add_zero] at hi
    exact hi.2

/-- A wall of one tile that shows a stream of its list because that is
selected. -/
structure Watches (name : String) (c : Controller) : Prop where
  single : c.view.layout = .single
  selected : c.view.selected = some name
  listed : name ∈ c.names
  shows : c.ShowsPage

/-- The stream that is watched stands at the current page. -/
theorem Watches.position (h : c.Watches name) :
    position? c.streams name = some c.currentPage := by
  obtain ⟨i, hi⟩ := isSome_position? h.listed
  unfold currentPage selectedIndex
  rw [h.single, h.selected]
  simp [hi]

/-- It is on screen, and nothing else is. -/
theorem Watches.visible (h : c.Watches name) : c.visible = [name] := by
  have hplace := names_position? h.position
  refine (h.shows.alone h.single ?_).1
  have hpage : ((pageOf c.streams .single (c.currentPage / Layout.pageSize .single)).map
      (·.name))[c.currentPage % Layout.pageSize .single]? = some name :=
    getElem?_page_of_place hplace
  rw [h.shows, h.single]
  have hsize : Layout.pageSize .single = 1 := rfl
  rw [hsize, Nat.div_one] at hpage
  exact List.mem_of_getElem? hpage

/-- A stream of the list that is selected is watched when there is one tile
only. -/
theorem watches_select (hlisted : name ∈ c.names) (hpages : c.view.layout ≠ .single) :
    ((c.select name).setLayout .single).Watches name := by
  have hfound : (c.stream? name).isSome = true := by
    obtain ⟨s, hs, hname⟩ := List.mem_map.1 hlisted
    unfold stream?
    rw [List.find?_isSome]
    exact ⟨s, hs, by simpa using hname⟩
  have hselect : c.select name = { c with view.selected := some name } := by
    unfold select
    rw [if_pos hfound]
    exact if_neg hpages
  have hkept : ({ c with view.selected := some name } : Controller).selectionFor .single
      = some name := by
    unfold selectionFor
    exact if_neg (by simp)
  rw [hselect]
  refine ⟨layout_setLayout _ _, ?_, hlisted, showsPage_reconcile _⟩
  exact (settledView_selected _).trans hkept

/-- From step to step a stream is watched. -/
theorem Watches.stepPage (h : c.Watches name) (delta : Int) :
    ∃ other, (c.stepPage delta).Watches other := by
  rcases c.stepPage_cases delta with ⟨-, hstays⟩ | ⟨hmoves, hshows⟩
  · rw [hstays]
    exact ⟨name, h⟩
  · have hlt := pageAfter_lt_length h.single hmoves
    have hstreams := c.streams_stepPage delta
    have hlayout := c.layout_stepPage delta
    have hselected : (c.stepPage delta).view.selected
        = some c.streams[c.pageAfter delta].name := by
      unfold Controller.stepPage
      dsimp only
      rw [if_neg hmoves, if_pos h.single]
      refine (settledView_selected _).trans ?_
      rw [List.getElem?_eq_getElem hlt]
      rfl
    refine ⟨_, hlayout.trans h.single, hselected, ?_, hshows⟩
    unfold names
    rw [hstreams]
    exact List.mem_map_of_mem (List.getElem_mem hlt)

-- ============================================================ to pages

/-- Without a selection a wall of one tile goes to the page that it was on
before. -/
private theorem pageFor_of_unselected (hselected : c.view.selected = none) :
    c.pageFor layout = c.view.page := by
  unfold pageFor
  rw [hselected]
  split
  · rfl
  · rfl

/-- A wall that is given pages shows the page that it goes to. -/
theorem visible_setLayout (hpages : layout ≠ .single) :
    (c.setLayout layout).visible
      = (pageOf c.streams layout
          (clampPage (c.pageFor layout) c.streams.length layout.pageSize)).map (·.name) := by
  unfold setLayout reconcile wanted settledView
  cases layout with
  | single => exact absurd rfl hpages
  | count streams =>
      dsimp only
      rw [visibleStreams_of_lt hpages (clampPage_lt _ _ _)]
  | custom columns rows =>
      dsimp only
      rw [visibleStreams_of_lt hpages (clampPage_lt _ _ _)]

/-- From a wall of one tile the wall goes to the page of the stream that was
watched, and keeps it selected. -/
theorem Watches.visible_setLayout (h : c.Watches name) (hpages : layout ≠ .single) :
    (c.setLayout layout).visible
        = (pageOf c.streams layout (c.currentPage / layout.pageSize)).map (·.name)
      ∧ (c.setLayout layout).view.selected = some name := by
  have hposition := h.position
  have hpage : c.pageFor layout = c.currentPage / layout.pageSize := by
    unfold pageFor
    rw [if_pos ⟨h.single, hpages⟩, h.selected]
    simp [hposition]
  constructor
  · rw [Controller.visible_setLayout hpages, hpage,
      clampPage_of_lt (place_div_lt (names_position? hposition))]
  · refine (settledView_selected _).trans ?_
    show c.selectionFor layout = some name
    unfold selectionFor
    rw [if_neg (fun hboth => hpages hboth.1)]
    exact h.selected

end Controller

-- =========================================================== histories

namespace History

variable {h : History}

theorem listed_after (hw : h.wall.Listed) (event : Event) : (h.after event).wall.Listed := by
  cases event with
  | operation op => exact hw.perform op
  | shutdown => exact ⟨hw.selected, by simp [after, Controller.shutdown]⟩
  | playing a => exact ⟨hw.selected, hw.visible⟩
  | polling a => exact ⟨hw.selected, hw.visible⟩

/-- Every run keeps the visible streams listed. -/
theorem listed_run (hw : h.wall.Listed) (events : List Event) : (h.run events).wall.Listed := by
  induction events generalizing h with
  | nil => exact hw
  | cons event later ih => exact ih (listed_after hw event)

theorem listed_opened (playing : Player.Settings) (supported : Bool)
    (polling : Polling.Settings) (view : View) :
    (opened playing supported polling view).wall.Listed :=
  ⟨fun hstreams => absurd rfl hstreams, by simp [opened]⟩

/-- On a wall of one tile, after any history, the stream on screen is alone
there, and it is the selected one unless there is no selection. When the
wall is given pages, a selected stream stays on screen, and without a
selection the stream stays on screen just if the page that the wall was on
before is the first one, or there is no other. -/
theorem watched_stays_iff (playing : Player.Settings) (supported : Bool)
    (polling : Polling.Settings) (view : View) (events : List Event) (h : History)
    (hrun : h = (opened playing supported polling view).run events)
    (hsingle : h.wall.view.layout = .single) (hnames : h.wall.names.Nodup) {name : String}
    (hwatched : name ∈ h.wall.visible) {layout : Layout} (hpages : layout ≠ .single) :
    h.wall.visible = [name]
    ∧ (h.wall.view.selected = none ∨ h.wall.view.selected = some name)
    ∧ (name ∈ (h.wall.setLayout layout).visible
        ↔ h.wall.view.selected = some name
          ∨ clampPage h.wall.view.page h.wall.streams.length layout.pageSize = 0) := by
  have hlisted : h.wall.Listed := by
    rw [hrun]
    exact listed_run (listed_opened playing supported polling view) events
  have hshows : h.wall.ShowsPage := by
    have hw := showsPage_run (showsPage_opened playing supported polling view) events
    rw [← hrun] at hw
    -- after a shutdown nothing would be watched
    refine hw.resolve_right fun hdark => ?_
    rw [hdark.2] at hwatched
    cases hwatched
  obtain ⟨halone, hplace⟩ := hshows.alone hsingle hwatched
  have hstreams : h.wall.streams ≠ [] := by
    intro hempty
    have hin := hlisted.visible name hwatched
    simp [Controller.names, hempty] at hin
  refine ⟨halone, ?_⟩
  cases hselected : h.wall.view.selected with
  | none =>
      -- without a selection the first stream is shown, whatever the page that was left
      have hfirst : h.wall.currentPage = 0 := by
        unfold Controller.currentPage selectedIndex
        rw [hsingle, hselected]
        rfl
      rw [hfirst] at hplace
      refine ⟨Or.inl rfl, ?_⟩
      rw [Controller.visible_setLayout hpages, mem_names_pageOf hnames hplace, Nat.zero_div,
        Controller.pageFor_of_unselected hselected]
      simp [eq_comm]
  | some other =>
      have hwatches : h.wall.Watches other :=
        ⟨hsingle, hselected, hlisted.selected hstreams other hselected, hshows⟩
      have hsame := hwatches.visible.symm.trans halone
      obtain rfl : other = name := by simpa using hsame
      refine ⟨Or.inr rfl, iff_of_true ?_ (Or.inl rfl)⟩
      rw [(hwatches.visible_setLayout hpages).1]
      exact (mem_names_pageOf hnames hplace).2 rfl

/-- A wall of one tile on which the user has gone on to the second stream. -/
def secondWatched : History :=
  (opened {} true {} { layout := .single }).run
    [.operation (.setStreams twoStreams), .operation (.stepPage 1)]

theorem watched_stays_of_second :
    (secondWatched.wall.view.layout = .single ∧ secondWatched.wall.names.Nodup
      ∧ "yard" ∈ secondWatched.wall.visible ∧ Layout.custom 1 1 ≠ .single)
    ∧ "yard" ∈ (secondWatched.wall.setLayout (.custom 1 1)).visible := by
  have hsingle : secondWatched.wall.view.layout = .single := by decide
  have hnames : secondWatched.wall.names.Nodup := by decide
  have hwatched : "yard" ∈ secondWatched.wall.visible := by decide
  have hpages : Layout.custom 1 1 ≠ .single := by simp
  obtain ⟨-, -, hstays⟩ := watched_stays_iff {} true {} { layout := .single }
    [.operation (.setStreams twoStreams), .operation (.stepPage 1)] secondWatched rfl
    hsingle hnames hwatched hpages
  exact ⟨⟨hsingle, hnames, hwatched, hpages⟩, hstays.2 (Or.inl (by decide))⟩

/-- A wall of one tile that had two pages before and was on the second one.
The stream that it went on to show has gone since, and with it the
selection. -/
def unselected : History :=
  (opened {} true {} {}).run
    [ .operation (.setStreams twoStreams),
      .operation (.setLayout (.custom 1 1)),
      .operation (.stepPage 1),
      .operation (.setLayout .single),
      .operation (.setStreams [{ name := "gate" }, { name := "barn" }]) ]

/-- The first stream is watched. On pages of one tile, the second one is on
screen. -/
theorem out_of_sight :
    unselected.wall.view.layout = .single ∧ unselected.wall.names.Nodup
      ∧ unselected.wall.streams ≠ []
      ∧ unselected.wall.visible = ["gate"]
      ∧ (unselected.wall.setLayout (.custom 1 1)).visible = ["barn"]
      ∧ "gate" ∉ (unselected.wall.setLayout (.custom 1 1)).visible := by
  decide

end History

end VideoWall.Wall
