/-
Pages reach every stream once, on walls with pages and on walls of one
tile alike.

# Pages as windows

Page `p` of a list are the streams from `p` times the page size on, as
many as fit (`pageOf`). A wall of one tile has pages of one stream, the
selected one being the page on screen; so both kinds of walls show the
window of their current page (`Controller.wanted_eq`), and a step by pages
is a move of that window (`Controller.currentPage_stepPage`).

# What is on screen

A wall shows its page (`Controller.ShowsPage`) from the beginning on:
whatever reconciles brings the page on screen, and what does not leaves
page and screen alone. Only a shutdown clears the screen and leaves the
page as it was. A step that has nowhere to go does not reconcile, so on a
wall that was shut down such a step shows nothing
(`History.blank_after_shutdown`).
-/
import Mathlib.Data.List.Basic
import Mathlib.Data.List.Induction
import Mathlib.Data.List.Nodup
import VideoWall.Proofs.Wall.InStep

namespace VideoWall.Wall

open Recorder Player Polling

-- ============================================================= windows

/-- A page of a list: as many streams as a layout shows. -/
def pageOf (streams : List Stream) (layout : Layout) (page : Nat) : List Stream :=
  (streams.drop (page * layout.pageSize)).take layout.pageSize

variable {streams : List Stream} {layout : Layout} {selected : Option String} {page : Nat}

/-- There is room for a stream on every page. -/
theorem pageSize_pos (layout : Layout) : 0 < layout.pageSize := by
  cases layout with
  | single => exact Nat.one_pos
  | count streams => exact Nat.le_max_right streams 1
  | custom columns rows =>
      exact Nat.mul_pos (Nat.le_max_right columns 1) (Nat.le_max_right rows 1)

/-- The number of pages, with the page size as it is. -/
theorem pageCount_eq {size : Nat} (hsize : 0 < size) (total : Nat) :
    pageCount total size = max ((total + size - 1) / size) 1 := by
  unfold pageCount ceilDiv
  rw [Nat.max_eq_left hsize]

/-- Pages together have room for every stream. -/
theorem le_pageCount_mul {size : Nat} (hsize : 0 < size) (total : Nat) :
    total ≤ pageCount total size * size := by
  have hceil : (total + size - 1) / size ≤ pageCount total size := by
    rw [pageCount_eq hsize]
    exact Nat.le_max_left _ _
  have hroom := Nat.mul_le_mul_right size hceil
  have hquotient := Nat.lt_div_mul_add (a := total + size - 1) hsize
  omega

/-- Every page of a list with streams begins before its end. -/
theorem pageStart_lt {size total : Nat} (hsize : 0 < size) (htotal : 0 < total)
    (hpage : page < pageCount total size) : page * size < total := by
  rw [pageCount_eq hsize] at hpage
  rcases Nat.lt_or_ge page 1 with hfirst | hlater
  · have hzero : page = 0 := by omega
    rw [hzero, Nat.zero_mul]
    exact htotal
  · have hquotient : page + 1 ≤ (total + size - 1) / size := by omega
    have hproduct := (Nat.le_div_iff_mul_le hsize).1 hquotient
    rw [Nat.add_mul] at hproduct
    omega

/-- Pages in order, put together, are the beginning of the list. -/
theorem flatMap_pageOf (streams : List Stream) (layout : Layout) (pages : Nat) :
    (List.range pages).flatMap (pageOf streams layout)
      = streams.take (pages * layout.pageSize) := by
  induction pages with
  | zero => simp
  | succ pages ih =>
      rw [List.range_succ, List.flatMap_append, ih, Nat.add_mul, Nat.one_mul, List.take_add]
      simp [pageOf]

/-- No page has more streams than it has room for. -/
theorem length_pageOf_le : (pageOf streams layout page).length ≤ layout.pageSize :=
  List.length_take_le _ _

/-- No page is empty. -/
theorem pageOf_ne_nil (hstreams : streams ≠ [])
    (hpage : page < pageCount streams.length layout.pageSize) :
    pageOf streams layout page ≠ [] := by
  have hstart := pageStart_lt (pageSize_pos layout) (List.length_pos_iff.2 hstreams) hpage
  have hsize := pageSize_pos layout
  refine List.length_pos_iff.1 ?_
  unfold pageOf
  rw [List.length_take, List.length_drop]
  omega

/-- On a wall with pages the streams on screen are a page, the last one if
there is none of that number. -/
theorem visibleStreams_eq (hlayout : layout ≠ .single) :
    visibleStreams streams layout selected page
      = pageOf streams layout (clampPage page streams.length layout.pageSize) := by
  cases layout with
  | single => exact absurd rfl hlayout
  | count streams => rfl
  | custom columns rows => rfl

/-- A page that is there is not moved. -/
theorem clampPage_of_lt {total size : Nat} (h : page < pageCount total size) :
    clampPage page total size = page := Nat.min_eq_left (by omega)

/-- A page that is there is what is visible. -/
theorem visibleStreams_of_lt (hlayout : layout ≠ .single)
    (hpage : page < pageCount streams.length layout.pageSize) :
    visibleStreams streams layout selected page = pageOf streams layout page := by
  rw [visibleStreams_eq hlayout, clampPage_of_lt hpage]

/-- A number past the end means the last page. -/
private theorem clampPage_of_le {total size : Nat} (h : pageCount total size ≤ page) :
    clampPage page total size = clampPage (pageCount total size - 1) total size := by
  unfold clampPage
  omega

/-- What a wall with pages shows from page to page is the list. -/
private theorem flatMap_visibleStreams (hlayout : layout ≠ .single) :
    (List.range (pageCount streams.length layout.pageSize)).flatMap
        (visibleStreams streams layout selected) = streams := by
  have hpages : (List.range (pageCount streams.length layout.pageSize)).flatMap
      (visibleStreams streams layout selected)
      = (List.range (pageCount streams.length layout.pageSize)).flatMap
          (pageOf streams layout) :=
    List.flatMap_congr fun page hpage => visibleStreams_of_lt hlayout (List.mem_range.1 hpage)
  rw [hpages, flatMap_pageOf]
  exact List.take_of_length_le (le_pageCount_mul (pageSize_pos layout) streams.length)

-- ======================================================= the page on screen

namespace Controller

variable {c : Controller} {name : String} {delta : Int}

/-- A wall of one tile has pages of one stream. -/
theorem pages_eq (c : Controller) :
    c.pages = pageCount c.streams.length c.view.layout.pageSize := by
  unfold pages
  cases hl : c.view.layout with
  | single =>
      show max c.streams.length 1 = pageCount c.streams.length 1
      rw [pageCount_eq Nat.one_pos, Nat.div_one, Nat.add_sub_cancel]
  | count streams => rfl
  | custom columns rows => rfl

theorem pages_pos (c : Controller) : 0 < c.pages := by
  rw [pages_eq]
  exact pageCount_pos _ _

/-- The names of all pages, one page after the other, are those of the
list. -/
private theorem flatten_pages (c : Controller) :
    ((List.range' 0 c.pages).map fun page =>
        (pageOf c.streams c.view.layout page).map (·.name)).flatten = c.names := by
  rw [← List.range_eq_range', ← List.flatMap_def, ← List.map_flatMap, flatMap_pageOf,
    pages_eq, List.take_of_length_le (le_pageCount_mul (pageSize_pos _) _)]
  rfl

/-- The window of the current page belongs on screen. -/
private theorem wanted_eq (c : Controller) :
    c.wanted = pageOf c.streams c.view.layout c.currentPage := by
  unfold wanted currentPage pageOf
  cases hl : c.view.layout with
  | single =>
      show (c.streams.drop (selectedIndex c.streams c.view.selected)).take 1
        = (c.streams.drop (selectedIndex c.streams c.view.selected * 1)).take 1
      rw [Nat.mul_one]
  | count streams => rfl
  | custom columns rows => rfl

/-- The names on screen are those of the current page. -/
def ShowsPage (c : Controller) : Prop :=
  c.visible = (pageOf c.streams c.view.layout c.currentPage).map (·.name)

/-- A wall that has reconciled shows its page. -/
theorem showsPage_reconcile (c : Controller) : c.reconcile.ShowsPage := by
  show ({ c with view := c.settledView } : Controller).wanted.map (·.name) = _
  rw [wanted_eq]
  rfl

/-- The current page of a wall with pages does not depend on the selection. -/
private theorem currentPage_select (hlayout : c.view.layout ≠ .single) (selected : Option String) :
    ({ c with view.selected := selected } : Controller).currentPage = c.currentPage := by
  unfold currentPage
  cases hl : c.view.layout with
  | single => exact absurd hl hlayout
  | count streams => rfl
  | custom columns rows => rfl

/-- An operation brings the current page on screen, or it leaves the screen
alone and shows the page if it was shown. -/
theorem showsPage_perform (c : Controller) (op : Operation) :
    (c.perform op).ShowsPage
      ∨ (c.perform op).visible = c.visible ∧ (c.ShowsPage → (c.perform op).ShowsPage) := by
  have hshape := c.performs op
  generalize c.perform op = c' at hshape
  cases hshape with
  | nothing => exact Or.inr ⟨rfl, id⟩
  | selects name hlisted hlayout =>
      refine Or.inr ⟨rfl, fun hshows => ?_⟩
      unfold ShowsPage
      rw [currentPage_select hlayout]
      exact hshows
  | reconciles b hsame hlisted => exact Or.inl (showsPage_reconcile b)
  | restarts => exact Or.inr ⟨rfl, id⟩
  | wishes name hvisible => exact Or.inr ⟨rfl, id⟩

-- =============================================================== steps

/-- A step leads to a page that there is. -/
theorem pageAfter_lt (c : Controller) (delta : Int) : c.pageAfter delta < c.pages := by
  have hpos := c.pages_pos
  unfold pageAfter
  omega

/-- A step is cut off at both ends. -/
theorem pageAfter_eq (c : Controller) (delta : Int) :
    (c.pageAfter delta : Int) = max 0 (min (c.currentPage + delta) (c.pages - 1)) := by
  have hpos := c.pages_pos
  unfold pageAfter
  omega

/-- In a list without repetition a stream stands where its name is found. -/
private theorem selectedIndex_getElem (hnames : (streams.map (·.name)).Nodup) {i : Nat}
    (hi : i < streams.length) :
    selectedIndex streams ((streams[i]?).map (·.name)) = i := by
  have hposition : position? streams streams[i].name = some i := by
    unfold position?
    rw [List.findIdx?_eq_some_iff_getElem]
    refine ⟨hi, by simp, fun j hj => ?_⟩
    intro heq
    have hsame : streams[j].name = streams[i].name := by simpa using heq
    have hlength : (streams.map (·.name)).length = streams.length := List.length_map _
    have hindex : j = i := by
      refine (List.Nodup.getElem_inj_iff hnames).1
        (show (streams.map (·.name))[j] = (streams.map (·.name))[i] from ?_)
      simpa using hsame
    omega
  unfold selectedIndex
  rw [List.getElem?_eq_getElem hi, Option.map_some, Option.bind_some, hposition]
  rfl

/-- A step leaves the wall alone or brings another page on screen. -/
theorem stepPage_cases (c : Controller) (delta : Int) :
    (c.pageAfter delta = c.currentPage ∧ c.stepPage delta = c)
      ∨ c.pageAfter delta ≠ c.currentPage ∧ (c.stepPage delta).ShowsPage := by
  unfold stepPage
  dsimp only
  split
  case isTrue hstays => exact Or.inl ⟨hstays, rfl⟩
  case isFalse hmoves =>
    split
    · exact Or.inr ⟨hmoves, showsPage_reconcile _⟩
    · exact Or.inr ⟨hmoves, showsPage_reconcile _⟩

theorem streams_stepPage (c : Controller) (delta : Int) :
    (c.stepPage delta).streams = c.streams :=
  c.streams_perform (.stepPage delta) rfl

theorem layout_stepPage (c : Controller) (delta : Int) :
    (c.stepPage delta).view.layout = c.view.layout := by
  unfold stepPage
  dsimp only
  split
  · rfl
  · split
    · exact settledView_layout _
    · exact settledView_layout _

theorem pages_stepPage (c : Controller) (delta : Int) : (c.stepPage delta).pages = c.pages := by
  rw [pages_eq, pages_eq, streams_stepPage, layout_stepPage]

/-- Reconciling settles the page and leaves it where it was. -/
private theorem currentPage_reconcile (c : Controller) :
    c.reconcile.currentPage = c.currentPage := by
  have hagain : ∀ page total size : Nat,
      clampPage (clampPage page total size) total size = clampPage page total size :=
    fun page total size => clampPage_of_lt (clampPage_lt page total size)
  unfold currentPage reconcile settledView
  cases hl : c.view.layout with
  | single => simp only [hl]
  | count streams => simp only [hl, hagain]
  | custom columns rows => simp only [hl, hagain]

/-- A step on a wall of one tile that leads elsewhere leads to a stream. -/
theorem pageAfter_lt_length (hlayout : c.view.layout = .single)
    (hmoves : c.pageAfter delta ≠ c.currentPage) : c.pageAfter delta < c.streams.length := by
  have hlt := c.pageAfter_lt delta
  have hpages : c.pages = max c.streams.length 1 := by
    unfold pages
    rw [hlayout]
  cases hstreams : c.streams with
  | cons s rest =>
      rw [hstreams, List.length_cons] at hpages
      rw [List.length_cons]
      omega
  | nil =>
      -- an empty list has one page, and a step has nowhere to go
      have hfirst : c.currentPage = 0 := by
        unfold currentPage selectedIndex position?
        rw [hlayout, hstreams]
        cases c.view.selected with
        | none => rfl
        | some name => rfl
      rw [hstreams, List.length_nil] at hpages
      omega

/-- On a list without repetition a step leads to its page. -/
theorem currentPage_stepPage (hnames : c.names.Nodup) (delta : Int) :
    (c.stepPage delta).currentPage = c.pageAfter delta := by
  unfold stepPage
  dsimp only
  split
  case isTrue hstays => exact hstays.symm
  case isFalse hmoves =>
    split
    case isTrue hlayout =>
      -- the stream of that page is selected, and found again by its name
      have hindex := selectedIndex_getElem hnames (pageAfter_lt_length hlayout hmoves)
      rw [currentPage_reconcile]
      unfold currentPage
      simp only [hlayout]
      exact hindex
    case isFalse hlayout =>
      have hlt := c.pageAfter_lt delta
      rw [pages_eq] at hlt
      rw [currentPage_reconcile]
      unfold currentPage
      cases hl : c.view.layout with
      | single => exact absurd hl hlayout
      | count streams =>
          rw [hl] at hlt
          exact clampPage_of_lt hlt
      | custom columns rows =>
          rw [hl] at hlt
          exact clampPage_of_lt hlt

end Controller

-- =========================================================== histories

namespace History

variable {h : History} {events : List Event}

theorem showsPage_opened (playing : Player.Settings) (supported : Bool)
    (polling : Polling.Settings) (view : View) :
    (opened playing supported polling view).wall.ShowsPage := by
  simp [Controller.ShowsPage, opened, pageOf]

/-- In every history the wall shows its page, but for an empty screen after
a shutdown. -/
theorem showsPage_run (hw : h.wall.ShowsPage) (events : List Event) :
    (h.run events).wall.ShowsPage
      ∨ Event.shutdown ∈ events ∧ (h.run events).wall.visible = [] := by
  induction events using List.reverseRecOn with
  | nil => exact Or.inl hw
  | append_singleton before event ih =>
      rw [run_append]
      show ((h.run before).after event).wall.ShowsPage
        ∨ Event.shutdown ∈ before ++ [event] ∧ ((h.run before).after event).wall.visible = []
      have hdark : ∀ c : Controller,
          Event.shutdown ∈ before ∧ c.visible = [] →
          Event.shutdown ∈ before ++ [event] ∧ c.visible = [] :=
        fun c hc => ⟨List.mem_append_left _ hc.1, hc.2⟩
      cases event with
      | operation op =>
          rcases (h.run before).wall.showsPage_perform op with hshows | ⟨hvisible, hkeeps⟩
          · exact Or.inl hshows
          · refine ih.imp hkeeps fun hempty => hdark _ ⟨hempty.1, ?_⟩
            exact hvisible.trans hempty.2
      | shutdown => exact Or.inr ⟨by simp, rfl⟩
      | playing a => exact ih.imp id (hdark _)
      | polling a => exact ih.imp id (hdark _)

/-- By itself nothing changes the list, the view or the screen. -/
private theorem run_activities (hactivity : ∀ event ∈ events, event.isActivity = true) :
    (h.run events).wall.streams = h.wall.streams ∧ (h.run events).wall.view = h.wall.view
      ∧ (h.run events).wall.visible = h.wall.visible := by
  induction events generalizing h with
  | nil => exact ⟨rfl, rfl, rfl⟩
  | cons event later ih =>
      have hlater := ih (h := h.after event) fun e he => hactivity e (List.mem_cons_of_mem _ he)
      have hfirst := hactivity event List.mem_cons_self
      rw [run_cons]
      cases event with
      | operation op => cases hfirst
      | shutdown => cases hfirst
      | playing a => exact hlater
      | polling a => exact hlater

/-- What is on screen from page to page: at the beginning, and after every
step to the next page. In between there are pauses, in which things happen
by themselves. -/
def shownFrom (h : History) : List (List Event) → List (List String)
  | [] => [h.wall.visible]
  | pause :: rest =>
      h.wall.visible :: shownFrom ((h.run pause).after (.operation (.stepPage 1))) rest

/-- Stepping on shows page after page, as long as there are more. -/
private theorem shownFrom_eq (pauses : List (List Event)) {h : History} (hw : h.wall.ShowsPage)
    (hnames : h.wall.names.Nodup)
    (hactivity : ∀ pause ∈ pauses, ∀ event ∈ pause, event.isActivity = true)
    (hpages : h.wall.currentPage + pauses.length < h.wall.pages) :
    h.shownFrom pauses
      = (List.range' h.wall.currentPage (pauses.length + 1)).map fun page =>
          (pageOf h.wall.streams h.wall.view.layout page).map (·.name) := by
  induction pauses generalizing h with
  | nil =>
      unfold shownFrom
      rw [hw]
      rfl
  | cons pause rest ih =>
      obtain ⟨hstreams, hview, hvisible⟩ :=
        run_activities (h := h) (hactivity pause List.mem_cons_self)
      -- what goes on between two steps leaves list and view alone
      generalize hquiet : (h.run pause).wall = c at hstreams hview hvisible
      have hcurrent : c.currentPage = h.wall.currentPage := by
        unfold Controller.currentPage
        rw [hstreams, hview]
      have hpagesSame : c.pages = h.wall.pages := by
        rw [Controller.pages_eq, Controller.pages_eq, hstreams, hview]
      have hnamesSame : c.names.Nodup := by
        unfold Controller.names
        rw [hstreams]
        exact hnames
      rw [List.length_cons] at hpages
      -- there is a page left, so the step moves by one
      have hafter : c.pageAfter 1 = h.wall.currentPage + 1 := by
        have heq := c.pageAfter_eq 1
        rw [hcurrent, hpagesSame] at heq
        omega
      have hstepped := Controller.currentPage_stepPage hnamesSame 1
      have hmoves : (c.stepPage 1).ShowsPage := by
        rcases c.stepPage_cases 1 with ⟨hstays, -⟩ | ⟨-, hshows⟩
        · omega
        · exact hshows
      have hnext := ih (h := (h.run pause).after (.operation (.stepPage 1)))
      have hwall : ((h.run pause).after (.operation (.stepPage 1))).wall = c.stepPage 1 := by
        rw [← hquiet]
        rfl
      rw [hwall] at hnext
      unfold shownFrom
      rw [hnext hmoves ?_ (fun p hp => hactivity p (List.mem_cons_of_mem _ hp)) ?_, hw,
        Controller.streams_stepPage, Controller.layout_stepPage, hstreams, hview, hstepped, hafter]
      · rfl
      · unfold Controller.names
        rw [Controller.streams_stepPage]
        exact hnamesSame
      · rw [Controller.pages_stepPage]
        omega

/-- Pages are not empty, no larger than the page size, and put together the
list; a number past the end means the last one. On a wall without
repetition, after any history, a step by pages is cut off at both ends and
brings its page on screen, unless the screen is empty after a shutdown and
the step has nowhere to go. So stepping on from the first page, whatever
happens by itself meanwhile, shows every stream once, in list order. -/
theorem pages_reach_all :
    (∀ (streams : List Stream) (layout : Layout) (selected : Option String), layout ≠ .single →
      (∀ page < pageCount streams.length layout.pageSize,
        visibleStreams streams layout selected page = pageOf streams layout page
        ∧ (pageOf streams layout page).length ≤ layout.pageSize
        ∧ (streams ≠ [] → pageOf streams layout page ≠ []))
      ∧ (List.range (pageCount streams.length layout.pageSize)).flatMap
          (visibleStreams streams layout selected) = streams
      ∧ ∀ page ≥ pageCount streams.length layout.pageSize,
          visibleStreams streams layout selected page
            = visibleStreams streams layout selected
                (pageCount streams.length layout.pageSize - 1))
    ∧ ∀ (playing : Player.Settings) (supported : Bool) (polling : Polling.Settings) (view : View)
        (events : List Event) (h : History),
        h = (opened playing supported polling view).run events → h.wall.names.Nodup →
        (∀ delta : Int,
          ((h.wall.stepPage delta).currentPage : Int)
              = max 0 (min (h.wall.currentPage + delta) (h.wall.pages - 1))
          ∧ (h.wall.stepPage delta).pages = h.wall.pages
          ∧ ((h.wall.stepPage delta).ShowsPage
            ∨ Event.shutdown ∈ events ∧ h.wall.visible = [] ∧ h.wall.stepPage delta = h.wall))
        ∧ ∀ pauses, (∀ pause ∈ pauses, ∀ event ∈ pause, event.isActivity = true) →
            h.wall.currentPage = 0 → pauses.length + 1 = h.wall.pages →
            (Event.shutdown ∈ events → h.wall.visible ≠ []) →
            (h.shownFrom pauses).flatten = h.wall.names := by
  constructor
  · intro streams layout selected hlayout
    refine ⟨fun page hpage => ?_, flatMap_visibleStreams hlayout, fun page hpage => ?_⟩
    · exact ⟨visibleStreams_of_lt hlayout hpage, length_pageOf_le,
        fun hstreams => pageOf_ne_nil hstreams hpage⟩
    · rw [visibleStreams_eq hlayout, visibleStreams_eq hlayout, clampPage_of_le hpage]
  · intro playing supported polling view events h hrun hnames
    -- only a shutdown leaves a page that is not shown
    have hshows : h.wall.ShowsPage ∨ Event.shutdown ∈ events ∧ h.wall.visible = [] := by
      rw [hrun]
      exact showsPage_run (showsPage_opened playing supported polling view) events
    refine ⟨fun delta => ⟨?_, Controller.pages_stepPage h.wall delta, ?_⟩, ?_⟩
    · rw [Controller.currentPage_stepPage hnames, Controller.pageAfter_eq]
    · rcases h.wall.stepPage_cases delta with ⟨-, hstays⟩ | ⟨-, hmoved⟩
      · rw [hstays]
        exact hshows.imp id fun hdark => ⟨hdark.1, hdark.2, rfl⟩
      · exact Or.inl hmoved
    · intro pauses hactivity hfirst hall hlit
      have hw : h.wall.ShowsPage := hshows.elim id fun hdark => absurd hdark.2 (hlit hdark.1)
      rw [shownFrom_eq pauses hw hnames hactivity (by omega), hfirst, hall,
        Controller.flatten_pages]

/-- The user looks at two streams, and the wall is shut down. -/
def shutDown : History :=
  (opened {} true {} {}).run [.operation (.setStreams twoStreams), .shutdown]

/-- Both streams are on the one page that there is, but a step to the next
page shows nothing: it has nowhere to go, and the screen was cleared. -/
theorem blank_after_shutdown :
    shutDown.wall.names.Nodup
      ∧ (shutDown.wall.stepPage 1).currentPage = 0
      ∧ (pageOf shutDown.wall.streams shutDown.wall.view.layout 0).map (·.name)
          = ["gate", "yard"]
      ∧ (shutDown.wall.stepPage 1).visible = []
      ∧ ¬ (shutDown.wall.stepPage 1).ShowsPage := by
  unfold Controller.ShowsPage
  decide

/-- Two streams on pages of one, and something that comes in late. -/
def tileByTile : History :=
  (opened {} true {} { layout := .custom 1 1 }).run [.operation (.setStreams twoStreams)]

/-- An answer to a task that there never was. -/
def latecomer : List Event := [.polling (.late 0 0 (.ok []))]

theorem pages_reach_all_of_two_tiles :
    (Layout.custom 1 1 ≠ .single
      ∧ (List.range (pageCount twoStreams.length 1)).flatMap
          (visibleStreams twoStreams (.custom 1 1) none) = twoStreams)
    ∧ (tileByTile.wall.names.Nodup
      ∧ ((tileByTile.wall.stepPage 7).currentPage : Int) = 1
      ∧ (tileByTile.wall.stepPage 7).visible = ["yard"])
    ∧ ((∀ pause ∈ [latecomer], ∀ event ∈ pause, event.isActivity = true)
      ∧ tileByTile.wall.currentPage = 0 ∧ [latecomer].length + 1 = tileByTile.wall.pages
      ∧ (tileByTile.shownFrom [latecomer]).flatten = ["gate", "yard"]) := by
  have hlayout : Layout.custom 1 1 ≠ .single := by simp
  have hnames : tileByTile.wall.names.Nodup := by decide
  have hactivity : ∀ pause ∈ [latecomer], ∀ event ∈ pause, event.isActivity = true := by
    simp [latecomer, Event.isActivity]
  have hpages : [latecomer].length + 1 = tileByTile.wall.pages := by decide
  obtain ⟨hlists, hwalls⟩ := pages_reach_all
  obtain ⟨hsteps, hshown⟩ := hwalls {} true {} { layout := .custom 1 1 }
    [.operation (.setStreams twoStreams)] tileByTile rfl hnames
  obtain ⟨hpage, -, hscreen⟩ := hsteps 7
  refine ⟨⟨hlayout, (hlists twoStreams (.custom 1 1) none hlayout).2.1⟩, ⟨hnames, ?_, ?_⟩,
    hactivity, by decide, hpages, ?_⟩
  · rw [hpage]
    decide
  · rcases hscreen with hshows | ⟨hdown, -⟩
    · rw [hshows]
      decide
    · simp at hdown
  · rw [hshown [latecomer] hactivity (by decide) hpages (by simp)]
    decide

end History

end VideoWall.Wall
