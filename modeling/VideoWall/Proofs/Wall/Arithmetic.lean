/-
Which calculations of the wall stay in words.

# What is safe

Almost every operation has a bound of its own. The square of a root is no
larger than the number itself, a quotient that is rounded up is no larger than
the dividend if anything is left over, there is always a page to take one off,
and a page number has been clamped before it is multiplied: a page that is not
the first one begins within the list, and so the page size is less than its
length (`Calculation.page_in_words`).

# What is not

The cells of a grid of given size are multiplied without a look at them. A
page size that is no word is overflow, and so is whatever asks for it
(`Layout.ifFits`); nothing else is (`calculated_of_accepted`). So a wall on
which the page sizes are words goes on through any operations
(`Calculation.foldlM_perform`).
-/
import VideoWall.Proofs.Wall.Accepted
import VideoWall.Proofs.Wall.Grids
import VideoWall.Proofs.Wall.Pages
import VideoWall.Proofs.Wall.Watching
import VideoWall.Wall.Calculation

namespace VideoWall

open Recorder Numeral

-- =========================================================== operations

namespace Numeral.Word

variable {a b : Nat}

/-- A quotient is rounded up as if there were no bound. -/
theorem ceilDiv_eq (hb : 0 < b) (ha : a ≤ maxWord64) : ceilDiv a b = .ok (Wall.ceilDiv a b) := by
  have hdivision := Nat.div_add_mod a b
  have hrest := Nat.mod_lt a hb
  unfold ceilDiv Wall.ceilDiv
  rw [div_of_pos hb]
  show (if a % b = 0 then .ok (a / b) else add (a / b) 1) = .ok ((a + b - 1) / b)
  split
  case isTrue hexact =>
    have hup : (a + b - 1) / b = a / b := by
      apply Nat.div_eq_of_lt_le
      · rw [Nat.mul_comm]
        omega
      · rw [Nat.add_mul, Nat.mul_comm]
        omega
    rw [hup]
  case isFalse hover =>
    have hup : (a + b - 1) / b = a / b + 1 := by
      apply Nat.div_eq_of_lt_le
      · rw [Nat.add_mul, Nat.mul_comm]
        omega
      · rw [Nat.add_mul, Nat.add_mul, Nat.mul_comm]
        omega
    have hquotient : a / b ≤ b * (a / b) := Nat.le_mul_of_pos_left _ hb
    rw [hup]
    exact ofNat_of_le (by omega)

/-- A slice within its bounds is not a panic. -/
theorem slice_of_le {α : Type} {items : List α} {start stop : Nat} (hstart : start ≤ stop)
    (hstop : stop ≤ items.length) :
    slice items start stop = .ok ((items.drop start).take (stop - start)) := by
  unfold slice
  rw [if_pos ⟨hstart, hstop⟩, List.drop_take]

end Numeral.Word

namespace Wall

variable {layout : Layout} {streams : List Stream} {selected : Option String}

-- ============================================================ page sizes

namespace Layout

/-- The page size is a word. -/
def Fits (layout : Layout) : Prop := layout.pageSize ≤ maxWord64

instance (layout : Layout) : Decidable layout.Fits :=
  inferInstanceAs (Decidable (layout.pageSize ≤ maxWord64))

/-- A result that needs the page size: overflow, if that is no word. -/
def ifFits {α : Type} (layout : Layout) (a : α) : Word.Checked α :=
  if layout.Fits then .ok a else .error .overflow

/-- A layout that fits is calculated with as it is. -/
theorem ifFits_of_fits {α : Type} (h : layout.Fits) (a : α) : layout.ifFits a = .ok a := if_pos h

/-- What comes after a page size is calculated only if that is a word. -/
theorem ifFits_bind {α β : Type} {a : α} {b : β} {f : α → Word.Checked β}
    (hf : layout.Fits → f a = .ok b) : (layout.ifFits a >>= f) = layout.ifFits b := by
  by_cases h : layout.Fits
  · rw [ifFits_of_fits h, ifFits_of_fits h]
    exact hf h
  · unfold ifFits
    rw [if_neg h, if_neg h]
    rfl

theorem fits_single : Layout.single.Fits := show 1 ≤ maxWord64 by decide

/-- Only a grid of given size may have a page size that is no word. -/
theorem InWords.fits_or (h : layout.InWords) :
    layout.Fits ∨ ∃ columns rows, layout = .custom columns rows
      ∧ maxWord64 < max columns 1 * max rows 1 := by
  cases layout with
  | single => exact Or.inl fits_single
  | count streams =>
      left
      exact Nat.max_le.2 ⟨h, by decide⟩
  | custom columns rows =>
      rcases Nat.lt_or_ge maxWord64 (max columns 1 * max rows 1) with hover | hfits
      · exact Or.inr ⟨columns, rows, rfl, hover⟩
      · exact Or.inl hfits

end Layout

namespace Calculation

open Layout

-- ========================================================== calculations

/-- The root of a word, its square and the root next to it are words. -/
private theorem optimalGrid_eq {count : Nat} (h : count ≤ maxWord64) :
    optimalGrid count = .ok (Wall.optimalGrid count) := by
  unfold optimalGrid
  split
  case isTrue => rfl
  case isFalse hlarge =>
    have hroot := Nat.sqrt_le count
    have hpos : 0 < count.sqrt := Nat.sqrt_pos.2 (by omega)
    have hless : count.sqrt ≤ count.sqrt * count.sqrt := Nat.le_mul_of_pos_left _ hpos
    have hsquare : Word.mul count.sqrt count.sqrt = .ok (count.sqrt * count.sqrt) :=
      Word.ofNat_of_le (hroot.trans h)
    rw [optimalGrid_eq_nearSquare (by omega)]
    unfold nearSquare
    rw [squareRoot_eq]
    dsimp only
    rw [hsquare]
    split
    case isTrue hexact =>
      have hcolumns : Word.add count.sqrt 0 = .ok count.sqrt := Word.ofNat_of_le (by omega)
      simp only [bind, Except.bind, hexact, ↓reduceIte, hcolumns, Word.ceilDiv_eq hpos h]
      rfl
    case isFalse hbetween =>
      have hcolumns : Word.add count.sqrt 1 = .ok (count.sqrt + 1) := Word.ofNat_of_le (by omega)
      simp only [bind, Except.bind, hbetween, ↓reduceIte, hcolumns,
        Word.ceilDiv_eq (Nat.succ_pos count.sqrt) h]
      rfl

/-- Dimensions are calculated on words. -/
private theorem dimensions_eq (h : layout.InWords) : dimensions layout = .ok layout.dimensions := by
  cases layout with
  | count streams => exact optimalGrid_eq h
  | _ => rfl

/-- A page's size is calculated unless it is past a word. -/
theorem pageSize_eq (h : layout.InWords) : pageSize layout = layout.ifFits layout.pageSize := by
  cases layout with
  | count streams =>
      rcases h.fits_or with hfits | ⟨columns, rows, hcustom, -⟩
      · exact (ifFits_of_fits hfits _).symm
      · cases hcustom
  | _ => rfl

/-- What needs the page size is calculated if that is a word. -/
theorem pageSize_bind {α : Type} {a : α} {f : Nat → Word.Checked α} (h : layout.InWords)
    (hf : layout.Fits → f layout.pageSize = .ok a) : (pageSize layout >>= f) = layout.ifFits a := by
  rw [pageSize_eq h]
  exact ifFits_bind hf

variable {total : Nat}

/-- The count of pages is calculated on words. -/
theorem pageCount_eq (h : total ≤ maxWord64) (size : Nat) :
    pageCount total size = .ok (Wall.pageCount total size) := by
  unfold pageCount
  rw [Word.ceilDiv_eq (Nat.lt_of_lt_of_le Nat.one_pos (Nat.le_max_right size 1)) h]
  rfl

/-- There is always a page to take one off. -/
theorem clampPage_eq (h : total ≤ maxWord64) (page size : Nat) :
    clampPage page total size = .ok (Wall.clampPage page total size) := by
  unfold clampPage
  rw [pageCount_eq h]
  show (Word.sub (Wall.pageCount total size) 1 >>= fun last => pure (min page last)) = _
  rw [Word.sub_of_le (Controller.pageCount_pos total size)]
  rfl

-- ============================================================== streams

/-- The length of a list is a word. -/
theorem length_le (h : streams.length ≤ maxInt64) : streams.length ≤ maxWord64 :=
  h.trans (by decide)

/-- A window of a list that begins within it. -/
private theorem slice_window {start size : Nat} (hstart : start ≤ streams.length) :
    Word.slice streams start (min (start + size) streams.length)
      = .ok ((streams.drop start).take size) := by
  have hstop : start ≤ min (start + size) streams.length := by omega
  have hsame : (streams.drop start).take (min (start + size) streams.length - start)
      = (streams.drop start).take size := by
    rw [List.take_eq_take_iff, List.length_drop]
    omega
  rw [Word.slice_of_le hstop (Nat.min_le_right _ _), hsame]

/-- The selected stream has an index. -/
private theorem selectedIndex_lt (hstreams : streams ≠ []) (selected : Option String) :
    selectedIndex streams selected < streams.length := by
  have hpos := List.length_pos_iff.2 hstreams
  unfold selectedIndex
  cases hposition : selected.bind (position? streams) with
  | none => exact hpos
  | some i =>
      obtain ⟨name, -, hi⟩ := Option.bind_eq_some_iff.1 hposition
      exact (List.findIdx?_eq_some_iff_getElem.1 hi).1

/-- Where a page begins, and where it ends, is a word. -/
private theorem page_in_words {size page : Nat} (hlength : streams.length ≤ maxInt64)
    (hstreams : streams ≠ []) (hsize : 0 < size) (hword : size ≤ maxWord64)
    (hpage : page < Wall.pageCount streams.length size) :
    page * size < streams.length ∧ page * size + size ≤ maxWord64 := by
  have hstart := pageStart_lt hsize (List.length_pos_iff.2 hstreams) hpage
  refine ⟨hstart, ?_⟩
  rcases Nat.eq_zero_or_pos page with rfl | hlater
  · rw [Nat.zero_mul, Nat.zero_add]
    exact hword
  · -- a page before this one is as long, and within the list
    have hbefore : size ≤ page * size := Nat.le_mul_of_pos_left size hlater
    unfold maxInt64 at hlength
    unfold maxWord64
    omega

/-- A page of a list is calculated if the page size is. -/
theorem visibleStreams_eq (hlength : streams.length ≤ maxInt64) (hstreams : streams ≠ [])
    (hwords : layout.InWords) (selected : Option String) (page : Nat) :
    visibleStreams streams layout selected page
      = layout.ifFits (Wall.visibleStreams streams layout selected page) := by
  -- with pages: the product and the sum stay in words where the page's size does
  have hpaged : (pageSize layout >>= fun size => do
      let page ← clampPage page streams.length size
      let start ← Word.mul page size
      let stop ← Word.add start size
      Word.slice streams start (min stop streams.length))
        = layout.ifFits
            (pageOf streams layout (Wall.clampPage page streams.length layout.pageSize)) := by
    refine pageSize_bind hwords fun hfits => ?_
    obtain ⟨hstart, hstop⟩ := page_in_words hlength hstreams (pageSize_pos layout) hfits
      (Controller.clampPage_lt page streams.length layout.pageSize)
    have hmul := Word.ofNat_of_le (hstart.le.trans (length_le hlength))
    have hadd := Word.ofNat_of_le hstop
    simp only [bind, Except.bind, clampPage_eq (length_le hlength), Word.mul, Word.add, hmul, hadd]
    exact slice_window hstart.le
  unfold visibleStreams
  rw [if_neg (fun hempty => hstreams (List.isEmpty_iff.1 hempty))]
  cases layout with
  | single =>
      have hi : selectedIndex streams selected + 1 ≤ streams.length := selectedIndex_lt hstreams _
      have hadd : Word.add (selectedIndex streams selected) 1
          = .ok (selectedIndex streams selected + 1) :=
        Word.ofNat_of_le (hi.trans (length_le hlength))
      have hslice : Word.slice streams (selectedIndex streams selected)
          (selectedIndex streams selected + 1)
            = .ok ((streams.drop (selectedIndex streams selected)).take 1) := by
        rw [Word.slice_of_le (Nat.le_add_right _ 1) hi, Nat.add_sub_cancel_left]
      rw [ifFits_of_fits fits_single]
      simp only [bind, Except.bind, hadd, hslice]
      rfl
  | count n => exact hpaged
  | custom columns rows => exact hpaged

/-- What is visible is calculated for layouts that fit. -/
private theorem visibleStreams_of_fits (hlength : streams.length ≤ maxInt64)
    (hwords : layout.InWords) (hfits : layout.Fits) (selected : Option String) (page : Nat) :
    visibleStreams streams layout selected page
      = .ok (Wall.visibleStreams streams layout selected page) := by
  by_cases hstreams : streams = []
  · have hnone : Wall.visibleStreams [] layout selected page = [] := by
      cases layout with
      | single => exact List.take_eq_nil_of_eq_nil List.drop_nil
      | _ => exact List.take_eq_nil_of_eq_nil List.drop_nil
    rw [hstreams, hnone]
    rfl
  · rw [visibleStreams_eq hlength hstreams hwords, ifFits_of_fits hfits]

-- ============================================================= the wall

variable {c : Controller}

/-- Pages are counted if the page size is calculated, and those of a wall of
one tile in any case. -/
private theorem pages_eq (hlength : c.streams.length ≤ maxInt64) (hwords : c.view.layout.InWords) :
    pages c = c.view.layout.ifFits c.pages := by
  unfold pages Controller.pages
  cases hl : c.view.layout with
  | single => exact (ifFits_of_fits fits_single _).symm
  | _ =>
      rw [hl] at hwords
      exact pageSize_bind hwords fun _ => pageCount_eq (length_le hlength) _

/-- The page is calculated for layouts that fit. -/
private theorem currentPage_eq (hlength : c.streams.length ≤ maxInt64)
    (hwords : c.view.layout.InWords) : currentPage c = c.view.layout.ifFits c.currentPage := by
  unfold currentPage Controller.currentPage
  cases hl : c.view.layout with
  | single => exact (ifFits_of_fits fits_single _).symm
  | _ =>
      rw [hl] at hwords
      exact pageSize_bind hwords fun _ => clampPage_eq (length_le hlength) _ _

private theorem settledView_eq (hlength : c.streams.length ≤ maxInt64)
    (hwords : c.view.layout.InWords) : settledView c = c.view.layout.ifFits c.settledView := by
  unfold settledView Controller.settledView
  cases hl : c.view.layout with
  | single => exact (ifFits_of_fits fits_single _).symm
  | _ =>
      rw [hl] at hwords
      refine pageSize_bind hwords fun _ => ?_
      rw [clampPage_eq (length_le hlength)]
      rfl

/-- A wall is brought in step if the page size is calculated. -/
theorem reconcile_eq (hlength : c.streams.length ≤ maxInt64) (hwords : c.view.layout.InWords) :
    reconcile c = c.view.layout.ifFits c.reconcile := by
  unfold reconcile
  rw [settledView_eq hlength hwords]
  refine ifFits_bind fun hfits => ?_
  have hlayout := Controller.settledView_layout c
  have hwanted : wanted { c with view := c.settledView }
      = .ok ({ c with view := c.settledView } : Controller).wanted :=
    visibleStreams_of_fits hlength (hlayout ▸ hwords) (hlayout ▸ hfits) _ _
  dsimp only
  rw [hwanted]
  rfl

/-- The page that a new layout begins with asks for a page size only if there
is a stream to stay with. -/
private theorem pageFor_cases (hwords : layout.InWords) (c : Controller) :
    pageFor c layout = .ok (c.pageFor layout)
      ∨ pageFor c layout = layout.ifFits (c.pageFor layout) := by
  unfold pageFor Controller.pageFor
  split
  case isTrue =>
    cases hposition : c.view.selected.bind (position? c.streams) with
    | none => exact Or.inl rfl
    | some i =>
        right
        exact pageSize_bind hwords fun _ => Word.div_of_pos (pageSize_pos layout) i
  case isFalse => exact Or.inl rfl

/-- A layout is set when it fits. -/
theorem setLayout_eq (hlength : c.streams.length ≤ maxInt64) (hwords : layout.InWords) :
    setLayout c layout = layout.ifFits (c.setLayout layout) := by
  have hreconciled : reconcile
      { c with
        view := { c.view with
          layout, selected := c.selectionFor layout, page := c.pageFor layout } }
        = layout.ifFits (c.setLayout layout) := reconcile_eq hlength hwords
  unfold setLayout
  rcases pageFor_cases hwords c with hpage | hpage
  · rw [hpage]
    exact hreconciled
  · rw [hpage]
    refine ifFits_bind fun hfits => ?_
    rw [hreconciled, ifFits_of_fits hfits]

/-- There are no more pages than streams, but for the one that there always
is. -/
private theorem pages_le (c : Controller) : c.pages ≤ max c.streams.length 1 := by
  have hsize := pageSize_pos c.view.layout
  rcases Nat.eq_zero_or_pos c.streams.length with hempty | hsome
  · have hnone : (0 + c.view.layout.pageSize - 1) / c.view.layout.pageSize = 0 :=
      Nat.div_eq_of_lt (by omega)
    rw [Controller.pages_eq, hempty, Wall.pageCount_eq hsize, hnone]
  · have hlast : c.pages - 1 < c.pages := Nat.sub_lt c.pages_pos Nat.one_pos
    have hstart : (c.pages - 1) * c.view.layout.pageSize < c.streams.length :=
      pageStart_lt hsize hsome (hlast.trans_eq c.pages_eq)
    have hless : c.pages - 1 ≤ (c.pages - 1) * c.view.layout.pageSize :=
      Nat.le_mul_of_pos_right _ hsize
    omega

/-- Saturation does not reach what is cut off at the bound. -/
private theorem saturatingAdd_eq {bound : Nat} (hbound : bound ≤ maxWord64) (a : Nat) (delta : Int)
    : min (Word.saturatingAdd a delta) bound = min (Int.toNat (a + delta)) bound := by
  unfold Word.saturatingAdd
  omega

/-- A step among the pages is calculated for layouts that fit. -/
theorem stepPage_eq (hlength : c.streams.length ≤ maxInt64) (hwords : c.view.layout.InWords)
    (delta : Int) : stepPage c delta = c.view.layout.ifFits (c.stepPage delta) := by
  unfold stepPage
  rw [pages_eq hlength hwords, currentPage_eq hlength hwords]
  refine ifFits_bind fun hfits => ?_
  have hlast : c.pages - 1 ≤ maxWord64 := by
    have hpages := pages_le c
    have hwide := length_le hlength
    omega
  have htarget : min (Word.saturatingAdd c.currentPage delta) (c.pages - 1) = c.pageAfter delta :=
    saturatingAdd_eq hlast _ _
  have hreconcile : ∀ b : Controller, b.streams = c.streams → b.view.layout = c.view.layout →
      reconcile b = .ok b.reconcile := by
    intro b hstreams hlayout
    rw [reconcile_eq (hstreams ▸ hlength) (hlayout ▸ hwords), hlayout, ifFits_of_fits hfits]
  rw [ifFits_of_fits hfits]
  simp only [bind, Except.bind, Word.sub_of_le c.pages_pos, htarget]
  unfold Controller.stepPage
  dsimp only
  by_cases hstays : c.pageAfter delta = c.currentPage
  · rw [if_pos hstays, if_pos hstays]
    rfl
  · rw [if_neg hstays, if_neg hstays]
    by_cases hsingle : c.view.layout = .single
    · rw [if_pos hsingle, if_pos hsingle]
      exact hreconcile _ rfl rfl
    · rw [if_neg hsingle, if_neg hsingle]
      exact hreconcile _ rfl rfl

-- ================================================================= runs

/-- An operation, as it is calculated. Those that do not calculate are as they
are. -/
def perform (c : Controller) : Operation → Word.Checked Controller
  | .setStreams streams => setStreams c streams
  | .setLayout layout => setLayout c layout
  | .select name => select c name
  | .stepPage delta => stepPage c delta
  | .setShowDetections shown => setShowDetections c shown
  | .reconcile => reconcile c
  | op => pure (c.perform op)

/-- The list and the layout of a wall are of a size that can be calculated
with. -/
structure Sized (c : Controller) : Prop where
  length : c.streams.length ≤ maxInt64
  words : c.view.layout.InWords
  fits : c.view.layout.Fits

/-- So is what an operation brings. -/
def SizedOperation : Operation → Prop
  | .setStreams streams => streams.length ≤ maxInt64
  | .setLayout layout => layout.InWords ∧ layout.Fits
  | _ => True

variable {op : Operation}

/-- On a sized wall reconciling is calculated. -/
theorem Sized.reconcile (hc : Sized c) : reconcile c = .ok c.reconcile := by
  rw [reconcile_eq hc.length hc.words, ifFits_of_fits hc.fits]

/-- An operation of that size is not stopped. -/
theorem Sized.perform_eq (hc : Sized c) (hop : SizedOperation op) :
    perform c op = .ok (c.perform op) := by
  cases op with
  | setStreams streams => exact Sized.reconcile ⟨hop, hc.words, hc.fits⟩
  | setLayout layout =>
      show setLayout c layout = .ok (c.setLayout layout)
      rw [setLayout_eq hc.length hop.1, ifFits_of_fits hop.2]
  | select name =>
      show select c name = .ok (c.select name)
      unfold select Controller.select
      dsimp only
      split
      · split
        · exact Sized.reconcile ⟨hc.length, hc.words, hc.fits⟩
        · rfl
      · rfl
  | stepPage delta =>
      show stepPage c delta = .ok (c.stepPage delta)
      rw [stepPage_eq hc.length hc.words, ifFits_of_fits hc.fits]
  | setShowDetections shown => exact Sized.reconcile ⟨hc.length, hc.words, hc.fits⟩
  | reconcile => exact hc.reconcile
  | restartVisible => rfl
  | requestPlay name => rfl

/-- A sized operation keeps a wall sized. -/
theorem Sized.perform (hc : Sized c) (hop : SizedOperation op) : Sized (c.perform op) := by
  have hother : op.keepsList = true → op.keepsLayout = true → Sized (c.perform op) := by
    intro hlist hlayout
    obtain ⟨hlength, hwords, hfits⟩ := hc
    rw [← c.streams_perform op hlist] at hlength
    rw [← c.layout_perform hlayout] at hwords hfits
    exact ⟨hlength, hwords, hfits⟩
  cases op with
  | setStreams streams =>
      have hlayout : (c.perform (.setStreams streams)).view.layout = c.view.layout :=
        c.layout_perform rfl
      exact ⟨hop, hlayout ▸ hc.words, hlayout ▸ hc.fits⟩
  | setLayout layout =>
      have hlayout : (c.perform (.setLayout layout)).view.layout = layout :=
        c.layout_setLayout layout
      exact ⟨hc.length, hlayout.symm ▸ hop.1, hlayout.symm ▸ hop.2⟩
  | _ => exact hother rfl rfl

/-- Nothing is stopped on a wall on which everything is of that size, whatever
is done to it. -/
theorem foldlM_perform (hc : Sized c) {ops : List Operation}
    (hops : ∀ op ∈ ops, SizedOperation op) :
    ops.foldlM perform c = .ok (ops.foldl Controller.perform c) := by
  induction ops generalizing c with
  | nil => rfl
  | cons op rest ih =>
      obtain ⟨hop, hrest⟩ := List.forall_mem_cons.1 hops
      rw [List.foldlM_cons, hc.perform_eq hop]
      exact ih (hc.perform hop) hrest

end Calculation

-- =============================================================== the law

/-- Of a layout, columns and rows, pages and clamped page numbers are what they
are without a bound, for any page size. So is what needs the page size, if it
is a word; else it is overflow, but for an empty list, of which nothing is
shown. And it is no word only if it is the product of given columns and rows.
A list has `maxInt64` items at most. -/
structure Layout.Calculated (layout : Layout) : Prop where
  dimensions : Calculation.dimensions layout = .ok layout.dimensions
  pageSize : Calculation.pageSize layout = layout.ifFits layout.pageSize
  pageCount : ∀ total ≤ maxWord64, ∀ size,
    Calculation.pageCount total size = .ok (Wall.pageCount total size)
  clampPage : ∀ total ≤ maxWord64, ∀ page size,
    Calculation.clampPage page total size = .ok (Wall.clampPage page total size)
  visibleStreams : ∀ streams : List Stream, streams.length ≤ maxInt64 → ∀ selected page,
    Calculation.visibleStreams streams layout selected page
      = if streams.isEmpty then .ok []
        else layout.ifFits (Wall.visibleStreams streams layout selected page)
  setLayout : ∀ c : Controller, c.streams.length ≤ maxInt64 →
    Calculation.setLayout c layout = layout.ifFits (c.setLayout layout)
  stepPage : ∀ c : Controller, c.streams.length ≤ maxInt64 → c.view.layout = layout → ∀ delta,
    Calculation.stepPage c delta = layout.ifFits (c.stepPage delta)
  overflow : layout.Fits ∨ ∃ columns rows, layout = .custom columns rows
    ∧ maxWord64 < max columns 1 * max rows 1

/-- On a wall with any list, page and selection, nothing that is calculated of
a layout that the program accepts is stopped, but for overflow where the page
size is no word. -/
theorem calculated_of_accepted (h : layout.Accepted) : layout.Calculated where
  dimensions := Calculation.dimensions_eq h.inWords
  pageSize := Calculation.pageSize_eq h.inWords
  pageCount := fun _ htotal size => Calculation.pageCount_eq htotal size
  clampPage := fun _ htotal page size => Calculation.clampPage_eq htotal page size
  visibleStreams := by
    intro streams hlength selected page
    split
    case isTrue hempty => rw [List.isEmpty_iff.1 hempty]; rfl
    case isFalse hsome =>
      have hstreams : streams ≠ [] := fun hnil => hsome (List.isEmpty_iff.2 hnil)
      exact Calculation.visibleStreams_eq hlength hstreams h.inWords selected page
  setLayout := fun _ hlength => Calculation.setLayout_eq hlength h.inWords
  stepPage := by
    rintro c hlength rfl delta
    exact Calculation.stepPage_eq hlength h.inWords delta
  overflow := h.inWords.fits_or

/-- Preferences that are read have an accepted layout. -/
private theorem accepted_of_parse {text : List Char} {p : Preferences}
    (h : (Preferences.parse text).toOption = some p) : p.view.layout.Accepted := by
  cases hread : Preferences.parse text with
  | error e =>
      rw [hread] at h
      cases h
  | ok found =>
      rw [hread] at h
      cases h
      exact .saved hread

/-- A grid with as many cells as a word can tell. -/
def widest : Layout := .custom 4294967297 4294967295

/-- It is accepted, and shows its streams on one page. -/
theorem calculated_of_accepted_widest :
    widest.Accepted ∧ widest.Calculated
      ∧ Calculation.pageSize widest = .ok maxWord64
      ∧ (History.twoStreams.length ≤ maxInt64
        ∧ Calculation.visibleStreams History.twoStreams widest none 7
          = .ok History.twoStreams) := by
  have hread : (Preferences.parse ("\x7b\"layout\":\x7b\"mode\":\"custom\",\"columns\":4294967297,"
      ++ "\"rows\":4294967295\x7d\x7d").toList).toOption = some { layout := widest } := by
    decide +kernel
  have haccepted : widest.Accepted := accepted_of_parse hread
  have hlength : History.twoStreams.length ≤ maxInt64 := by decide
  have hcalculated := calculated_of_accepted haccepted
  refine ⟨haccepted, hcalculated, ?_, hlength, ?_⟩
  · rw [hcalculated.pageSize]
    rfl
  · rw [hcalculated.visibleStreams History.twoStreams hlength]
    rfl

/-- A grid with one cell more. -/
def vast : Layout := .custom 4294967296 4294967296

/-- It is accepted as well, from a saved view and on a command line, and
overflows as soon as its page size is asked for. -/
theorem vast_overflows :
    (Preferences.parse ("\x7b\"layout\":\x7b\"mode\":\"custom\",\"columns\":4294967296,"
        ++ "\"rows\":4294967296\x7d\x7d").toList).toOption = some { layout := vast }
      ∧ ((Program.Invocation.read (fun _ => none)
          ["live", "--columns", "4294967296", "--rows", "4294967296"]).toOption.bind
            (·.wall?)).bind (·.layout?) = some vast
      ∧ Calculation.pageSize vast = .error .overflow
      ∧ Calculation.visibleStreams History.twoStreams vast none 0 = .error .overflow
      ∧ Calculation.setLayout { streams := History.twoStreams } vast = .error .overflow
      ∧ Calculation.stepPage { streams := History.twoStreams, view := { layout := vast } } 1
          = .error .overflow := by
  refine ⟨?_, ?_, rfl, rfl, rfl, rfl⟩
  · decide +kernel
  · decide +kernel

end Wall

end VideoWall
