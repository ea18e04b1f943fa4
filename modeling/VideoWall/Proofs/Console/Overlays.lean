/-
The overlays that are kept are those that would be painted.

# Why a generation is enough

The picture of an overlay depends on the colours, on the size of the tile,
on the viewport, which depends on the sizes of tile and frame, and on the
detections. The colours never change and both sizes are part of the key. A
feed never loses generations, and as long as its generation is the same so
are its detections, whoever begins, ends or brings something
(`Feed.Grows`). So an overlay that was painted for a generation of its feed
is, as long as that generation lasts, the one that would be painted now
(`Faithful`); and what was on the canvas before it was painted does not
matter, for it is cleared (`repaint_congr`).

Every event keeps the overlays faithful (`Cached.run`), also where somebody
else writes to the feeds. A tile therefore shows what it would show if no
overlay had been kept, and so does the whole screen.
-/
import VideoWall.Proofs.Console.History
import VideoWall.Proofs.Polling.History

namespace VideoWall.Polling

open Recorder

-- ================================================================ feeds

/-- What becomes of a feed: generations only go up, and in the same
generation the detections are the same. -/
structure Feed.Grows (f f' : Feed) : Prop where
  generation : f.generation ≤ f'.generation
  detections : f'.generation = f.generation → f'.detections = f.detections

namespace Feed

variable {f : Feed}

theorem Grows.refl (f : Feed) : f.Grows f := ⟨Nat.le_refl _, fun _ => rfl⟩

/-- A feed that grows twice has grown. -/
theorem Grows.trans {f₁ f₂ f₃ : Feed} (h : f₁.Grows f₂) (h' : f₂.Grows f₃) : f₁.Grows f₃ := by
  refine ⟨Nat.le_trans h.generation h'.generation, fun hsame => ?_⟩
  -- a generation that is the same in the end was the same in between
  have hbetween := h.generation
  have hlast := h'.generation
  rw [h'.detections (by omega), h.detections (by omega)]

theorem grows_begin (f : Feed) : f.Grows f.begin := ⟨Nat.le_refl _, fun _ => rfl⟩

/-- A feed that ends grows: its generation is spent if something was shown. -/
theorem grows_finish (f : Feed) : f.Grows f.finish := by
  unfold finish
  dsimp only
  split
  · exact ⟨Nat.le_refl _, fun _ => rfl⟩
  · exact ⟨Nat.le_succ _, fun hsame => absurd hsame (Nat.succ_ne_self _)⟩

/-- An outcome makes a feed grow, or is refused. -/
theorem grows_apply (f : Feed) (session : Nat) (outcome : Except String (List Detection))
    (errors : Nat) : f.Grows (f.apply session outcome errors).1 := by
  cases htaken : (f.apply session outcome errors).2 with
  | false =>
      rw [apply_refused htaken]
      exact .refl f
  | true =>
      have hnext := generation_apply htaken
      exact ⟨by omega, fun hsame => by omega⟩

end Feed

-- ============================================================== pollers

namespace Task

variable {cfg : Settings} {now : Nat} {signal : Signal} {t t' : Task} {f f' : Feed}

/-- So does the delivery of a task. -/
theorem grows_deliver (cfg : Settings) (now : Nat) (outcome : Except String (List Detection))
    (t : Task) (f : Feed) : f.Grows (t.deliver cfg now outcome f).2 := by
  cases hbackoff : t.backoff.after? cfg outcome with
  | none =>
      rw [deliver_of_none hbackoff]
      exact .refl f
  | some backoff =>
      have hfeed : (t.deliver cfg now outcome f).2
          = (f.apply t.session outcome backoff.errors).1 := by
        unfold deliver
        rw [hbackoff]
        dsimp only
        split
        · rename_i hpair
          exact (congrArg Prod.fst hpair).symm
        · rename_i hpair
          exact (congrArg Prod.fst hpair).symm
      rw [hfeed]
      exact f.grows_apply _ outcome _

/-- Whatever a task does, its feed grows. -/
theorem grows_step? (h : t.step? cfg now signal f = some (t', f')) : f.Grows f' := by
  have hdelivers : ∀ {outcome}, t.deliver cfg now outcome f = (t', f') → f.Grows f' := by
    intro outcome hpair
    have hgrows := grows_deliver cfg now outcome t f
    rw [hpair] at hgrows
    exact hgrows
  unfold step? at h
  split at h
  · cases h
    exact .refl f
  · exact hdelivers (Option.some.inj h)
  · split at h
    · exact hdelivers (Option.some.inj h)
    · cases h
  · split at h
    · cases h
      exact .refl f
    · cases h
  · cases h

end Task

namespace Poller

variable {p p' : Poller}

/-- What becomes of the feeds of a poller. -/
def Grows (p p' : Poller) : Prop := ∀ name, (p.feed name).Grows (p'.feed name)

theorem Grows.refl (p : Poller) : p.Grows p := fun name => .refl (p.feed name)

theorem Grows.trans {p₁ p₂ p₃ : Poller} (h : p₁.Grows p₂) (h' : p₂.Grows p₃) : p₁.Grows p₃ :=
  fun name => (h name).trans (h' name)

/-- What is done for each stream makes feeds grow if it does so for one. -/
theorem grows_foldl {op : Poller → String → Poller}
    (hop : ∀ (p : Poller) (name : String), p.Grows (op p name))
    (names : List String) (p : Poller) : p.Grows (names.foldl op p) := by
  induction names generalizing p with
  | nil => exact .refl p
  | cons name rest ih => exact (hop p name).trans (ih (op p name))

theorem grows_enable (p : Poller) (name : String) : p.Grows (p.enable name) := by
  intro other
  rcases feed_enable p name other with hsame | ⟨-, hbegins⟩
  · rw [hsame]
    exact .refl _
  · rw [hbegins]
    exact Feed.grows_begin _

/-- Where one feed is replaced by what becomes of it, the feeds grow. -/
theorem grows_of_feeds {name : String} {f : Feed} (hgrows : (p.feed name).Grows f)
    (hfeeds : ∀ other, p'.feed other = if other = name then f else p.feed other) :
    p.Grows p' := by
  intro other
  rw [hfeeds other]
  split
  case isTrue ho =>
    rw [ho]
    exact hgrows
  case isFalse => exact .refl _

/-- Feeds grow if the one that is set has grown. -/
theorem grows_of_set {name : String} {f : Feed} (hgrows : (p.feed name).Grows f)
    (hfeeds : p'.feeds = p.feeds.set name f) : p.Grows p' := by
  refine grows_of_feeds hgrows fun other => ?_
  unfold feed
  rw [hfeeds, ByName.get?_set]
  split
  · rfl
  · rfl

/-- So they do where it is replaced only if the stream has had one. -/
theorem grows_of_modify {name : String} {grow : Feed → Feed}
    (hgrows : (p.feed name).Grows (grow (p.feed name)))
    (hfeeds : p'.feeds = p.feeds.modify name grow) : p.Grows p' := by
  cases hf : p.feeds.get? name with
  | none =>
      intro other
      have hsame : p'.feeds.get? other = p.feeds.get? other := by
        rw [hfeeds, ByName.get?_modify]
        split
        case isTrue ho =>
          rw [ho, hf]
          rfl
        case isFalse => rfl
      rw [feed_congr hsame]
      exact .refl _
  | some f =>
      refine grows_of_feeds hgrows fun other => ?_
      unfold feed
      rw [hfeeds, ByName.get?_modify, hf]
      split
      · rfl
      · rfl

theorem grows_disable (p : Poller) (name : String) : p.Grows (p.disable name) :=
  grows_of_modify (p.feed name).grows_finish rfl

/-- Whatever tasks do by themselves, feeds grow. -/
theorem grows_act (p : Poller) (a : Activity) : p.Grows (p.act a) := by
  cases a with
  | signal name now signal =>
      unfold act
      dsimp only
      cases hstep : p.step? now name signal with
      | none => exact .refl p
      | some p' =>
          obtain ⟨t, t', f', -, htask, rfl⟩ := step?_inv hstep
          exact grows_of_set (Task.grows_step? htask) rfl
  | late now i outcome =>
      unfold act
      dsimp only
      cases hlate : p.arriveLate? now i outcome with
      | none => exact .refl p
      | some p' =>
          unfold arriveLate? at hlate
          split at hlate
          · cases hlate
          · rename_i name t hstopped
            cases hlate
            exact grows_of_modify (Task.grows_deliver p.settings now outcome t (p.feed name)) rfl

end Poller

end VideoWall.Polling

namespace VideoWall.Wall

open Recorder Polling

-- ================================================================ walls

namespace Controller

/-- To reconcile makes feeds grow. -/
theorem grows_reconcilePoller (c : Controller) (next : List Stream) :
    c.poller.Grows (c.reconcilePoller next) := by
  rw [reconcilePoller_eq]
  exact (Poller.grows_foldl Poller.grows_disable _ _).trans
    (Poller.grows_foldl Poller.grows_enable _ _)

/-- Whatever the user does, feeds grow. -/
theorem grows_perform (c : Controller) (op : Operation) :
    c.poller.Grows (c.perform op).poller := by
  have hshape := c.performs op
  generalize c.perform op = c' at hshape
  cases hshape with
  | nothing | selects | restarts | wishes => exact .refl _
  | reconciles b hsame =>
      rw [← hsame.poller]
      exact grows_reconcilePoller { b with view := b.settledView } _

end Controller

/-- Whatever happens to a wall, its feeds grow. -/
theorem History.grows_run (h : History) (events : List Event) :
    h.wall.poller.Grows (h.run events).wall.poller := by
  induction events generalizing h with
  | nil => exact .refl _
  | cons event later ih =>
      refine Poller.Grows.trans ?_ (ih (h.after event))
      cases event with
      | operation op => exact h.wall.grows_perform op
      | shutdown => exact Poller.grows_foldl Poller.grows_disable _ _
      | playing a => exact .refl _
      | polling a => exact h.wall.poller.grows_act a

end VideoWall.Wall

namespace VideoWall.Console

open VideoWall.Geometry Recorder Raster Media Polling

-- ============================================================== painting

/-- What was on a canvas before does not matter, only its size does. -/
theorem repaint_congr {a b : Canvas} (hwidth : a.width = b.width) (hheight : a.height = b.height)
    (renderer : Overlay.Renderer) (viewport : Option (Viewport Float32))
    (detections : List Detection) :
    Overlay.repaint renderer a viewport detections
      = Overlay.repaint renderer b viewport detections := by
  have hcleared : a.cleared = b.cleared := by
    unfold Canvas.cleared
    rw [hwidth, hheight]
  unfold Overlay.repaint
  rw [hcleared]

/-- A surface that is kept has the size that is asked for. -/
theorem size_keptSurface (kept : Option Canvas) (width height : Nat) :
    (keptSurface kept width height).width = width
      ∧ (keptSurface kept width height).height = height := by
  unfold keptSurface
  split
  · split
    · assumption
    · exact ⟨rfl, rfl⟩
  · exact ⟨rfl, rfl⟩

/-- What is painted for a tile of a size that shows a frame of a size, on a
blank canvas. -/
def painted (renderer : Overlay.Renderer) (native : Nat × Nat) (width height : Nat)
    (detections : List Detection) : Canvas :=
  Overlay.repaint renderer (Canvas.blank width height)
    (displayViewport? native.1 native.2 width height) detections

/-- An overlay is of a generation that its feed has had, and for the present
one it is what would be painted now. -/
structure Faithful (renderer : Overlay.Renderer) (f : Feed) (o : PaintedOverlay) : Prop where
  generation : o.key.generation ≤ f.generation
  canvas : o.key.generation = f.generation →
    o.canvas = painted renderer o.key.native o.key.width o.key.height f.detections

/-- An overlay of a feed that has grown is faithful as long as the generations
agree. -/
private theorem Faithful.grows {renderer : Overlay.Renderer} {f f' : Feed} {o : PaintedOverlay}
    (h : Faithful renderer f o) (hgrows : f.Grows f') : Faithful renderer f' o := by
  refine ⟨Nat.le_trans h.generation hgrows.generation, fun hsame => ?_⟩
  have hpast := h.generation
  have hlater := hgrows.generation
  rw [hgrows.detections (by omega)]
  exact h.canvas (by omega)

/-- What is shown for a key is what would be painted for it now, if what was
kept is faithful. -/
private theorem refreshOverlay_eq {renderer : Overlay.Renderer} {f : Feed} (native : Nat × Nat)
    (width height : Nat) {kept : Option PaintedOverlay}
    (hkept : ∀ o, kept = some o → Faithful renderer f o) :
    refreshOverlay renderer ⟨f.generation, width, height, native⟩
        (displayViewport? native.1 native.2 width height) f.detections kept
      = ⟨⟨f.generation, width, height, native⟩,
          painted renderer native width height f.detections⟩ := by
  have hpainted : Overlay.repaint renderer (keptSurface (kept.map (·.canvas)) width height)
      (displayViewport? native.1 native.2 width height) f.detections
        = painted renderer native width height f.detections := by
    obtain ⟨hwidth, hheight⟩ := size_keptSurface (kept.map (·.canvas)) width height
    exact repaint_congr (b := Canvas.blank width height) hwidth hheight renderer _ _
  unfold refreshOverlay
  dsimp only
  rw [hpainted]
  cases kept with
  | none => rfl
  | some o =>
      dsimp only
      split
      case isFalse => rfl
      case isTrue hkey =>
        have hcanvas := (hkept o rfl).canvas (by rw [hkey])
        rw [hkey] at hcanvas
        obtain ⟨key, canvas⟩ := o
        subst hkey
        exact congrArg (PaintedOverlay.mk _) hcanvas

-- ============================================================ the cache

variable {c c' : Console}

/-- All overlays that are kept are faithful. -/
def Cached (c : Console) : Prop :=
  ∀ name o, c.overlays.get? name = some o →
    Faithful c.renderer (c.wall.poller.feed name) o

/-- Where feeds have grown and no overlay was painted, those that are left are
still faithful. -/
theorem Cached.grows (h : c.Cached) (hgrows : c.wall.poller.Grows c'.wall.poller)
    (hrenderer : c'.renderer = c.renderer)
    (hoverlays : ∀ name o, c'.overlays.get? name = some o → c.overlays.get? name = some o) :
    c'.Cached := by
  intro name o ho
  rw [hrenderer]
  exact (h name o (hoverlays name o ho)).grows (hgrows name)

private theorem Cached.operates (h : c.Cached) (hoperates : c.Operates c') : c'.Cached := by
  refine h.grows ?_ hoperates.renderer hoperates.overlays
  obtain ⟨ops, hops⟩ := hoperates.wall
  have hgrows := Wall.History.grows_run ⟨c.wall, []⟩ (ops.map .operation)
  rw [History.run_operations] at hgrows
  rw [hops]
  exact hgrows

/-- What is on a tile below the detections. -/
def below (c : Console) (name : String) (frame : Frame) (width height : Nat) : Canvas :=
  match displayViewport? (α := Float32) frame.width frame.height width height with
  | some v => frame.paint v width height
  | none => keptSurface (c.video.get? name) width height

/-- With a faithful cache a frame is shown below what would be painted now,
and that is what is kept. -/
theorem Cached.showFrame_eq (h : c.Cached) (name : String) (frame : Frame) (width height : Nat) :
    c.showFrame name frame width height
      = if c.wall.poller.isEnabled name then
          let feed := c.wall.poller.feed name
          let native := (frame.width, frame.height)
          let overlay := painted c.renderer native width height feed.detections
          let surface := (c.below name frame width height).composite overlay
          ({ c with
              video := c.video.set name surface
              overlays :=
                c.overlays.set name ⟨⟨feed.generation, width, height, native⟩, overlay⟩ },
            surface)
        else
          let surface := c.below name frame width height
          ({ c with video := c.video.set name surface }, surface) := by
  unfold showFrame
  have hrefresh := refreshOverlay_eq (frame.width, frame.height) width height (h name)
  dsimp only at hrefresh ⊢
  rw [hrefresh]
  rfl

/-- Showing a frame keeps overlays what they were painted for. -/
theorem Cached.showFrame (h : c.Cached) (name : String) (frame : Frame) (width height : Nat) :
    (c.showFrame name frame width height).1.Cached := by
  rw [h.showFrame_eq]
  dsimp only
  split
  · intro other o ho
    dsimp only at ho
    rw [ByName.get?_set] at ho
    split at ho
    case isTrue hn =>
      cases ho
      rw [hn]
      exact ⟨Nat.le_refl _, fun _ => rfl⟩
    case isFalse => exact h other o ho
  · exact h

theorem Cached.showTile (h : c.Cached) (name : String) (width height : Nat) :
    (c.showTile name width height).1.Cached := by
  unfold Console.showTile
  dsimp only
  split
  · exact h
  · exact h
  · exact h
  · exact h.showFrame name _ width height

/-- Showing tiles does so, too. -/
private theorem Cached.showTiles (h : c.Cached) (tiles : List Tile) :
    (c.showTiles tiles).Cached := by
  induction tiles generalizing c with
  | nil => exact h
  | cons tile rest ih => exact ih (h.showTile tile.name tile.width tile.height)

-- ============================================================== the screen

/-- Consoles with faithful overlays that differ in nothing else. -/
structure Twins (c c' : Console) : Prop where
  alike : ∃ overlays, c' = { c with overlays }
  cached : c.Cached
  cached' : c'.Cached

/-- Screens that differ in their kept overlays alone show a frame alike, and go
on to differ in that alone. -/
private theorem Twins.showFrame (h : c.Twins c') (name : String) (frame : Frame)
    (width height : Nat) :
    (c.showFrame name frame width height).1.Twins (c'.showFrame name frame width height).1
      ∧ (c'.showFrame name frame width height).2 = (c.showFrame name frame width height).2 := by
  have hcached := h.cached.showFrame name frame width height
  have hcached' := h.cached'.showFrame name frame width height
  suffices hsame : (∃ overlays, (c'.showFrame name frame width height).1
      = { (c.showFrame name frame width height).1 with overlays })
        ∧ (c'.showFrame name frame width height).2 = (c.showFrame name frame width height).2 from
    ⟨⟨hsame.1, hcached, hcached'⟩, hsame.2⟩
  rw [h.cached.showFrame_eq, h.cached'.showFrame_eq]
  obtain ⟨overlays, rfl⟩ := h.alike
  dsimp only
  split
  · exact ⟨⟨_, rfl⟩, rfl⟩
  · exact ⟨⟨_, rfl⟩, rfl⟩

theorem Twins.showTile (h : c.Twins c') (name : String) (width height : Nat) :
    (c.showTile name width height).1.Twins (c'.showTile name width height).1
      ∧ (c'.showTile name width height).2 = (c.showTile name width height).2 := by
  have hframe := h.showFrame name
  have hwall : c'.wall = c.wall ∧ c'.theme = c.theme := by
    obtain ⟨overlays, rfl⟩ := h.alike
    exact ⟨rfl, rfl⟩
  unfold Console.showTile
  rw [hwall.1, hwall.2]
  dsimp only
  split
  · exact ⟨h, rfl⟩
  · exact ⟨h, rfl⟩
  · exact ⟨h, rfl⟩
  · rename_i frame hoverlay hshown
    obtain ⟨htwins, hsame⟩ := hframe frame width height
    exact ⟨htwins, congrArg Content.picture hsame⟩

private theorem Twins.drawTile (h : c.Twins c') (b : Terminal.Buffer) (area : Terminal.Area)
    (name : String) (focused : Bool) :
    (c.drawTile b area name focused).1.Twins (c'.drawTile b area name focused).1
      ∧ (c'.drawTile b area name focused).2 = (c.drawTile b area name focused).2 := by
  have htile := h.showTile name
  have hwall : c'.wall = c.wall ∧ c'.theme = c.theme := by
    obtain ⟨overlays, rfl⟩ := h.alike
    exact ⟨rfl, rfl⟩
  unfold Console.drawTile
  rw [hwall.1, hwall.2]
  dsimp only
  split
  · exact ⟨h, rfl⟩
  · obtain ⟨htwins, hsame⟩ := htile (Terminal.pictureSize area.inner).1
      (Terminal.pictureSize area.inner).2
    exact ⟨htwins, congrArg (drawContent _ _) hsame⟩

/-- So it is with all tiles of a screen. -/
private theorem Twins.drawTiles (h : c.Twins c') (area : Terminal.Area)
    (names : List (String × Nat)) (b : Terminal.Buffer) :
    (drawTiles area names c b).1.Twins (drawTiles area names c' b).1
      ∧ (drawTiles area names c' b).2 = (drawTiles area names c b).2 := by
  induction names generalizing c c' b with
  | nil => exact ⟨h, rfl⟩
  | cons entry rest ih =>
      obtain ⟨name, i⟩ := entry
      have htile := h.drawTile
      have hsame : c'.wall = c.wall ∧ c'.cursor = c.cursor := by
        obtain ⟨overlays, rfl⟩ := h.alike
        exact ⟨rfl, rfl⟩
      unfold Console.drawTiles
      rw [hsame.1, hsame.2]
      dsimp only
      split
      · exact ⟨h, rfl⟩
      · rename_i cell hcell
        obtain ⟨htwins, hdrawn⟩ := htile b cell name (i == c.cursor)
        rw [hdrawn]
        exact ih htwins _

/-- What is drawn does not depend on which overlays are kept. -/
private theorem Twins.draw (h : c.Twins c') (now width height : Nat) :
    (c'.draw now width height).2 = (c.draw now width height).2 := by
  have hwall : ∀ b area, (c.drawWall b area).1.Twins (c'.drawWall b area).1
      ∧ (c'.drawWall b area).2 = (c.drawWall b area).2 := by
    intro b area
    have htiles := h.drawTiles area c.wall.visible.zipIdx b
    have hsame : c'.wall = c.wall ∧ c'.theme = c.theme ∧ c'.load = c.load := by
      obtain ⟨overlays, rfl⟩ := h.alike
      exact ⟨rfl, rfl, rfl⟩
    unfold drawWall
    rw [hsame.1, hsame.2.1, hsame.2.2]
    dsimp only
    split
    · exact ⟨h, rfl⟩
    · exact ⟨h, rfl⟩
    · split
      · exact ⟨h, rfl⟩
      · exact htiles
  have hheader : c'.header = c.header := by
    obtain ⟨overlays, rfl⟩ := h.alike
    rfl
  unfold Console.draw
  rw [hheader]
  dsimp only
  obtain ⟨htwins, hdrawn⟩ := hwall _ _
  obtain ⟨overlays, hover⟩ := htwins.alike
  rw [hdrawn, hover]

/-- What a live screen shows is painted afresh, as far as anybody can see. -/
structure ShowsAfresh (c : Console) (renderer : Overlay.Renderer) : Prop where
  /-- Where a tile shows a frame and is polled, what is kept as its overlay and
  laid over the frame is what would be painted on a blank canvas of the size
  of the tile, for the present viewport and the present detections. -/
  tile : ∀ name width height frame,
    (c.wall.players.element name).overlay = .none →
    (c.wall.players.element name).frame = some frame →
    c.wall.poller.isEnabled name = true →
    ∃ overlay, (c.showTile name width height).1.overlays.get? name = some overlay
      ∧ overlay.canvas
        = Overlay.repaint renderer (Canvas.blank width height)
            (displayViewport? frame.width frame.height width height)
            (c.wall.poller.feed name).detections
      ∧ (c.showTile name width height).2
        = .picture ((c.below name frame width height).composite overlay.canvas)
  /-- Every tile shows what it would show if no overlay had been kept, -/
  cacheless : ∀ name width height, (c.showTile name width height).2
    = (({ c with overlays := {} } : Console).showTile name width height).2
  /-- and so does the whole screen. -/
  screen : ∀ now width height, (c.draw now width height).2
    = (({ c with overlays := {} } : Console).draw now width height).2

/-- Overlays that are what they were painted for are shown as if painted
afresh. -/
private theorem Cached.showsAfresh (h : c.Cached) : c.ShowsAfresh c.renderer := by
  have htwins : c.Twins { c with overlays := {} } := by
    refine ⟨⟨{}, rfl⟩, h, ?_⟩
    intro name o ho
    cases ho
  refine ⟨fun name width height frame hoverlay hframe hpolled => ?_, fun name width height => ?_,
    fun now width height => ?_⟩
  · have hshown : c.showTile name width height
        = ((c.showFrame name frame width height).1,
            .picture (c.showFrame name frame width height).2) := by
      unfold Console.showTile
      dsimp only
      rw [hoverlay, hframe]
    rw [hshown, h.showFrame_eq, if_pos hpolled]
    exact ⟨_, ByName.get?_set_self _ _ _, rfl, rfl⟩
  · exact (htwins.showTile name width height).2.symm
  · exact (htwins.draw now width height).symm

-- ============================================================== histories

/-- Something that happens to a live screen, or something that is done to one
of its feeds by whoever it may be. -/
inductive Change where
  | event (event : Event)
  | feed (name : String) (deed : Feed.Deed)

namespace History

variable {h : History}

/-- The screen after a change. -/
def change (h : History) : Change → History
  | .event event => h.after event
  | .feed name deed =>
      let poller := h.console.wall.poller
      let feed := match deed with
        | .begin => (poller.feed name).begin
        | .finish => (poller.feed name).finish
        | .apply session outcome errors => ((poller.feed name).apply session outcome errors).1
      { h with console.wall.poller.feeds := poller.feeds.set name feed }

/-- Changes, one after the other. -/
def changes (h : History) (changes : List Change) : History := changes.foldl change h

/-- Every event keeps the overlays faithful. -/
theorem cached_after (h : History) (hc : h.console.Cached) (event : Event) :
    (h.after event).console.Cached := by
  cases event with
  | key now k => exact hc.operates (operates_press h.console now k)
  | reload => exact hc
  | loaded serial now outcome => exact hc.operates (operates_loaded h.console serial now outcome)
  | toast now severity message => exact hc
  | draw now width height =>
      obtain ⟨tiles, -, hdrawn⟩ := draw_eq h.console now width height
      have htiles := hc.showTiles tiles
      show (h.console.draw now width height).1.Cached
      rw [hdrawn]
      exact htiles
  | tile name width height =>
      unfold after
      dsimp only
      split
      · exact hc.showTile name width height
      · exact hc
  | playing a => exact hc
  | polling a => exact hc.grows (h.console.wall.poller.grows_act a) rfl fun _ _ ho => ho

/-- No change makes a kept overlay something else than it was painted for. -/
private theorem cached_change (h : History) (hc : h.console.Cached) (change : Change) :
    (h.change change).console.Cached := by
  cases change with
  | event event => exact h.cached_after hc event
  | feed name deed =>
      refine hc.grows ?_ rfl fun _ _ ho => ho
      refine Poller.grows_of_set ?_ rfl
      cases deed with
      | begin => exact Feed.grows_begin _
      | finish => exact Feed.grows_finish _
      | apply session outcome errors => exact Feed.grows_apply _ session outcome errors

/-- The colours are for good. -/
theorem renderer_after (h : History) (event : Event) :
    (h.after event).console.renderer = h.console.renderer := by
  cases event with
  | key now k => exact (operates_press h.console now k).renderer
  | loaded serial now outcome => exact (operates_loaded h.console serial now outcome).renderer
  | draw now width height =>
      obtain ⟨tiles, -, hdrawn⟩ := draw_eq h.console now width height
      exact (congrArg (·.renderer) hdrawn).trans (renderer_showTiles h.console tiles)
  | tile name width height =>
      unfold after
      dsimp only
      split
      · exact congrArg (·.renderer) (showTile_eq h.console name width height)
      · rfl
  | reload | toast | playing | polling => rfl

/-- Whatever changes there have been, the overlays are faithful, and the
colours are what they were. -/
private theorem cached_changes (h : History) (hc : h.console.Cached) (changes : List Change) :
    (h.changes changes).console.Cached
      ∧ (h.changes changes).console.renderer = h.console.renderer := by
  induction changes generalizing h with
  | nil => exact ⟨hc, rfl⟩
  | cons change later ih =>
      have hrenderer : (h.change change).console.renderer = h.console.renderer := by
        cases change with
        | event event => exact h.renderer_after event
        | feed name deed => rfl
      obtain ⟨hcached, hkept⟩ := ih (h.change change) (h.cached_change hc change)
      exact ⟨hcached, hkept.trans hrenderer⟩

/-- Whatever keys have been pressed, whichever lists have been loaded, of
whatever sizes tiles and frames have been, and whatever has been done to the
feeds, a live screen shows what is painted afresh. -/
theorem overlays_as_painted_afresh (client : Client) (theme : Theme) (font : Overlay.FontMetrics)
    (playing : Player.Settings) (supported : Bool) (polling : Polling.Settings) (view : Wall.View)
    (changes : List Change) :
    ((opened client theme font playing supported polling view).changes
      changes).console.ShowsAfresh ⟨theme.detections, font⟩ := by
  -- nothing is kept at first, so all that is kept is faithful
  have hopened : (opened client theme font playing supported polling view).console.Cached := by
    intro name o ho
    cases ho
  obtain ⟨hcached, hrenderer⟩ := cached_changes _ hopened changes
  have hafresh := hcached.showsAfresh
  rw [hrenderer] at hafresh
  exact hafresh

/-- A tile that is shown leaves the wall alone. -/
theorem wall_tile (h : History) (name : String) (width height : Nat) :
    (h.change (.event (.tile name width height))).console.wall = h.console.wall := by
  unfold change after
  dsimp only
  split
  · exact wall_showTile h.console name width height
  · rfl

/-- The gate, whose camera has a detector, comes on screen and shows a
frame. -/
def gateShows : List Change :=
  [ .event (.loaded 0 0 (.ok
      [{ name := "gate", detectionBasedRecording := true, detectionModel := "people" }])),
    .event (.playing (.signal "gate" ⟨.ok default, .ok 7⟩ 0 .begins)),
    .event (.playing (.write "gate" 7 1 (.frame 4 3 #[]))) ]

/-- Its tile is shown, a detection comes in, and the tile is shown again. -/
def gateIsSeen : List Change :=
  [ .event (.tile "gate" 8 8),
    .feed "gate" (.apply 1 (.ok [{ label := "person" }]) 0),
    .event (.tile "gate" 8 8) ]

/-- A screen with a gate, after some changes. -/
def gateScreen (changes : List Change) : History :=
  (opened ⟨default, none, 5000⟩ {} Overlay.labelFont {} true {} {}).changes changes

/-- The gate is polled, and its overlay is what is painted on a blank canvas.
-/
theorem overlay_of_gate :
    (gateScreen (gateShows ++ gateIsSeen)).console.wall.poller.isEnabled "gate" = true
      ∧ ∃ overlay,
          ((gateScreen (gateShows ++ gateIsSeen)).console.showTile "gate" 8 8).1.overlays.get?
            "gate" = some overlay
          ∧ overlay.canvas = Overlay.repaint ⟨Theme.greenOnBlack, Overlay.labelFont⟩
              (Canvas.blank 8 8) (displayViewport? 4 3 8 8)
              ((gateScreen (gateShows ++ gateIsSeen)).console.wall.poller.feed
                "gate").detections := by
  -- the tile and the feed leave players and tasks alone
  have hwall : (gateScreen (gateShows ++ gateIsSeen)).console.wall.players
        = (gateScreen gateShows).console.wall.players
      ∧ (gateScreen (gateShows ++ gateIsSeen)).console.wall.poller.tasks
        = (gateScreen gateShows).console.wall.poller.tasks := by
    have hlast := wall_tile (((gateScreen gateShows).change (.event (.tile "gate" 8 8))).change
      (.feed "gate" (.apply 1 (.ok [{ label := "person" }]) 0))) "gate" 8 8
    have hfirst := wall_tile (gateScreen gateShows) "gate" 8 8
    exact ⟨(congrArg (·.players) hlast).trans (congrArg (·.players) hfirst),
      (congrArg (·.poller.tasks) hlast).trans (congrArg (·.poller.tasks) hfirst)⟩
  have hpolled : (gateScreen (gateShows ++ gateIsSeen)).console.wall.poller.isEnabled "gate"
      = true := by
    unfold Poller.isEnabled
    rw [hwall.2]
    exact (Wall.Controller.isEnabled_reconcilePoller _ _ "gate").2 (by decide)
  have hoverlay : ((gateScreen (gateShows ++ gateIsSeen)).console.wall.players.element
      "gate").overlay = .none := by
    rw [hwall.1]
    decide
  have hframe : ((gateScreen (gateShows ++ gateIsSeen)).console.wall.players.element
      "gate").frame = some ⟨4, 3, 1, 1, #[]⟩ := by
    rw [hwall.1]
    decide
  have hafresh := overlays_as_painted_afresh ⟨default, none, 5000⟩ {} Overlay.labelFont {} true {}
    {} (gateShows ++ gateIsSeen)
  obtain ⟨overlay, hkept, hcanvas, -⟩ := hafresh.tile "gate" 8 8 _ hoverlay hframe hpolled
  exact ⟨hpolled, overlay, hkept, hcanvas⟩

end History

end VideoWall.Console
