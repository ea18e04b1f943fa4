/-
What the user looks at: layout, selection, page, and whether detections
are shown. All of it is remembered between runs, in a small file in which
every field may be missing.
-/
import VideoWall.Wall.Layout

namespace VideoWall.Wall

open Json

/-- A view of the wall. Pages count from nought. -/
structure View where
  layout : Layout := .count 4
  page : Nat := 0
  selected : Option String := none
  showDetections : Bool := true
  deriving DecidableEq, Repr, Inhabited

/-- What is remembered of a view. -/
structure Preferences where
  layout : Layout := .count 4
  page : Nat := 0
  selected : Option String := none
  showDetections : Bool := true
  deriving DecidableEq, Repr, Inhabited

namespace Preferences

/-- What is to be remembered of a view. -/
def ofView (v : View) : Preferences where
  layout := v.layout
  page := v.page
  selected := v.selected
  showDetections := v.showDetections

/-- The view that is remembered. -/
def view (p : Preferences) : View where
  layout := p.layout
  page := p.page
  selected := p.selected
  showDetections := p.showDetections

/-- Preferences made of a view give the view back. -/
@[simp]
theorem view_ofView (v : View) : (ofView v).view = v := rfl

/-- The view of preferences makes the preferences. -/
@[simp]
theorem ofView_view (p : Preferences) : ofView p.view = p := rfl

/-- How deep a value beside the mode of a layout may be nested: the preferences
and the layout around it are two levels. -/
def layoutDepth : Nat := maxDepth - 2

/-- How preferences are read. Fields that are missing are as in a first run. -/
def reading : Record Preferences where
  name := "UiPrefs"
  initial := {}
  fields :=
    [ field "layout" .keeps (Layout.decode layoutDepth) fun v p => { p with layout := v },
      field "page" .keeps (decodeNat 64 "usize") fun v p => { p with page := v },
      field "selected" .keeps (decodeOption decodeText) fun v p => { p with selected := v },
      field "show_detections" .keeps decodeBool fun v p => { p with showDetections := v } ]

/-- Preferences as a JSON value. -/
def toJson (p : Preferences) : Value :=
  .object
    [ ("layout", p.layout.toJson),
      ("page", .nat p.page),
      ("selected", .ofOption .text p.selected),
      ("show_detections", .bool p.showDetections) ]

/-- Reads preferences. -/
def parse (s : List Char) : Except Error Preferences := Json.decode reading.decode s

/-- Preferences as they are written to a file. -/
def render (p : Preferences) : String := p.toJson.pretty

end Preferences

end VideoWall.Wall
