/-
The view that is remembered.

What is remembered of a view is saved as an object of four members, one for
each of its fields. Each of them is taken by its field from every text that
spells it, so that the preferences are read back from their text, and from every
text in which some of the members are left out with the defaults there
(`Preferences.parse_of_spells`). That holds of every view whose numbers are
words, and of whatever name is selected.
-/
import VideoWall.Proofs.Files.Documents
import VideoWall.Proofs.Json.Spellings
import VideoWall.Proofs.Wall.Accepted

namespace VideoWall.Wall

open Json Numeral

variable {layout : Layout} {p : Preferences} {columns rows streams depth : Nat} {text : List Char}

-- ================================================================ layouts

namespace Layout

theorem takes_word {n : Nat} (h : n ≤ maxWord64) : (decodeNat 64 "usize").Takes (.nat n) n :=
  takes_nat "usize" (Nat.lt_succ_of_le h)

/-- A count is read as it is written. -/
private theorem ofValue_countReading (h : streams ≤ maxWord64) :
    countReading.ofValue (.object [("streams", .nat streams)]) = .ok streams := by
  refine Record.ofValue_object 1 (Record.takes_decode (fun _ _ => streams) ?_ (by simp) ?_) rfl
  · intro m hm
    obtain rfl := List.mem_singleton.1 hm
    exact Record.takes_field (fun v _ => v) (takes_word h) rfl
  · simp [countReading, field]

/-- What a member of a custom layout changes. -/
def copy (columns rows : Nat) (m : String × Value) (size : Nat × Nat) : Nat × Nat :=
  if m.1 = "columns" then (columns, size.2) else (size.1, rows)

/-- Columns and rows are read as they are written. -/
private theorem ofValue_customReading (hcolumns : columns ≤ maxWord64) (hrows : rows ≤ maxWord64) :
    customReading.ofValue (.object [("columns", .nat columns), ("rows", .nat rows)])
      = .ok (columns, rows) := by
  refine Record.ofValue_object 1 (Record.takes_decode (copy columns rows) ?_ (by simp) ?_) rfl
  · simp only [List.forall_mem_cons]
    refine ⟨?_, ?_, by simp⟩
    · exact Record.takes_field (fun v s => (v, s.2)) (takes_word hcolumns) rfl
    · exact Record.takes_field (fun v s => (s.1, v)) (takes_word hrows) rfl
  · simp [customReading, field]

/-- A layout is taken for itself. Its mode comes first and tells how the other
members are read. -/
private theorem takes_decode (h : layout.InWords) (depth : Nat) :
    Decoder.Takes (decode depth) layout.toJson layout := by
  intro outer node hnode
  cases layout with
  | single =>
      obtain _ | _ | _ | _ | _ | ⟨start, hmembers⟩ := Node.shows hnode
      obtain _ | ⟨_, _, _, hmode, hend⟩ := Members.shows hmembers
      cases Node.shows hmode
      cases Members.shows hend
      rfl
  | count streams =>
      obtain _ | _ | _ | _ | _ | ⟨start, hmembers⟩ := Node.shows hnode
      obtain _ | ⟨_, _, _, hmode, hothers⟩ := Members.shows hmembers
      obtain _ | ⟨_, _, _, hstreams, hend⟩ := Members.shows hothers
      cases Node.shows hmode
      cases Node.shows hstreams
      cases Members.shows hend
      change (countReading.ofValue (.object [("streams", .nat streams)])).map Layout.count = _
      rw [ofValue_countReading h]
      rfl
  | custom columns rows =>
      obtain _ | _ | _ | _ | _ | ⟨start, hmembers⟩ := Node.shows hnode
      obtain _ | ⟨_, _, _, hmode, hothers⟩ := Members.shows hmembers
      obtain _ | ⟨_, _, _, hcolumns, hlast⟩ := Members.shows hothers
      obtain _ | ⟨_, _, _, hrows, hend⟩ := Members.shows hlast
      cases Node.shows hmode
      cases Node.shows hcolumns
      cases Node.shows hrows
      cases Members.shows hend
      change (customReading.ofValue
        (.object [("columns", .nat columns), ("rows", .nat rows)])).map _ = _
      rw [ofValue_customReading h.1 h.2]
      rfl

/-- The text of a layout with every member on its line. -/
private theorem spells_toJson (h : layout.InWords) (level : Nat) :
    Spells (depth + 1) layout.toJson (layout.toJson.renderPretty level) := by
  cases layout with
  | single =>
      refine spells_pretty ?_
      simp only [List.forall_mem_cons]
      exact ⟨.text _ _, by simp⟩
  | count streams =>
      refine spells_pretty ?_
      simp only [List.forall_mem_cons]
      exact ⟨.text _ _, .nat _ h, by simp⟩
  | custom columns rows =>
      refine spells_pretty ?_
      simp only [List.forall_mem_cons]
      exact ⟨.text _ _, .nat _ h.1, .nat _ h.2, by simp⟩

end Layout

-- ============================================================ preferences

namespace Preferences

/-- The members that preferences are written as. -/
def members (p : Preferences) : List (String × Value) :=
  match p.toJson with
  | .object members => members
  | _ => []

/-- The members that are left when those of some names are dropped. -/
def kept (p : Preferences) (dropped : List String) : List (String × Value) :=
  p.members.filter fun m => m.1 ∉ dropped

/-- Preferences with the defaults in the fields of some names. -/
def without (p : Preferences) (dropped : List String) : Preferences where
  layout := if "layout" ∈ dropped then ({} : Preferences).layout else p.layout
  page := if "page" ∈ dropped then ({} : Preferences).page else p.page
  selected := if "selected" ∈ dropped then ({} : Preferences).selected else p.selected
  showDetections :=
    if "show_detections" ∈ dropped then ({} : Preferences).showDetections else p.showDetections

/-- Others with the field of a member as in `p`. -/
def copy (p : Preferences) (m : String × Value) (q : Preferences) : Preferences :=
  if m.1 = "layout" then { q with layout := p.layout }
  else if m.1 = "page" then { q with page := p.page }
  else if m.1 = "selected" then { q with selected := p.selected }
  else { q with showDetections := p.showDetections }

/-- Each member is taken by the field of its name. -/
private theorem takes_member (h : p.view.InWords) :
    ∀ m ∈ p.members, reading.Takes m (p.copy m) := by
  have hselected : (decodeOption decodeText).Takes (.ofOption .text p.selected) p.selected :=
    takes_option (takes_text _) (fun _ => nofun) _
  simp only [members, toJson, List.forall_mem_cons]
  refine ⟨?_, ?_, ?_, ?_, by simp⟩
  · exact Record.takes_field (fun (l : Layout) (q : Preferences) => { q with layout := l })
      (Layout.takes_decode h.layout layoutDepth) rfl
  · exact Record.takes_field (fun (n : Nat) (q : Preferences) => { q with page := n })
      (Layout.takes_word h.page) rfl
  · exact Record.takes_field (fun (s : Option String) (q : Preferences) => { q with selected := s })
      hselected rfl
  · exact Record.takes_field (fun (b : Bool) (q : Preferences) => { q with showDetections := b })
      (takes_bool _) rfl

/-- The members that are kept put in their fields, and the defaults stay in
the others. -/
private theorem foldl_copy_kept (p : Preferences) (dropped : List String) :
    (p.kept dropped).foldl (fun q m => p.copy m q) {} = p.without dropped := by
  by_cases hlayout : "layout" ∈ dropped
  all_goals by_cases hpage : "page" ∈ dropped
  all_goals by_cases hselected : "selected" ∈ dropped
  all_goals by_cases hshow : "show_detections" ∈ dropped
  all_goals simp [kept, members, toJson, without, copy, hlayout, hpage, hselected, hshow]

/-- Preferences are read with defaults for what is left out. -/
private theorem takes_kept (h : p.view.InWords) (dropped : List String) :
    Decoder.Takes reading.decode (.object (p.kept dropped)) (p.without dropped) := by
  rw [← foldl_copy_kept]
  refine Record.takes_decode p.copy (fun m hm => takes_member h m (List.mem_of_mem_filter hm)) ?_ ?_
  · refine List.Nodup.sublist (List.filter_sublist.map _) (?_ : (p.members.map (·.1)).Nodup)
    simp [members, toJson]
  · simp [reading, field]

/-- Every text of the members that are kept is read with the defaults in the
fields of the others. -/
theorem parse_of_spells (h : p.view.InWords) {dropped : List String} (front back : Gap)
    (htext : Spells depth (.object (p.kept dropped)) text) :
    parse (front.chars ++ text ++ back.chars) = .ok (p.without dropped) := by
  obtain ⟨node, hnode, hdecode⟩ := exists_outline htext front back
  rw [parse, hdecode]
  exact takes_kept h dropped depth node hnode

/-- Preferences are spelled as they are rendered. -/
private theorem spells_kept (h : p.view.InWords) (dropped : List String) (depth : Nat) :
    Spells (depth + 2) (.object (p.kept dropped))
      ((Value.object (p.kept dropped)).renderPretty 0) := by
  have hmembers : ∀ m ∈ p.members, Spells (depth + 1) m.2 (m.2.renderPretty 1) := by
    simp only [members, toJson, List.forall_mem_cons]
    refine ⟨Layout.spells_toJson h.layout 1, .nat _ h.page, ?_, ?_, by simp⟩
    · cases p.selected with
      | none => exact .null _
      | some s => exact .text _ s
    · cases p.showDetections with
      | false => exact .bool _ false
      | true => exact .bool _ true
  exact spells_pretty fun m hm => hmembers m (List.mem_of_mem_filter hm)

/-- The text that is saved, without the members of some names. -/
def textWithout (p : Preferences) (dropped : List String) : String :=
  (Value.object (p.kept dropped)).pretty

/-- A text with fields left out is parsed with defaults for them. -/
theorem parse_textWithout (h : p.view.InWords) (dropped : List String) :
    parse (p.textWithout dropped).toList = .ok (p.without dropped) := by
  have hparse := parse_of_spells h .none .none (spells_kept h dropped 0)
  rw [textWithout, Value.pretty, String.toList_ofList]
  simpa [Gap.none] using hparse

theorem textWithout_nil (p : Preferences) : p.textWithout [] = p.render := by
  simp [textWithout, kept, render, members, toJson]

theorem without_nil (p : Preferences) : p.without [] = p := by
  simp [without]

/-- Rendered preferences are parsed as they were. -/
private theorem parse_render (h : p.view.InWords) : parse p.render.toList = .ok p := by
  rw [← textWithout_nil, parse_textWithout h, without_nil]

end Preferences

-- ============================================================= the theorem

private theorem parse_preferences : Files.preferences.parse = Preferences.parse := rfl

private theorem render_preferences : Files.preferences.render = Preferences.render := rfl

/-- A view comes back. When what is to be remembered of it has been saved at a
path of a disk, whatever stood there, and is loaded from there, the view that is
remembered is this one; and it can be saved wherever a file can be put. When
members of its text are dropped, the text that is left, and every other text of
the members that are left, is read with the defaults in the fields of these
members; and the view of a file that holds such a text is remembered so. -/
structure ComesBack (v : View) : Prop where
  loaded : ∀ (disk : Disk) (path : String),
    (Files.preferences.saveTo disk path (.ofView v)).2 = .ok () →
    (Files.preferences.loadFrom (Files.preferences.saveTo disk path (.ofView v)).1 path).map
      Preferences.view = .ok v
  saved : ∀ (disk : Disk) (directory name : String), Disk.IsPart name →
    disk.Admits directory name →
    (Files.preferences.saveTo disk (Files.below directory name) (.ofView v)).2 = .ok ()
  dropped : ∀ dropped : List String,
    Preferences.parse ((Preferences.ofView v).textWithout dropped).toList
      = .ok ((Preferences.ofView v).without dropped)
  spelled : ∀ (dropped : List String) (depth : Nat) (front back : Gap) (text : List Char),
    Spells depth (.object ((Preferences.ofView v).kept dropped)) text →
    Preferences.parse (front.chars ++ text ++ back.chars)
      = .ok ((Preferences.ofView v).without dropped)
  found : ∀ (dropped : List String) (disk : Disk) (path : String) (text : List Char),
    Preferences.parse text = .ok ((Preferences.ofView v).without dropped) →
    disk.find path = .ok (.file (Text.Utf8.encode text)) →
    (Files.preferences.loadFrom disk path).map Preferences.view
      = .ok ((Preferences.ofView v).without dropped).view

/-- Every view whose numbers are words comes back. -/
theorem view_comes_back (v : View) (h : v.InWords) : ComesBack v where
  loaded disk path hsaved := by
    have hparse : Files.preferences.parse (Files.preferences.render (.ofView v)).toList
        = .ok (.ofView v) := by
      rw [parse_preferences, render_preferences, Preferences.parse_render (p := .ofView v) h]
    rw [Files.Document.loadFrom_saveTo hsaved, Files.Document.contents_of_parse hparse path,
      Except.map, Preferences.view_ofView]
  saved disk directory name hname hadmits := Files.Document.saveTo_eq_ok hadmits hname
  dropped := Preferences.parse_textWithout h
  spelled dropped depth front back text :=
    Preferences.parse_of_spells (p := .ofView v) h front back
  found dropped disk path text hread hfound := by
    have hparse : Files.preferences.parse text = .ok ((Preferences.ofView v).without dropped) := by
      rw [parse_preferences, hread]
    rw [Files.Document.loadFrom_of_find hfound, Files.Document.contents_of_parse hparse path,
      Except.map]

/-- A disk with nothing on it. -/
def bareDisk : Disk where
  node? place := if place = [] then some .directory else none

/-- A selected name with quotes, a line break and characters of every size. -/
def yard : View where
  layout := .custom 3 2
  page := 1
  selected := some "Höf \"2\"\n\x01 € 😀"
  showDetections := false

private theorem bareDisk_admits : bareDisk.Admits "/nested" "ui_prefs.json" := by
  have hnames : Disk.namesOf "/nested" = ["nested"] := by decide +kernel
  refine ⟨.inr ⟨rfl, ?_, fun front hfront => ?_⟩, by decide +kernel, rfl⟩
  · rw [hnames]
    decide
  · rw [hnames, List.prefix_cons_iff] at hfront
    obtain rfl | ⟨rest, rfl, hrest⟩ := hfront
    · exact .inl rfl
    · obtain rfl := List.prefix_nil.1 hrest
      exact .inr ⟨rfl, rfl⟩

theorem view_comes_back_of_yard :
    yard.InWords
      ∧ (Files.preferences.loadFrom
          (Files.preferences.saveTo bareDisk "/nested/ui_prefs.json" (.ofView yard)).1
          "/nested/ui_prefs.json").map Preferences.view = .ok yard
      ∧ Preferences.parse ((Preferences.ofView yard).textWithout ["page", "selected"]).toList
          = .ok ⟨.custom 3 2, 0, none, false⟩ := by
  have hwords : yard.InWords := ⟨⟨by decide, by decide⟩, by decide⟩
  have hback := view_comes_back yard hwords
  have hpath : Files.below "/nested" "ui_prefs.json" = "/nested/ui_prefs.json" := by
    decide +kernel
  have hsaved := hback.saved bareDisk "/nested" "ui_prefs.json"
    ⟨by decide, by decide, by decide, by decide⟩ bareDisk_admits
  rw [hpath] at hsaved
  have hloaded := hback.loaded bareDisk "/nested/ui_prefs.json" hsaved
  exact ⟨hwords, hloaded, hback.dropped ["page", "selected"]⟩

end VideoWall.Wall
