/-
What is saved on a disk is there to be loaded.

A way that leads straight down is clear if at every place on it a directory is
or can be made (`IsClear`). On such a way all that is missing is made, and the
way can be followed afterwards (`makeAll_of_isClear`). So a file can be
written into a directory that is there, or whose way is clear, unless a
directory has its name or the system refuses it (`Admits.write`).

A document can be saved wherever a file can be put (`saveTo_eq_ok`), and when
it was saved it is loaded as what its text is read as, whatever stood at its
path before (`loadFrom_saveTo`).
-/
import VideoWall.Files.Document
import VideoWall.Proofs.Files.Disks
import VideoWall.Proofs.Text.Decoding

namespace VideoWall

namespace Disk

variable {d d' : Disk} {start place : Place} {names up : List String} {name directory : String}

-- ================================================================ clear ways

/-- Names without double dots lead straight down. -/
theorem foldl_step_of_down (h : ".." ∉ names) (start : Place) :
    names.foldl step start = start ++ names := by
  induction names generalizing start with
  | nil => exact (List.append_nil start).symm
  | cons name names ih =>
      rw [List.mem_cons, not_or] at h
      rw [List.foldl_cons, step_of_ne (Ne.symm h.1), ih h.2, List.append_assoc]
      rfl

/-- A directory is at a place, or it can be made there. -/
def IsOpen (d : Disk) (place : Place) : Prop :=
  d.node? place = some .directory ∨ (d.node? place = none ∧ d.refusal? place = none)

/-- Names lead straight down from a directory, and at every place on the way
a directory is or can be made. -/
structure IsClear (d : Disk) (start : Place) (names : List String) : Prop where
  begins : d.node? start = some .directory
  down : ".." ∉ names
  way : ∀ front, front <+: names → d.IsOpen (start ++ front)

/-- A way that is clear is clear up to any place on it. -/
private theorem IsClear.above (h : d.IsClear start (name :: up).reverse) :
    d.IsClear start up.reverse := by
  rw [List.reverse_cons] at h
  refine ⟨h.begins, fun hdots => h.down (List.mem_append_left _ hdots), fun front hfront => ?_⟩
  exact h.way front (hfront.trans (List.prefix_append _ _))

/-- On a clear way only what is missing can keep one from following it. -/
private theorem follow_of_isClear (h : d.IsClear start names) :
    d.follow start names = .ok (start ++ names) ∨ d.follow start names = .error .missing := by
  induction names generalizing start with
  | nil =>
      left
      rw [follow, enter, h.begins, List.append_nil]
  | cons name names ih =>
      have hname : name ≠ ".." := fun hdots => h.down (hdots ▸ List.mem_cons_self)
      rw [follow, enter, h.begins]
      dsimp only
      rw [step_of_ne hname]
      have hfirst := h.way [name] (List.prefix_append [name] names)
      rcases hfirst with hdirectory | ⟨hmissing, -⟩
      · have hrest : d.IsClear (start ++ [name]) names := by
          refine ⟨hdirectory, fun hdots => h.down (List.mem_cons_of_mem _ hdots),
            fun front hfront => ?_⟩
          rw [List.append_assoc]
          exact h.way (name :: front) (List.cons_prefix_cons.2 ⟨rfl, hfront⟩)
        have := ih hrest
        rwa [List.append_assoc] at this
      · right
        cases names with
        | nil => rw [follow, enter, hmissing]
        | cons other names => rw [follow, enter, hmissing]

-- ======================================================== making directories

/-- Names are followed over one more directory. -/
theorem follow_concat (hname : name ≠ "..") (habove : d.follow start names = .ok place)
    (hdirectory : d.node? (place ++ [name]) = some .directory) :
    d.follow start (names ++ [name]) = .ok (place ++ [name]) := by
  obtain ⟨hplace, hway⟩ := follow_eq_ok_iff.1 habove
  have hend : (names ++ [name]).foldl step start = place ++ [name] := by
    rw [List.foldl_append, hplace]
    exact step_of_ne hname
  refine follow_eq_ok_iff.2 ⟨hend, fun front hfront => ?_⟩
  rcases List.prefix_concat_iff.1 hfront with rfl | hfront
  · rw [hend, hdirectory]
  · exact hway front hfront

/-- A directory can be followed to after one was made where nothing was. -/
private theorem follow_put (h : d.follow start names = .ok place) {other : Place}
    (hmissing : d.node? other = none) :
    (d.put other .directory).follow start names = .ok place := by
  obtain ⟨hplace, hway⟩ := follow_eq_ok_iff.1 h
  refine follow_eq_ok_iff.2 ⟨hplace, fun front hfront => ?_⟩
  have hdirectory := hway front hfront
  refine (if_neg ?_).trans hdirectory
  rintro rfl
  rw [hmissing] at hdirectory
  cases hdirectory

/-- An open place is a directory when one was to be made there. -/
private theorem makeDirectory_of_isOpen (hname : name ≠ "..")
    (habove : d.follow start up.reverse = .ok place) (hopen : d.IsOpen (place ++ [name])) :
    (∃ d', d.makeDirectory start name up = .ok d'
        ∧ d'.follow start (name :: up).reverse = .ok (place ++ [name]))
      ∨ (d.makeDirectory start name up = .error .taken
        ∧ d.follow start (name :: up).reverse = .ok (place ++ [name])) := by
  rw [makeDirectory, habove, List.reverse_cons]
  dsimp only
  rcases hopen with hdirectory | ⟨hmissing, hallowed⟩
  · refine .inr ⟨if_pos (.inr ?_), follow_concat hname habove hdirectory⟩
    rw [hdirectory]
    rfl
  · have hmade : (d.put (place ++ [name]) .directory).node? (place ++ [name])
        = some .directory := if_pos rfl
    refine .inl ⟨_, ?_, follow_concat hname (follow_put habove hmissing) hmade⟩
    rw [if_neg (by simp [hname, hmissing]), hallowed]

/-- Making directories leaves open places open. -/
private theorem OnlyMakes.isOpen (h : OnlyMakes start names d d') (hopen : d.IsOpen place) :
    d'.IsOpen place := by
  rw [IsOpen, h.refusal]
  rcases h.node place with hsame | ⟨-, hdirectory, -⟩
  · rwa [hsame]
  · exact .inl hdirectory

/-- On a clear way all directories are made. -/
private theorem makeAll_of_isClear (h : d.IsClear start up.reverse) :
    (d.makeAll start up).2 = .ok ()
      ∧ (d.makeAll start up).1.follow start up.reverse = .ok (start ++ up.reverse) := by
  induction up with
  | nil =>
      refine ⟨rfl, ?_⟩
      rw [makeAll, List.reverse_nil, follow, enter, h.begins, List.append_nil]
  | cons name up ih =>
      have hname : name ≠ ".." := fun hdots => h.down (by simp [hdots])
      have hopen : d.IsOpen (start ++ up.reverse ++ [name]) := by
        have hlast := h.way _ List.prefix_rfl
        rwa [List.reverse_cons, ← List.append_assoc] at hlast
      have hplace : start ++ (name :: up).reverse = start ++ up.reverse ++ [name] := by
        rw [List.reverse_cons, List.append_assoc]
      rw [hplace, makeAll]
      -- the directory above is there already, or it has to be made first
      rcases follow_of_isClear h.above with habove | hmissing
      · rcases makeDirectory_of_isOpen hname habove hopen with
          ⟨d', hmake, hfollow⟩ | ⟨hmake, hfollow⟩
        · rw [hmake]
          exact ⟨rfl, hfollow⟩
        · rw [hmake]
          exact ⟨if_pos (leadsToDirectory_iff.2 ⟨_, hfollow⟩), hfollow⟩
      · have hfirst : d.makeDirectory start name up = .error .missing := by
          rw [makeDirectory, hmissing]
        obtain ⟨hdone, habove⟩ := ih h.above
        have hmakes := makeAll_onlyMakes d start up
        rcases hall : d.makeAll start up with ⟨made, outcome⟩
        rw [hall] at hdone habove hmakes
        obtain rfl : outcome = .ok () := hdone
        rw [hfirst]
        dsimp only
        rcases makeDirectory_of_isOpen hname habove (hmakes.isOpen hopen) with
          ⟨d', hmake, hfollow⟩ | ⟨hmake, hfollow⟩
        · rw [hmake]
          exact ⟨rfl, hfollow⟩
        · rw [hmake]
          exact ⟨if_pos (leadsToDirectory_iff.2 ⟨_, hfollow⟩), hfollow⟩

-- ============================================================= writing files

/-- What is on the way to a directory is not below it. -/
private theorem not_isOnWay_below (hdown : ".." ∉ names) (name : String) :
    ¬ IsOnWay start names (start ++ names ++ [name]) := by
  rintro ⟨front, hfront, hplace⟩
  rw [foldl_step_of_down (fun hdots => hdown (hfront.subset hdots))] at hplace
  have hlength := congrArg List.length hplace
  have hle := hfront.length_le
  simp only [List.length_append, List.length_singleton] at hlength
  omega

/-- A file of a name can be put into a directory: the directory is there or
its way is clear, no directory has the name of the file, and the system does
not refuse it. -/
structure Admits (d : Disk) (directory name : String) : Prop where
  way : d.leadsToDirectory (d.startOf directory) (namesOf directory) = true
    ∨ d.IsClear (d.startOf directory) (namesOf directory)
  free : d.node? (d.placeOf directory ++ [name]) ≠ some .directory
  allowed : d.refusal? (d.placeOf directory ++ [name]) = none

/-- The directory is made, and then the file is written. -/
private theorem Admits.write (h : d.Admits directory name) (hname : IsPart name)
    (bytes : List UInt8) : ∃ made after, d.makeParent (Files.below directory name) = (made, .ok ())
      ∧ made.write (Files.below directory name) bytes = .ok after := by
  rw [makeParent_below d hname]
  rcases h.way with hthere | hclear
  · obtain ⟨place, hfollow⟩ := leadsToDirectory_iff.1 hthere
    exact ⟨d, _, makeAll_of_follow (by rwa [List.reverse_reverse]),
      write_below_of_follow hname hfollow h.free h.allowed bytes⟩
  · obtain ⟨hdone, hfollow⟩ := @makeAll_of_isClear d (d.startOf directory)
      (namesOf directory).reverse (by rwa [List.reverse_reverse])
    have hmakes := makeAll_onlyMakes d (d.startOf directory) (namesOf directory).reverse
    rw [List.reverse_reverse] at hfollow hmakes
    rcases hall : d.makeAll (d.startOf directory) (namesOf directory).reverse with ⟨made, outcome⟩
    rw [hall] at hdone hfollow hmakes
    obtain rfl : outcome = .ok () := hdone
    have hstart : made.startOf directory = d.startOf directory := by
      rw [startOf, startOf, hmakes.here]
    have hplace : made.placeOf directory = d.placeOf directory := by
      rw [placeOf, placeOf, hstart]
    -- making directories adds them on the way only, and the file is not on it
    have hdown : d.placeOf directory = d.startOf directory ++ namesOf directory :=
      foldl_step_of_down hclear.down _
    have hfree : made.node? (made.placeOf directory ++ [name]) ≠ some .directory := by
      rw [hplace]
      rcases hmakes.node (d.placeOf directory ++ [name]) with hsame | ⟨-, -, honWay⟩
      · rw [hsame]
        exact h.free
      · rw [hdown] at honWay
        exact absurd honWay (not_isOnWay_below hclear.down name)
    have hallowed : made.refusal? (made.placeOf directory ++ [name]) = none := by
      rw [hplace, hmakes.refusal]
      exact h.allowed
    rw [← hstart] at hfollow
    exact ⟨made, _, rfl, write_below_of_follow hname hfollow hfree hallowed bytes⟩

end Disk

namespace Files.Document

open Disk

variable {α : Type} {d : Document α} {disk : Disk} {path directory name : String} {a : α}
variable {text : List Char}

/-- A text that can be parsed is what the document holds. -/
theorem contents_of_parse (h : d.parse text = .ok a) (path : String) :
    d.contents path text = .ok a := by
  rw [contents, h]
  rfl

-- ======================================================= saving and loading

/-- A file that holds a text is read as that text. -/
theorem loadFrom_of_find (h : disk.find path = .ok (.file (Text.Utf8.encode text))) :
    d.loadFrom disk path = d.contents path text := by
  rw [loadFrom, h]
  dsimp only
  rw [Text.Utf8.decode?_encode]

/-- What was saved is found as the bytes of its text. -/
private theorem find_saveTo (h : (d.saveTo disk path a).2 = .ok ()) :
    (d.saveTo disk path a).1.find path
      = .ok (.file (Text.Utf8.encode (d.render a).toList)) := by
  rw [saveTo] at h ⊢
  rcases hmade : disk.makeParent path with ⟨made, _ | done⟩
  · rw [hmade] at h
    cases h
  · rw [hmade] at h
    dsimp only at h ⊢
    cases hwrite : made.write path (Text.Utf8.encode (d.render a).toList) with
    | error f =>
        rw [hwrite] at h
        cases h
    | ok after => exact find_of_write hwrite

/-- What was saved is loaded. -/
theorem loadFrom_saveTo (h : (d.saveTo disk path a).2 = .ok ()) :
    d.loadFrom (d.saveTo disk path a).1 path = d.contents path (d.render a).toList :=
  loadFrom_of_find (find_saveTo h)

/-- A document can be saved in a directory that admits a file of its name. -/
theorem saveTo_eq_ok (h : disk.Admits directory name) (hname : IsPart name) :
    (d.saveTo disk (Files.below directory name) a).2 = .ok () := by
  obtain ⟨made, after, hmade, hwrite⟩ :=
    h.write hname (Text.Utf8.encode (d.render a).toList)
  rw [saveTo, hmade]
  dsimp only
  rw [hwrite]

end Files.Document

end VideoWall
