/-
What making directories and writing files leaves alone.

Making a directory with all that is missing on the way to it changes nothing
but places on that way where nothing was, and these become directories
(`makeAll_onlyMakes`). What was written at a path is found there
(`find_of_write`). A path below a directory that ends in a single name is
in that directory (`makeParent_below`) and leads to a place just below it
(`write_below_eq_ok`).
-/
import VideoWall.Files.Disk
import VideoWall.Proofs.Text.Lines

namespace VideoWall.Disk

open Text

variable {d d' d'' : Disk} {start place : Place} {names up : List String} {name directory : String}
variable {path : String} {bytes : List UInt8}

-- =================================================================== following

theorem step_of_ne (h : name ≠ "..") : step place name = place ++ [name] := if_neg h

/-- A directory can be entered, and nothing else. -/
theorem enter_eq_ok_iff {found : Place} :
    d.enter place = .ok found ↔ found = place ∧ d.node? place = some .directory := by
  rw [enter]
  cases d.node? place with
  | none => simp
  | some n => cases n <;> simp [eq_comm]

/-- Following names comes to the place that they lead to, over directories
only. -/
theorem follow_eq_ok_iff :
    d.follow start names = .ok place ↔ names.foldl step start = place
      ∧ ∀ front, front <+: names → d.node? (front.foldl step start) = some .directory := by
  induction names generalizing start with
  | nil =>
      rw [follow, enter_eq_ok_iff]
      simp [eq_comm]
  | cons name names ih =>
      rw [follow]
      cases hstart : d.enter start with
      | error f =>
          simp only [reduceCtorEq, false_iff]
          rintro ⟨-, hway⟩
          have hstands : d.enter start = .ok start :=
            enter_eq_ok_iff.2 ⟨rfl, hway [] List.nil_prefix⟩
          rw [hstart] at hstands
          cases hstands
      | ok found =>
          obtain ⟨rfl, hdirectory⟩ := enter_eq_ok_iff.1 hstart
          dsimp only
          rw [ih, List.foldl_cons]
          refine and_congr_right fun _ => ⟨?_, ?_⟩
          · rintro hway (_ | ⟨first, front⟩) hbefore
            · exact hdirectory
            · obtain ⟨rfl, hfront⟩ := List.cons_prefix_cons.1 hbefore
              exact hway front hfront
          · intro hway front hbefore
            exact hway (name :: front) (List.cons_prefix_cons.2 ⟨rfl, hbefore⟩)

/-- Names lead to a directory if they can be followed. -/
theorem leadsToDirectory_iff :
    d.leadsToDirectory start names = true ↔ ∃ place, d.follow start names = .ok place := by
  rw [leadsToDirectory]
  cases d.follow start names <;> simp [Except.isOk, Except.toBool]

-- ============================================================ making directories

/-- A place that names come through on their way. -/
def IsOnWay (start : Place) (names : List String) (place : Place) : Prop :=
  ∃ front, front <+: names ∧ front.foldl step start = place

/-- Nothing is changed but that directories are made on the way of names,
where nothing was. -/
structure OnlyMakes (start : Place) (names : List String) (d d' : Disk) : Prop where
  node : ∀ place, d'.node? place = d.node? place
    ∨ (d.node? place = none ∧ d'.node? place = some .directory ∧ IsOnWay start names place)
  here : d'.here = d.here
  refusal : d'.refusal? = d.refusal?

theorem OnlyMakes.refl (start : Place) (names : List String) (d : Disk) :
    OnlyMakes start names d d :=
  ⟨fun _ => .inl rfl, rfl, rfl⟩

/-- What was made is a directory where there was nothing. -/
private theorem makeDirectory_eq_ok (h : d.makeDirectory start name up = .ok d') :
    name ≠ ".." ∧ d.node? ((up.reverse ++ [name]).foldl step start) = none
      ∧ d' = d.put ((up.reverse ++ [name]).foldl step start) .directory := by
  rw [makeDirectory] at h
  cases habove : d.follow start up.reverse with
  | error f =>
      rw [habove] at h
      cases h
  | ok above =>
      rw [habove] at h
      dsimp only at h
      split_ifs at h with hstands
      rw [not_or, Option.not_isSome_iff_eq_none] at hstands
      have hplace : (up.reverse ++ [name]).foldl step start = above ++ [name] := by
        rw [List.foldl_append, (follow_eq_ok_iff.1 habove).1]
        exact step_of_ne hstands.1
      cases hrefusal : d.refusal? (above ++ [name]) with
      | some reason =>
          rw [hrefusal] at h
          cases h
      | none =>
          rw [hrefusal] at h
          rw [hplace]
          exact ⟨hstands.1, hstands.2, (Except.ok.inj h).symm⟩

/-- A way goes on. -/
theorem OnlyMakes.cons (h : OnlyMakes start up.reverse d d') (name : String) :
    OnlyMakes start (name :: up).reverse d d' := by
  refine ⟨fun place => (h.node place).imp_right ?_, h.here, h.refusal⟩
  rintro ⟨hmissing, hnew, front, hbefore, hfront⟩
  refine ⟨hmissing, hnew, front, hbefore.trans ?_, hfront⟩
  rw [List.reverse_cons]
  exact List.prefix_append _ _

/-- One more directory is made at the end of a way. -/
private theorem OnlyMakes.makeDirectory (h : OnlyMakes start up.reverse d d')
    (hmade : d'.makeDirectory start name up = .ok d'') :
    OnlyMakes start (name :: up).reverse d d'' := by
  obtain ⟨-, hnothing, rfl⟩ := makeDirectory_eq_ok hmade
  rw [← List.reverse_cons] at hnothing ⊢
  refine ⟨fun place => ?_, h.here, h.refusal⟩
  by_cases hplace : place = (name :: up).reverse.foldl step start
  · right
    refine ⟨?_, if_pos hplace, (name :: up).reverse, List.prefix_rfl, hplace.symm⟩
    rcases h.node place with hsame | ⟨hmissing, -, -⟩
    · rw [← hsame, hplace, hnothing]
    · exact hmissing
  · have hput : ∀ n, (d'.put ((name :: up).reverse.foldl step start) n).node? place
        = d'.node? place := fun _ => if_neg hplace
    rw [hput]
    exact (h.cons name).node place

/-- Directories are made on the way to one, and nothing else is changed. -/
theorem makeAll_onlyMakes (d : Disk) (start : Place) (names : List String) :
    OnlyMakes start names.reverse d (d.makeAll start names).1 := by
  induction names with
  | nil => exact .refl ..
  | cons name up ih =>
      rw [makeAll]
      cases hfirst : d.makeDirectory start name up with
      | ok made => exact (OnlyMakes.refl ..).makeDirectory hfirst
      | error f =>
          cases f with
          | missing =>
              dsimp only
              rcases hup : d.makeAll start up with ⟨made, outcome⟩
              rw [hup] at ih
              cases outcome with
              | error f => exact ih.cons name
              | ok done =>
                  dsimp only
                  cases hsecond : made.makeDirectory start name up with
                  | ok made' => exact ih.makeDirectory hsecond
                  | error f => exact ih.cons name
          | notDirectory => exact .refl ..
          | taken => exact .refl ..
          | isDirectory => exact .refl ..
          | refused reason => exact .refl ..

/-- A directory that is there is not made. -/
theorem makeAll_of_follow (h : d.follow start names.reverse = .ok place) :
    d.makeAll start names = (d, .ok ()) := by
  cases names with
  | nil => rfl
  | cons name up =>
      have hleads : d.leadsToDirectory start (name :: up).reverse = true :=
        leadsToDirectory_iff.2 ⟨place, h⟩
      obtain ⟨-, hway⟩ := follow_eq_ok_iff.1 h
      have habove : d.follow start up.reverse = .ok (up.reverse.foldl step start) := by
        refine follow_eq_ok_iff.2 ⟨rfl, fun front hbefore => hway front (hbefore.trans ?_)⟩
        rw [List.reverse_cons]
        exact List.prefix_append _ _
      have hstands : name = ".." ∨ (d.node? (up.reverse.foldl step start ++ [name])).isSome := by
        by_cases hname : name = ".."
        · exact .inl hname
        · right
          have hlast := hway (name :: up).reverse List.prefix_rfl
          rw [List.reverse_cons, List.foldl_append] at hlast
          rw [← step_of_ne hname]
          exact Option.isSome_of_eq_some hlast
      have hmake : d.makeDirectory start name up = .error .taken := by
        rw [makeDirectory, habove]
        exact if_pos hstands
      rw [makeAll, hmake]
      dsimp only
      rw [if_pos hleads]

-- ====================================================================== writing

/-- What is written is put at the place of its path, where no directory is,
and the way to it leads over directories. -/
theorem write_eq_ok (h : d.write path bytes = .ok d') :
    ∃ above, d.follow (d.startOf path) (namesOf path).dropLast = .ok above
      ∧ d.node? (d.placeOf path) ≠ some .directory
      ∧ d' = d.put (d.placeOf path) (.file bytes) := by
  rcases List.eq_nil_or_concat (namesOf path) with hnames | ⟨up, name, hnames⟩
  · rw [write, hnames] at h
    cases h
  · rw [List.concat_eq_append] at hnames
    rw [write, hnames, List.reverse_concat] at h
    dsimp only at h
    rw [List.reverse_reverse] at h
    cases habove : d.follow (d.startOf path) up with
    | error f =>
        rw [habove] at h
        cases h
    | ok above =>
        rw [habove] at h
        dsimp only at h
        split_ifs at h with hstands
        rw [not_or] at hstands
        have hplace : d.placeOf path = above ++ [name] := by
          rw [placeOf, hnames, List.foldl_append, (follow_eq_ok_iff.1 habove).1]
          exact step_of_ne hstands.1
        cases hrefusal : d.refusal? (above ++ [name]) with
        | some reason =>
            rw [hrefusal] at h
            cases h
        | none =>
            rw [hrefusal] at h
            rw [hplace, hnames, List.dropLast_concat]
            exact ⟨above, habove, hstands.2, (Except.ok.inj h).symm⟩

/-- What was written is found at its path. -/
theorem find_of_write (h : d.write path bytes = .ok d') : d'.find path = .ok (.file bytes) := by
  obtain ⟨above, habove, hfree, rfl⟩ := write_eq_ok h
  obtain ⟨hplace, hway⟩ := follow_eq_ok_iff.1 habove
  have hother : ∀ front, front <+: (namesOf path).dropLast →
      (d.put (d.placeOf path) (.file bytes)).node? (front.foldl step (d.startOf path))
        = some .directory := by
    intro front hfront
    have hdirectory := hway front hfront
    refine (if_neg ?_).trans hdirectory
    intro hsame
    exact hfree (hsame ▸ hdirectory)
  have hfollow : (d.put (d.placeOf path) (.file bytes)).follow (d.startOf path)
      (namesOf path).dropLast = .ok above := follow_eq_ok_iff.2 ⟨hplace, hother⟩
  have hfile : (d.put (d.placeOf path) (.file bytes)).node? (d.placeOf path)
      = some (.file bytes) := if_pos rfl
  have hstart : (d.put (d.placeOf path) (.file bytes)).startOf path = d.startOf path := rfl
  have hthere : (d.put (d.placeOf path) (.file bytes)).placeOf path = d.placeOf path := rfl
  rw [find, hstart, hfollow, hthere, hfile]
-- ========================================================= paths below directories

/-- A name that is one part of a path: it is followed as it is. -/
structure IsPart (name : String) : Prop where
  nonempty : name ≠ ""
  not_dot : name ≠ "."
  not_dots : name ≠ ".."
  undivided : '/' ∉ name.toList

/-- The names of a path are those before and behind a slash. -/
theorem namesOf_append (front back : List Char) :
    namesOf (String.ofList (front ++ '/' :: back))
      = namesOf (String.ofList front) ++ namesOf (String.ofList back) := by
  rw [namesOf, namesOf, namesOf, String.toList_ofList, String.toList_ofList, String.toList_ofList,
    splitOn_append, List.filter_append, List.map_append]

/-- A slash at the end names nothing more. -/
theorem namesOf_slash (front : List Char) :
    namesOf (String.ofList (front ++ ['/'])) = namesOf (String.ofList front) := by
  have hempty : namesOf (String.ofList []) = [] := rfl
  rw [namesOf_append, hempty, List.append_nil]

private theorem namesOf_part (h : IsPart name) : namesOf name = [name] := by
  have hname : name.toList ≠ [] ∧ name.toList ≠ ['.'] :=
    ⟨fun he => h.nonempty (String.toList_inj.1 he), fun he => h.not_dot (String.toList_inj.1 he)⟩
  rw [namesOf, splitOn_of_not_mem h.undivided]
  simp [hname.1, hname.2]

/-- A path below a directory is the text of the directory, without a slash
that it ends in, a slash and the name; or the name alone. -/
theorem below_cases (directory name : String) :
    (directory = "" ∧ Files.below directory name = name)
      ∨ ∃ front, ((front ≠ [] ∧ directory = String.ofList front)
            ∨ directory = String.ofList (front ++ ['/']))
          ∧ Files.below directory name = String.ofList (front ++ '/' :: name.toList) := by
  rcases List.eq_nil_or_concat directory.toList with hempty | ⟨front, c, hconcat⟩
  · obtain rfl : directory = "" := String.toList_inj.1 hempty
    exact .inl ⟨rfl, String.toList_inj.1 (by simp [Files.below])⟩
  · right
    rw [List.concat_eq_append] at hconcat
    have hlast : directory.toList.getLast? = some c := by rw [hconcat, List.getLast?_concat]
    by_cases hc : c = '/'
    · subst hc
      refine ⟨front, .inr ?_, ?_⟩
      · rw [← hconcat, String.ofList_toList]
      · rw [Files.below, hlast, Option.all_some, decide_eq_true rfl, if_pos rfl]
        apply String.toList_inj.1
        rw [String.toList_append, hconcat, List.append_assoc]
        exact String.toList_ofList.symm
    · refine ⟨directory.toList, .inl ⟨by simp [hconcat], String.ofList_toList.symm⟩, ?_⟩
      rw [Files.below, hlast, Option.all_some, decide_eq_false hc, if_neg Bool.false_ne_true]
      apply String.toList_inj.1
      rw [String.toList_append, String.toList_append, List.append_assoc]
      exact String.toList_ofList.symm

/-- A file just below a directory has one name more. -/
theorem namesOf_below (h : IsPart name) (directory : String) :
    namesOf (Files.below directory name) = namesOf directory ++ [name] := by
  rcases below_cases directory name with ⟨rfl, hbelow⟩ | ⟨front, hdirectory, hbelow⟩
  · rw [hbelow, namesOf_part h]
    rfl
  · have hname : namesOf (String.ofList name.toList) = [name] := by
      rw [String.ofList_toList, namesOf_part h]
    rw [hbelow, namesOf_append, hname]
    rcases hdirectory with ⟨-, rfl⟩ | rfl
    · rfl
    · rw [namesOf_slash]

/-- It is looked for from the same place. -/
theorem startOf_below (d : Disk) (h : IsPart name) (directory : String) :
    d.startOf (Files.below directory name) = d.startOf directory := by
  rcases below_cases directory name with ⟨rfl, hbelow⟩ | ⟨front, hdirectory, hbelow⟩
  · have hhead : name.toList.head? ≠ some '/' := fun hhead =>
      h.undivided (List.mem_of_mem_head? hhead)
    rw [hbelow, startOf, if_neg hhead]
    rfl
  · rw [hbelow, startOf, startOf, String.toList_ofList]
    rcases hdirectory with ⟨hne, rfl⟩ | rfl
    · obtain ⟨c, rest, rfl⟩ := List.exists_cons_of_ne_nil hne
      rw [String.toList_ofList]
      rfl
    · rw [String.toList_ofList]
      cases front <;> rfl

/-- The directory of a path below a directory is that directory. -/
theorem makeParent_below (d : Disk) (h : IsPart name) (directory : String) :
    d.makeParent (Files.below directory name)
      = d.makeAll (d.startOf directory) (namesOf directory).reverse := by
  -- the parent is what stands before the last slash, and a name has none
  have hpass : ∀ c ∈ name.toList.reverse, decide (c ≠ '/') = true := by
    rintro c hc
    rw [List.mem_reverse] at hc
    rw [decide_eq_true_iff]
    rintro rfl
    exact h.undivided hc
  rw [makeParent, Files.parent?]
  rcases below_cases directory name with ⟨rfl, hbelow⟩ | ⟨front, hdirectory, hbelow⟩
  · have hdrop : name.toList.reverse.dropWhile (· ≠ '/') = [] := by
      rw [List.dropWhile_eq_nil_iff]
      exact hpass
    rw [hbelow, hdrop]
    rfl
  · have hdrop : (String.ofList (front ++ '/' :: name.toList)).toList.reverse.dropWhile (· ≠ '/')
        = '/' :: front.reverse := by
      rw [String.toList_ofList, List.reverse_append, List.reverse_cons, List.append_assoc,
        List.dropWhile_append_of_pos hpass]
      rfl
    rw [hbelow, hdrop]
    rcases hdirectory with ⟨hne, rfl⟩ | rfl
    · dsimp only
      rw [if_neg (by simpa using hne), List.reverse_reverse]
    · cases front with
      | nil => rfl
      | cons c front =>
          have hstart : d.startOf (String.ofList (c :: front ++ ['/']))
              = d.startOf (String.ofList (c :: front)) := by
            rw [startOf, startOf, String.toList_ofList, String.toList_ofList]
            rfl
          dsimp only
          rw [if_neg (by simp), List.reverse_reverse, namesOf_slash, hstart]

/-- It stands just below the place of the directory. -/
private theorem placeOf_below (d : Disk) (h : IsPart name) (directory : String) :
    d.placeOf (Files.below directory name) = d.placeOf directory ++ [name] := by
  rw [placeOf, namesOf_below h, startOf_below d h, List.foldl_append]
  exact step_of_ne h.not_dots

/-- What is written below a directory is written just below it. -/
theorem write_below_eq_ok (h : IsPart name)
    (hwrite : d.write (Files.below directory name) bytes = .ok d') :
    d.node? (d.placeOf directory ++ [name]) ≠ some .directory
      ∧ d' = d.put (d.placeOf directory ++ [name]) (.file bytes) := by
  obtain ⟨-, -, hfree, hput⟩ := write_eq_ok hwrite
  rw [placeOf_below d h] at hfree hput
  exact ⟨hfree, hput⟩

/-- A file can be written into a directory that is there, unless the system
refuses it or a directory has its name. -/
theorem write_below_of_follow (h : IsPart name) {place : Place}
    (hthere : d.follow (d.startOf directory) (namesOf directory) = .ok place)
    (hfree : d.node? (d.placeOf directory ++ [name]) ≠ some .directory)
    (hallowed : d.refusal? (d.placeOf directory ++ [name]) = none) (bytes : List UInt8) :
    d.write (Files.below directory name) bytes
      = .ok (d.put (d.placeOf directory ++ [name]) (.file bytes)) := by
  obtain rfl : d.placeOf directory = place := (follow_eq_ok_iff.1 hthere).1
  rw [write, namesOf_below h, startOf_below d h, List.reverse_append, List.reverse_singleton,
    List.singleton_append]
  dsimp only
  rw [List.reverse_reverse, hthere]
  dsimp only
  rw [if_neg (not_or.2 ⟨h.not_dots, hfree⟩), hallowed]

end VideoWall.Disk
