/-
Where snapshots are saved.

The name of the file of a snapshot is one part of a path unless the name of
the stream has a slash in it (`isPart_fileName_iff`). Such a file is put just
into the directory that was asked for, and nothing else is changed but that
this directory is made, with those that are missing on the way to it
(`save_changesOnly`). A name with a slash leads the file elsewhere, even out
of the directory.
-/
import VideoWall.Proofs.Files.Disks
import VideoWall.Snapshot.Basic

namespace VideoWall.Snapshot

open Disk Media Recorder

variable {d after : Disk} {directory name stream : String} {bytes : List UInt8} {width n : Nat}

-- ================================================================ names of files

/-- A number has no slash. -/
theorem slash_not_mem_padded (width n : Nat) : '/' ∉ (padded width n).toList := by
  rw [padded, String.toList_ofList, List.mem_append]
  rintro (h | h)
  · cases List.eq_of_mem_replicate h
  · have hdigit : '/'.isDigit = true := Nat.isDigit_of_mem_toDigits (by decide) (by decide) h
    exact absurd hdigit (by decide)

private theorem slash_not_mem_yearText (year : Int) : '/' ∉ (yearText year).toList := by
  rw [yearText]
  split_ifs <;> simp [slash_not_mem_padded]

/-- A time stamp has no slash. -/
private theorem slash_not_mem_stampText (instant : Int) : '/' ∉ (stampText instant).toList := by
  simp [stampText, slash_not_mem_padded, slash_not_mem_yearText]

/-- Nothing in the name of a file has a slash but the name of the stream. -/
theorem slash_mem_fileName_iff (stream : String) (instant : Int) (format : Format) :
    '/' ∈ (fileName stream instant format).toList ↔ '/' ∈ stream.toList := by
  have hsuffix : '/' ∉ format.suffix.toList := by cases format <;> decide
  have hname : '/' ∈ stream.toList.map (fun c => if c = ' ' then '-' else c)
      ↔ '/' ∈ stream.toList := by
    rw [List.mem_map]
    constructor
    · rintro ⟨c, hc, hslash⟩
      split_ifs at hslash with hspace
      · cases hslash
      · rwa [← hslash]
    · exact fun h => ⟨'/', h, rfl⟩
  simp [fileName, hsuffix, hname, slash_not_mem_stampText]

/-- The name of a file is one part of a path if that of its stream has no
slash. -/
theorem isPart_fileName_iff (stream : String) (instant : Int) (format : Format) :
    IsPart (fileName stream instant format) ↔ '/' ∉ stream.toList := by
  have hfirst : ∃ rest, (fileName stream instant format).toList = 's' :: rest :=
    ⟨_, by simp [fileName]; rfl⟩
  obtain ⟨rest, hrest⟩ := hfirst
  rw [← slash_mem_fileName_iff stream instant format]
  refine ⟨fun h => h.undivided, fun h => ⟨?_, ?_, ?_, h⟩⟩
  all_goals
    intro hname
    rw [hname] at hrest
    cases hrest

/-- A snapshot that was taken is named for its stream. -/
private theorem fileName_of_capture {renderer : Overlay.Renderer} {element : Element}
    {detections : List Detection} {format : Format} {instant : Int} {shot : Shot}
    (h : capture renderer stream element detections format instant = .ok shot) :
    shot.fileName = fileName stream instant format := by
  rw [capture] at h
  cases hframe : element.frame with
  | none =>
      rw [hframe] at h
      cases h
  | some frame =>
      rw [hframe] at h
      dsimp only at h
      cases hpicture : compose renderer stream frame detections with
      | error f =>
          rw [hpicture] at h
          cases h
      | ok picture =>
          rw [hpicture] at h
          by_cases hfits : format.holds picture = true
          · obtain rfl : Shot.mk (fileName stream instant format) format picture = shot :=
              Except.ok.inj ((if_pos hfits).symm.trans h)
            rfl
          · cases (if_neg hfits).symm.trans h

-- ======================================================================= saving

/-- Nothing is changed but the file of a name in a directory, and what is
missing on the way to the directory, which is made. -/
def ChangesOnly (directory name : String) (bytes : List UInt8) (d after : Disk) : Prop :=
  ∀ place, after.node? place = d.node? place
    ∨ (d.node? place = none ∧ after.node? place = some .directory
        ∧ IsOnWay (d.startOf directory) (namesOf directory) place)
    ∨ (place = d.placeOf directory ++ [name] ∧ after.node? place = some (.file bytes))

/-- What saving under one name can come to: directories are made, and then
the file is written just into the one that was asked for, or it is not. -/
theorem save_cases (h : IsPart name) (d : Disk) (directory : String) (bytes : List UInt8) :
    ∃ made, OnlyMakes (d.startOf directory) (namesOf directory) d made
      ∧ ((∃ r, save d directory name bytes = (made, .error r))
        ∨ save d directory name bytes
            = (made.put (d.placeOf directory ++ [name]) (.file bytes),
                .ok (Files.below directory name))) := by
  have hmakes := makeAll_onlyMakes d (d.startOf directory) (namesOf directory).reverse
  rw [List.reverse_reverse] at hmakes
  rw [save, makeParent_below d h]
  rcases hall : d.makeAll (d.startOf directory) (namesOf directory).reverse with ⟨made, outcome⟩
  rw [hall] at hmakes
  refine ⟨made, hmakes, ?_⟩
  cases outcome with
  | error f => exact .inl ⟨_, rfl⟩
  | ok done =>
      dsimp only
      cases hwrite : made.write (Files.below directory name) bytes with
      | error f => exact .inl ⟨_, rfl⟩
      | ok after =>
          obtain ⟨-, rfl⟩ := write_below_eq_ok h hwrite
          have hplace : made.placeOf directory = d.placeOf directory := by
            rw [placeOf, placeOf, startOf, startOf, hmakes.here]
          rw [hplace]
          exact .inr rfl

/-- Saving under one name changes nothing else, whether it comes to its end
or not. -/
private theorem save_changesOnly (h : IsPart name) (d : Disk) (directory : String)
    (bytes : List UInt8) : ChangesOnly directory name bytes d (save d directory name bytes).1 := by
  obtain ⟨made, hmakes, ⟨r, hsave⟩ | hsave⟩ := save_cases h d directory bytes
  · rw [hsave]
    exact fun place => (hmakes.node place).imp_right .inl
  · rw [hsave]
    intro place
    by_cases htarget : place = d.placeOf directory ++ [name]
    · exact .inr (.inr ⟨htarget, if_pos htarget⟩)
    · have hother : (made.put (d.placeOf directory ++ [name]) (.file bytes)).node? place
          = made.node? place := if_neg htarget
      rw [hother]
      exact (hmakes.node place).imp_right .inl

/-- A snapshot that was saved is in the file of its path. -/
private theorem save_eq_ok (h : IsPart name) {path : String}
    (hsaved : (save d directory name bytes).2 = .ok path) :
    path = Files.below directory name
      ∧ (save d directory name bytes).1.node? (d.placeOf directory ++ [name])
        = some (.file bytes) := by
  obtain ⟨made, -, ⟨r, hsave⟩ | hsave⟩ := save_cases h d directory bytes
  · rw [hsave] at hsaved
    cases hsaved
  · rw [hsave] at hsaved ⊢
    exact ⟨(Except.ok.inj hsaved).symm, if_pos rfl⟩

/-- Where the directory is there, only the file is written, and only a
directory of its name or the system keeps it from being written. -/
private theorem save_of_leadsToDirectory (h : IsPart name)
    (hthere : d.leadsToDirectory (d.startOf directory) (namesOf directory) = true) :
    (∀ place, place ≠ d.placeOf directory ++ [name] →
        (save d directory name bytes).1.node? place = d.node? place)
      ∧ (d.node? (d.placeOf directory ++ [name]) ≠ some .directory →
          d.refusal? (d.placeOf directory ++ [name]) = none →
          (save d directory name bytes).2 = .ok (Files.below directory name)) := by
  obtain ⟨place, hfollow⟩ := leadsToDirectory_iff.1 hthere
  have hall : d.makeAll (d.startOf directory) (namesOf directory).reverse = (d, .ok ()) :=
    makeAll_of_follow (by rwa [List.reverse_reverse])
  rw [save, makeParent_below d h, hall]
  dsimp only
  refine ⟨fun other hother => ?_, fun hfree hallowed => ?_⟩
  · cases hwrite : d.write (Files.below directory name) bytes with
    | error f => rfl
    | ok after =>
        obtain ⟨-, rfl⟩ := write_below_eq_ok h hwrite
        exact if_neg hother
  · rw [write_below_of_follow h hfollow hfree hallowed]

-- ================================================================== the theorem

/-- Saving under a name stays in a directory: nothing else is changed but what
is missing on the way to it. What was saved is there, and where the directory
is there, only a directory of the same name and the system keep it from being
saved. -/
structure StaysIn (directory name : String) (bytes : List UInt8) (d : Disk) : Prop where
  changesOnly : ChangesOnly directory name bytes d (save d directory name bytes).1
  saved : ∀ path, (save d directory name bytes).2 = .ok path →
    path = Files.below directory name
      ∧ (save d directory name bytes).1.node? (d.placeOf directory ++ [name]) = some (.file bytes)
  untouched : d.leadsToDirectory (d.startOf directory) (namesOf directory) = true →
    ∀ place, place ≠ d.placeOf directory ++ [name] →
      (save d directory name bytes).1.node? place = d.node? place
  unhindered : d.leadsToDirectory (d.startOf directory) (namesOf directory) = true →
    d.node? (d.placeOf directory ++ [name]) ≠ some .directory →
    d.refusal? (d.placeOf directory ++ [name]) = none →
    (save d directory name bytes).2 = .ok (Files.below directory name)

/-- A snapshot has a file whose name is one part of a path exactly if the name
of its stream has no slash, and then saving it stays in the directory, on
every disk. -/
theorem saved_in_directory (stream : String) (instant : Int) (format : Format) :
    (∀ (renderer : Overlay.Renderer) (element : Element) (detections : List Detection)
        (shot : Shot),
        capture renderer stream element detections format instant = .ok shot →
        shot.fileName = fileName stream instant format)
      ∧ (IsPart (fileName stream instant format) ↔ '/' ∉ stream.toList)
      ∧ ('/' ∉ stream.toList → ∀ (d : Disk) (directory : String) (bytes : List UInt8),
          StaysIn directory (fileName stream instant format) bytes d) := by
  refine ⟨fun _ _ _ _ => fileName_of_capture, isPart_fileName_iff stream instant format, ?_⟩
  intro hplain d directory bytes
  have hpart := (isPart_fileName_iff stream instant format).2 hplain
  refine ⟨save_changesOnly hpart d directory bytes, fun _ => save_eq_ok hpart, fun hthere => ?_,
    fun hthere => ?_⟩
  · exact (save_of_leadsToDirectory hpart hthere).1
  · exact (save_of_leadsToDirectory hpart hthere).2

/-- A disk with a directory for snapshots. -/
def recorderDisk : Disk where
  node? place :=
    if place = [] ∨ place = ["var"] ∨ place = ["var", "shots"] then some .directory else none

theorem saved_in_directory_of_frontDoor :
    StaysIn "/var/shots" (fileName "front door" 0 .jpeg) [1] recorderDisk
      ∧ (save recorderDisk "/var/shots" (fileName "front door" 0 .jpeg) [1]).1.node?
          ["var", "shots", "snapshot-front-door-1970-01-01T00-00-00-000Z.jpg"] = some (.file [1]) :=
  ⟨(saved_in_directory "front door" 0 .jpeg).2.2 (by decide) recorderDisk "/var/shots" [1],
    by decide +kernel⟩

/-- A name with slashes and dots leads out of the directory, and leaves a
directory behind there that was not asked for. -/
theorem slashes_lead_out :
    ¬ IsPart (fileName "a/../../evil" 0 .jpeg)
      ∧ (save recorderDisk "/var/shots" (fileName "a/../../evil" 0 .jpeg) [1]).1.node?
          ["var", "evil-1970-01-01T00-00-00-000Z.jpg"] = some (.file [1])
      ∧ (save recorderDisk "/var/shots" (fileName "a/../../evil" 0 .jpeg) [1]).1.node?
          ["var", "shots", "snapshot-a"] = some .directory
      ∧ recorderDisk.node? ["var", "evil-1970-01-01T00-00-00-000Z.jpg"] = none
      ∧ recorderDisk.node? ["var", "shots", "snapshot-a"] = none := by
  refine ⟨fun h => h.undivided ?_, ?_, ?_, ?_, ?_⟩ <;> decide +kernel

end VideoWall.Snapshot
