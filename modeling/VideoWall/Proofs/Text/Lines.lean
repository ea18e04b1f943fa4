/-
The lines of a text, and the white space around what they say.

Who reads a text line by line and trims each line sees nothing of the
white space at the ends of lines, of the carriage return that may stand
before a line feed, or of a line feed that may be missing at the end of
the text (`trimmed_lines`). So a text is as good as its pieces between
line feeds, and these are what a writer puts down one after the other
(`splitOn_of_not_mem`, `splitOn_append`).
-/
import Mathlib.Data.List.TakeWhile
import VideoWall.Text.Blank

namespace VideoWall.Text

variable {p : Char → Bool} {c sep : Char} {s left right line tail : List Char}

-- =============================================================== prefixes

/-- What a text begins with. -/
theorem stripPrefix?_eq_some_iff {p s r : List Char} : stripPrefix? p s = some r ↔ s = p ++ r := by
  induction p generalizing s with
  | nil => simp [stripPrefix?]
  | cons a p ih =>
      cases s with
      | nil => simp [stripPrefix?]
      | cons b s =>
          by_cases hab : a = b
          · simp [stripPrefix?, hab, ih]
          · simp [stripPrefix?, hab, Ne.symm hab]

/-- What is not there is not stripped. -/
theorem stripPrefix?_eq_none {p s : List Char} (h : ¬ p <+: s) : stripPrefix? p s = none := by
  cases hr : stripPrefix? p s with
  | none => rfl
  | some r => exact absurd ⟨r, (stripPrefix?_eq_some_iff.1 hr).symm⟩ h

-- =============================================================== trimming

/-- Everything at the end that may be dropped is dropped. -/
theorem dropEndWhile_append (h : ∀ c ∈ right, p c = true) :
    dropEndWhile p (s ++ right) = dropEndWhile p s := by
  unfold dropEndWhile
  rw [List.reverse_append, List.dropWhile_append_of_pos]
  intro c hc
  exact h c (List.mem_reverse.1 hc)

/-- A suffix that is dropped ends before a character that stays. -/
theorem dropEndWhile_append_cons (h : p c = false) :
    dropEndWhile p (s ++ c :: tail) = s ++ c :: dropEndWhile p tail := by
  have hstays : (c :: s.reverse).dropWhile p = c :: s.reverse :=
    List.dropWhile_cons_of_neg (by simp [h])
  unfold dropEndWhile
  rw [List.reverse_append, List.reverse_cons, List.append_assoc, List.singleton_append,
    List.dropWhile_append, hstays]
  split
  case isTrue hempty =>
    rw [List.isEmpty_iff] at hempty
    simp [hempty]
  case isFalse => simp

/-- What has nothing to drop stays as it is. -/
theorem dropWhile_of_forall (h : ∀ c ∈ s, p c = false) : s.dropWhile p = s := by
  cases s with
  | nil => rfl
  | cons c s => exact List.dropWhile_cons_of_neg (by simp [h c])

theorem dropEndWhile_of_forall (h : ∀ c ∈ s, p c = false) : dropEndWhile p s = s := by
  rw [dropEndWhile, dropWhile_of_forall fun c hc => h c (List.mem_reverse.1 hc),
    List.reverse_reverse]

/-- What is dropped from the ends does not count. -/
theorem dropEndWhile_dropWhile_append (hleft : ∀ c ∈ left, p c = true)
    (hright : ∀ c ∈ right, p c = true) :
    dropEndWhile p ((left ++ s ++ right).dropWhile p) = dropEndWhile p (s.dropWhile p) := by
  rw [List.append_assoc, List.dropWhile_append_of_pos hleft, List.dropWhile_append]
  split
  case isTrue hempty =>
    have hnothing : right.dropWhile p = [] := List.dropWhile_eq_nil_iff.2 hright
    rw [hnothing, List.isEmpty_iff.1 hempty]
  case isFalse => exact dropEndWhile_append hright

/-- White space at the ends does not count. -/
theorem trim_append (hleft : ∀ c ∈ left, isBlank c = true)
    (hright : ∀ c ∈ right, isBlank c = true) : trim (left ++ s ++ right) = trim s :=
  dropEndWhile_dropWhile_append hleft hright

/-- Text without white space stays as it is. -/
theorem trim_of_forall (h : ∀ c ∈ s, isBlank c = false) : trim s = s := by
  rw [trim, dropWhile_of_forall h, dropEndWhile_of_forall h]

/-- A text that begins with a character other than white space keeps all up
to the last such character. -/
theorem trim_cons (h : isBlank c = false) : trim (c :: s) = dropEndWhile isBlank (c :: s) := by
  unfold trim
  rw [List.dropWhile_cons_of_neg (by simp [h])]

/-- Text with no white space at its ends stays as it is. -/
theorem trim_append_cons (hfirst : isBlank c = false) (htail : tail.all (!isBlank ·) = true)
    (hne : tail ≠ []) : trim (c :: s ++ tail) = c :: s ++ tail := by
  obtain ⟨before, d, rfl⟩ := List.eq_nil_or_concat tail |>.resolve_left hne
  have hlast : isBlank d = false := by simpa using List.all_eq_true.1 htail d (by simp)
  rw [List.cons_append, trim_cons hfirst, ← List.cons_append, List.concat_eq_append,
    ← List.append_assoc, dropEndWhile_append_cons hlast]
  rfl

/-- Trimming leaves the front of a text that begins with a character other
than white space. -/
theorem trim_prefix_self (h : isBlank c = false) : trim (c :: s) <+: c :: s := by
  have hsuffix := List.dropWhile_suffix isBlank (l := (c :: s).reverse)
  rw [trim_cons h, dropEndWhile]
  simpa using List.reverse_prefix.2 hsuffix

-- ================================================================== lines

/-- A carriage return before the end of a line is white space. -/
private theorem trim_chompReturn (line : List Char) : trim (chompReturn line) = trim line := by
  unfold chompReturn
  split
  case h_1 r hr =>
    have hline : line = [] ++ r.reverse ++ ['\r'] := by
      rw [← List.reverse_reverse line, hr]
      simp
    rw [hline, trim_append (by simp) (by simp [isBlank])]
  case h_2 => rfl

/-- A text is split at the first separator. -/
theorem splitOnce?_append_cons (h : sep ∉ s) :
    splitOnce? sep (s ++ sep :: tail) = some (s, tail) := by
  induction s with
  | nil => simp [splitOnce?]
  | cons c s ih =>
      rw [List.mem_cons, not_or] at h
      rw [List.cons_append, splitOnce?, if_neg (Ne.symm h.1), ih h.2]
      rfl

theorem splitOnce?_of_not_mem (h : sep ∉ s) : splitOnce? sep s = none := by
  induction s with
  | nil => rfl
  | cons c s ih =>
      rw [List.mem_cons, not_or] at h
      rw [splitOnce?, if_neg (Ne.symm h.1), ih h.2]
      rfl

/-- A text that is cut is its two parts around the separator. -/
theorem eq_append_of_splitOnce? (h : splitOnce? sep s = some (left, right)) :
    s = left ++ sep :: right := by
  induction s generalizing left with
  | nil => cases h
  | cons c s ih =>
      rw [splitOnce?] at h
      by_cases hc : c = sep
      · rw [if_pos hc] at h
        cases h
        rw [hc]
        rfl
      · rw [if_neg hc, Option.map_eq_some_iff] at h
        obtain ⟨⟨front, back⟩, hcut, hparts⟩ := h
        cases hparts
        exact congrArg (c :: ·) (ih hcut)

theorem splitOn_of_not_mem (h : sep ∉ s) : splitOn sep s = [s] := by
  induction s with
  | nil => rfl
  | cons c s ih =>
      rw [List.mem_cons, not_or] at h
      rw [splitOn, if_neg (Ne.symm h.1), ih h.2]

theorem splitOn_ne_nil (sep : Char) (s : List Char) : splitOn sep s ≠ [] := by
  cases s with
  | nil => simp [splitOn]
  | cons c s =>
      rw [splitOn]
      split
      · simp
      · split <;> simp

/-- A separator cuts the splitting in two. -/
theorem splitOn_append (sep : Char) (s t : List Char) :
    splitOn sep (s ++ sep :: t) = splitOn sep s ++ splitOn sep t := by
  induction s with
  | nil => simp [splitOn]
  | cons c s ih =>
      rw [List.cons_append, splitOn, splitOn, ih]
      by_cases hc : c = sep
      · rw [if_pos hc, if_pos hc]
        rfl
      · rw [if_neg hc, if_neg hc]
        cases hs : splitOn sep s with
        | nil => exact absurd hs (splitOn_ne_nil sep s)
        | cons piece rest => rfl

theorem splitOn_append_cons (h : sep ∉ line) :
    splitOn sep (line ++ sep :: s) = line :: splitOn sep s := by
  rw [splitOn_append, splitOn_of_not_mem h, List.singleton_append]

/-- Lines that are trimmed are the pieces between line feeds, but for empty
ones. -/
theorem trimmed_lines (text : List Char) :
    ((lines text).map trim).filter (· ≠ []) = ((splitOn '\n' text).map trim).filter (· ≠ []) := by
  have hchomp : ∀ pieces : List (List Char),
      (pieces.map chompReturn).map trim = pieces.map trim := by
    intro pieces
    rw [List.map_map]
    exact List.map_congr_left fun line _ => trim_chompReturn line
  unfold lines
  generalize splitOn '\n' text = pieces
  rcases List.eq_nil_or_concat pieces with rfl | ⟨before, last, rfl⟩
  · rfl
  · simp only [List.concat_eq_append, List.dropLast_concat, List.getLast?_concat]
    cases last with
    | nil =>
        have hnothing : trim [] = [] := rfl
        simp [hchomp, hnothing]
    | cons c rest => simp only [List.map_append, hchomp]

end VideoWall.Text
