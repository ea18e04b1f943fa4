/-
Attribute lists from two sides: the pairs that a writer put down, and the
bytes that a reader looks at.

`Pair` is a name with its value and the white space around both; its fields
carry the proofs of what a name and a value may be made of, so that `render`
can be given any list of pairs. A quoted value may hold commas, equality
signs and whole other attributes.

`scan?` reads the text as bytes, as text lies in memory: it counts bytes,
remembers where the pair at hand began, and takes the text between two
counts. Such a piece is missing when a count is inside of a character. It
never is: a quote or a comma is one byte that is in no other character
(`mem_encodeChar_iff`), so the scan passes over a character in one go
(`scan?_char`) and takes exactly the pieces that the characters give
(`scan?_pieces`).
-/
import VideoWall.Proofs.Playlist.Written
import VideoWall.Proofs.Text.Boundaries

namespace VideoWall.Playlist

open Text Utf8

-- =================================================================== pairs

/-- White space, any amount of it. -/
structure Blanks where
  chars : List Char
  blank : ∀ c ∈ chars, isBlank c = true

/-- A value is a token, or any text without quotes between two of them. -/
inductive Value where
  | token (chars : List Char) (trimmed : trim chars = chars)
      (free : ∀ c ∈ chars, c ≠ ',' ∧ c ≠ '"')
  | quoted (content : List Char) (free : '"' ∉ content)

namespace Value

/-- The value as it is written. -/
def chars : Value → List Char
  | token chars _ _ => chars
  | quoted content _ => '"' :: content ++ ['"']

/-- What the value says: what is written, without the quotes. -/
def content : Value → List Char
  | token chars _ _ => chars
  | quoted content _ => content

end Value

/-- A name, its value, and the white space around each of them. -/
structure Pair where
  name : List Char
  value : Value
  beforeName : Blanks
  afterName : Blanks
  beforeValue : Blanks
  afterValue : Blanks
  nonempty : name ≠ []
  trimmed : trim name = name
  free : ∀ c ∈ name, c ≠ '=' ∧ c ≠ ',' ∧ c ≠ '"'

/-- What stands before the equality sign. -/
def Pair.left (p : Pair) : List Char := p.beforeName.chars ++ p.name ++ p.afterName.chars

/-- What stands behind the equality sign. -/
def Pair.right (p : Pair) : List Char := p.beforeValue.chars ++ p.value.chars ++ p.afterValue.chars

/-- A pair as it is written. -/
def Pair.chars (p : Pair) : List Char := p.left ++ '=' :: p.right

/-- The text of a list of pairs, with a comma between each two. -/
def render (pairs : List Pair) : List Char := [','].intercalate (pairs.map Pair.chars)

-- ================================================================ the scan

/-- The bytes of a quote and of a comma. -/
def quoteByte : UInt8 := 0x22

/-- The byte of a comma. -/
def commaByte : UInt8 := 0x2C

/-- Looks for a pair with the name `key` from byte `index` of `text` on, where
`bytes` are the bytes from there. The pair at hand began at byte `start`. The
result is missing when a pair does not begin and end at a character. -/
def scan? (text key : List Char) : (bytes : List UInt8) → (start index : Nat) →
    (quoted : Bool) → Option (Option (List Char))
  | [], start, index, _ => do
      let pair ← slice? text start index
      some (valueOf? key pair)
  | b :: bytes, start, index, quoted =>
      let quoted := if b = quoteByte then !quoted else quoted
      if b = commaByte ∧ !quoted then do
        let pair ← slice? text start index
        match valueOf? key pair with
        | some value => some (some value)
        | none => scan? text key bytes (index + 1) (index + 1) quoted
      else scan? text key bytes start (index + 1) quoted

variable {text key before piece tail rest : List Char} {pieces : List (List Char)}
variable {bytes front : List UInt8} {start index : Nat} {c : Char} {q : Bool}

-- ============================================================ pairs, cut up

/-- No white space is a quote, a comma or an equality sign. -/
theorem Blanks.free (b : Blanks) : ∀ c ∈ b.chars, c ≠ '=' ∧ c ≠ ',' ∧ c ≠ '"' := by
  intro c hc
  have hblank := b.blank c hc
  refine ⟨?_, ?_, ?_⟩ <;> rintro rfl <;> exact absurd hblank (by decide)

private theorem Blanks.uncut (b : Blanks) :
    Uncut b.chars := uncut_of_free fun c hc => (b.free c hc).2

private theorem Value.uncut (v : Value) : Uncut v.chars := by
  cases v with
  | token chars _ free => exact uncut_of_free free
  | quoted content free => exact uncut_quoted free

/-- A pair as it is written is never cut, whatever its value holds. -/
private theorem Pair.uncut (p : Pair) : Uncut p.chars := by
  have hleft : Uncut p.left :=
    (p.beforeName.uncut.append (uncut_of_free fun c hc => (p.free c hc).2)).append p.afterName.uncut
  have hright : Uncut p.right :=
    (p.beforeValue.uncut.append p.value.uncut).append p.afterValue.uncut
  have h := (hleft.append uncut_equals).append hright
  rwa [List.append_assoc] at h

/-- Rendered pairs are split into the pairs. -/
private theorem splitPairs_render (p : Pair) (pairs : List Pair) :
    splitPairs false (render (p :: pairs)) = (p :: pairs).map Pair.chars := by
  induction pairs generalizing p with
  | nil =>
      have h := p.uncut [] [] [] rfl
      simpa [render] using h
  | cons next pairs ih =>
      have hrender : render (p :: next :: pairs) = p.chars ++ ',' :: render (next :: pairs) := by
        simp [render, List.intercalate_cons_cons]
      rw [hrender, p.uncut _ _ _ (splitPairs_comma _), ih, List.append_nil]
      rfl

-- ========================================================= what a pair says

/-- A value is read without its blanks and quotes. -/
private theorem Value.unquote_trim (v : Value) : unquote (trim v.chars) = v.content := by
  cases v with
  | token chars trimmed free =>
      rw [Value.chars, trimmed]
      exact unquote_of_not_mem fun h => (free _ h).2 rfl
  | quoted content free =>
      have htrim : trim ('"' :: content ++ ['"']) = '"' :: content ++ ['"'] :=
        trim_append_cons (by decide) (by decide) (by decide)
      have hquote : ∀ c ∈ ['"'], decide (c = '"') = true := List.forall_mem_singleton.2 rfl
      have hquotes : unquote (['"'] ++ content ++ ['"']) = unquote content :=
        dropEndWhile_dropWhile_append hquote hquote
      rw [Value.chars, htrim]
      exact hquotes.trans (unquote_of_not_mem free)

/-- A pair is looked up by its name. -/
private theorem Pair.valueOf?_chars (p : Pair) (key : List Char) :
    valueOf? key p.chars = if p.name = key then some p.value.content else none := by
  have hsign : '=' ∉ p.left := by
    intro h
    rcases List.mem_append.1 h with h | h
    · rcases List.mem_append.1 h with h | h
      · exact (p.beforeName.free _ h).1 rfl
      · exact (p.free _ h).1 rfl
    · exact (p.afterName.free _ h).1 rfl
  have hname : trim p.left = p.name := by
    rw [left, trim_append p.beforeName.blank p.afterName.blank, p.trimmed]
  have hvalue : unquote (trim p.right) = p.value.content := by
    rw [right, trim_append p.beforeValue.blank p.afterValue.blank, p.value.unquote_trim]
  rw [valueOf?, chars, splitOnce?_append_cons hsign]
  dsimp only
  rw [hname, hvalue]

/-- The first pair of a name is found. -/
private theorem findSome?_valueOf? (pairs : List Pair) (key : List Char) :
    (pairs.map Pair.chars).findSome? (valueOf? key)
      = (pairs.find? (·.name = key)).map (·.value.content) := by
  induction pairs with
  | nil => rfl
  | cons p pairs ih =>
      rw [List.map_cons, List.findSome?_cons, p.valueOf?_chars]
      by_cases hname : p.name = key
      · rw [if_pos hname, List.find?_cons_of_pos (by simpa using hname)]
        rfl
      · rw [if_neg hname, List.find?_cons_of_neg (by simpa using hname)]
        exact ih

-- ============================================================ bytes, scanned

/-- A text is split into one piece at least. -/
theorem exists_splitPairs (q : Bool) (s : List Char) :
    ∃ piece pieces, splitPairs q s = piece :: pieces := by
  cases s with
  | nil => exact ⟨[], [], rfl⟩
  | cons c s =>
      rw [splitPairs]
      split
      case isTrue => exact ⟨_, _, rfl⟩
      case isFalse => split <;> exact ⟨_, _, rfl⟩

/-- Bytes that are neither a quote nor a comma only count. -/
theorem scan?_append (hplain : ∀ b ∈ front, b ≠ quoteByte ∧ b ≠ commaByte) :
    scan? text key (front ++ bytes) start index q
      = scan? text key bytes start (index + front.length) q := by
  induction front generalizing index with
  | nil => rfl
  | cons b front ih =>
      obtain ⟨⟨hquote, hcomma⟩, hrest⟩ := List.forall_mem_cons.1 hplain
      rw [List.cons_append, scan?, if_neg hquote, if_neg fun h => hcomma h.1, ih hrest,
        List.length_cons, Nat.add_right_comm, Nat.add_assoc]

/-- A character that cuts nothing is passed in one go, however many bytes it
has. -/
private theorem scan?_char (hpass : ¬ (c = ',' ∧ !q)) :
    scan? text key (encodeChar c ++ bytes) start index q
      = scan? text key bytes start (index + (encodeChar c).length)
          (if c = '"' then !q else q) := by
  by_cases hquote : c = '"'
  · subst hquote
    rfl
  by_cases hcomma : c = ','
  · subst hcomma
    obtain rfl : q = true := by simpa using hpass
    rfl
  · rw [if_neg hquote]
    refine scan?_append fun b hb => ⟨?_, ?_⟩
    · rintro rfl
      exact hquote (Char.toNat_inj.1 ((mem_encodeChar_iff (by decide)).1 hb))
    · rintro rfl
      exact hcomma (Char.toNat_inj.1 ((mem_encodeChar_iff (by decide)).1 hb))

/-- A comma outside of quotes ends a pair. -/
private theorem scan?_comma (hslice : slice? text start index = some piece) :
    scan? text key (encodeChar ',' ++ bytes) start index false
      = match valueOf? key piece with
        | some value => some (some value)
        | none => scan? text key bytes (index + 1) (index + 1) false := by
  have hbytes : encodeChar ',' ++ bytes = commaByte :: bytes := rfl
  have hquote : commaByte ≠ quoteByte := by decide
  rw [hbytes, scan?, if_neg hquote, if_pos ⟨rfl, rfl⟩, hslice]
  rfl

/-- The scan takes the pieces of the text one after the other. Behind the
pieces in `before` it has passed `piece` of the next one. -/
private theorem scan?_pieces (htext : text = before ++ piece ++ rest)
    (hpieces : splitPairs q rest = tail :: pieces) :
    scan? text key (encode rest) (encode before).length (encode (before ++ piece)).length q
      = some (((piece ++ tail) :: pieces).findSome? (valueOf? key)) := by
  induction rest generalizing before piece q tail pieces with
  | nil =>
      obtain ⟨rfl, rfl⟩ := List.cons.inj hpieces
      rw [encode_nil, scan?, htext, slice?_append, List.append_nil]
      simp
  | cons c rest ih =>
      by_cases hcut : c = ',' ∧ !q
      · -- the pair ends here, and the next one begins with nothing passed
        rw [splitPairs, if_pos hcut] at hpieces
        obtain ⟨rfl, rfl⟩ := List.cons.inj hpieces
        obtain ⟨rfl, hq⟩ := hcut
        obtain rfl : q = false := by simpa using hq
        obtain ⟨next, others, hnext⟩ := exists_splitPairs false rest
        have hslice := htext ▸ slice?_append before piece (',' :: rest)
        have hstart : (encode (before ++ piece)).length + 1
            = (encode (before ++ piece ++ [','])).length := by
          rw [encode_append _ [','], List.length_append]
          rfl
        have htext' : text = (before ++ piece ++ [',']) ++ [] ++ rest := by simpa using htext
        have h := ih htext' hnext
        rw [List.append_nil, List.nil_append, ← hstart] at h
        rw [encode_cons, scan?_comma hslice, h, List.append_nil, hnext]
        cases hvalue : valueOf? key piece with
        | none => simp only [List.findSome?_cons, hvalue]
        | some value => simp only [List.findSome?_cons, hvalue]
      · -- the pair goes on with this character
        obtain ⟨next, others, hnext⟩ := exists_splitPairs (if c = '"' then !q else q) rest
        rw [splitPairs, if_neg hcut, hnext] at hpieces
        obtain ⟨rfl, rfl⟩ := List.cons.inj hpieces
        have hindex : (encode (before ++ piece)).length + (encodeChar c).length
            = (encode (before ++ (piece ++ [c]))).length := by
          rw [← List.append_assoc, encode_append _ [c], List.length_append, encode_cons, encode_nil,
            List.append_nil]
        have htext' : text = before ++ (piece ++ [c]) ++ rest := by simpa using htext
        have h := ih htext' hnext
        rw [List.append_assoc piece, List.singleton_append, ← hindex] at h
        rw [encode_cons, scan?_char hcut]
        exact h

/-- Scanning the bytes finds what splitting the letters finds. -/
private theorem scan?_eq (text key : List Char) :
    scan? text key (encode text) 0 0 false = some (attribute? text key) := by
  obtain ⟨first, pieces, hpieces⟩ := exists_splitPairs false text
  have htext : text = [] ++ [] ++ text := rfl
  have h : scan? text key _ _ _ _ = _ := scan?_pieces htext hpieces
  rw [attribute?, hpieces]
  exact h

-- ============================================================ both together

/-- Whatever pairs are written, and whatever white space is around them, a
name has the value of the first pair with that name, without its quotes; a
name that no pair has has none. And whatever the text is, a scan of its bytes
never cuts inside of a character and finds the same. -/
theorem attribute_of_pairs_and_bytes :
    (∀ (pairs : List Pair) (key : List Char),
      attribute? (render pairs) key
        = (pairs.find? (·.name = key)).map (·.value.content))
      ∧ ∀ text key : List Char,
        scan? text key (encode text) 0 0 false = some (attribute? text key) := by
  refine ⟨fun pairs key => ?_, scan?_eq⟩
  cases pairs with
  | nil => rfl
  | cons p pairs =>
      rw [attribute?, splitPairs_render, findSome?_valueOf?]

/-- A comma in quotes, a character of two bytes, and a name that ends like
the one that is looked for. -/
example : attribute? "CODECS=\"ü,B=1\", NB=2, B = 3".toList "B".toList = some "3".toList := by
  decide

end VideoWall.Playlist
