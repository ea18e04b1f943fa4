/-
The texts of a value, and that each of them is read as that value.

# One part of a text

White space before a part is passed over (`skip_gap`, `scanValue_gap`). A text
in quotes is read back character by character, whatever characters it is of,
because each of them is escaped so that it is read as itself
(`scanText_escape`, `scanText_quote`). The digits of a number that fits a word
are read as that number, provided that what follows them is no part of a
number (`scanUnsigned_digits`).

# A whole text

`Spells depth v t` says that `t` is a text of the value `v`, in which objects
are nested `depth` deep at most. It leaves open how much white space stands
between the parts. The values are those that a view is kept as: null, truth
values, natural numbers that fit a word, texts, and objects of such values.

The scanner takes such a text from where it stands, leaves what is behind it,
and makes an outline whose value is the one that was spelled (`Spells.reads`).
The induction is on the text, an object member by member. One member is read
in the same way whether it comes first or behind a comma
(`scanMembers_member`), and the fuel is enough because every value and every
member takes at least one character. So a whole text gives to every decoder an
outline of its value (`exists_outline`).

An object that is written with every member on a line of its own is one of
these texts (`spells_pretty`).
-/
import VideoWall.Json.Decode
import VideoWall.Proofs.Numeral.Numerals

namespace VideoWall.Json

open Numeral

variable {depth n acc fuel offset : Nat} {v : Value} {key : String} {c : Char}
variable {t s rest digits : List Char} {members : List (String × Value)}

-- ============================================================ white space

/-- White space between the parts of a text. -/
structure Gap where
  chars : List Char
  blank : ∀ c ∈ chars, Cursor.isSpace c = true

namespace Gap

/-- No white space at all. -/
def none : Gap := ⟨[], nofun⟩

/-- A single space. -/
def space : Gap where
  chars := [' ']
  blank := by
    intro c hc
    rw [List.mem_singleton.1 hc]
    rfl

/-- A new line with its indentation. -/
def newline (level : Nat) : Gap where
  chars := Json.newline level
  blank := by
    intro c hc
    rcases List.mem_cons.1 hc with rfl | hc
    · rfl
    · rw [List.eq_of_mem_replicate hc]
      rfl

end Gap

namespace Cursor

/-- A gap is skipped as a whole. -/
theorem skipFrom_gap (gap : Gap) (offset : Nat) (s : List Char) :
    skipFrom offset (gap.chars ++ s) = skipFrom (offset + gap.chars.length) s := by
  obtain ⟨chars, hblank⟩ := gap
  dsimp only
  induction chars generalizing offset with
  | nil => rfl
  | cons c chars ih =>
      rw [List.cons_append, skipFrom, if_pos (hblank c List.mem_cons_self),
        ih (offset + 1) fun d hd => hblank d (List.mem_cons_of_mem c hd), List.length_cons,
        Nat.add_right_comm, Nat.add_assoc]

/-- White space is passed over up to the first other character. -/
theorem skip_gap (gap : Gap) (h : isSpace c = false) :
    skip ⟨offset, gap.chars ++ c :: rest⟩ = ⟨offset + gap.chars.length, c :: rest⟩ := by
  rw [skip, skipFrom_gap, skipFrom, h]
  rfl

/-- White space is passed over up to the end. -/
private theorem skip_gap_end (gap : Gap) :
    skip ⟨offset, gap.chars⟩ = ⟨offset + gap.chars.length, []⟩ := by
  have hend := skipFrom_gap gap offset []
  rw [List.append_nil] at hend
  exact hend

end Cursor

/-- A value is read as if there were no white space before it. -/
theorem scanValue_gap (fuel : Nat) (gap : Gap) (s : List Char) :
    scanValue fuel ⟨offset, gap.chars ++ s⟩ = scanValue fuel ⟨offset + gap.chars.length, s⟩ := by
  have hskip : Cursor.skip ⟨offset, gap.chars ++ s⟩
      = Cursor.skip ⟨offset + gap.chars.length, s⟩ := Cursor.skipFrom_gap gap offset s
  cases fuel with
  | zero => rw [scanValue, scanValue, hskip]
  | succ fuel => rw [scanValue, scanValue, hskip]

-- ========================================================= texts in quotes

/-- A control character is written with the digits of its own number. -/
private theorem toNat?_control : ∀ n < 32,
    Text.Hex.toNat? ['0', '0', Text.Hex.lower (n / 16), Text.Hex.lower (n % 16)] = some n := by
  decide

/-- A character behind a backslash is read as the one that it stands for. -/
private theorem scanText_simpleEscape {e c : Char} (h : simpleEscape? e = some c)
    (read rest : List Char) (offset : Nat) : scanText (.chars read) offset ('\\' :: e :: rest)
      = scanText (.chars (c :: read)) (offset + 2) rest := by
  have hplain : e ≠ 'u' := by
    rintro rfl
    cases h
  simp [scanText, hplain, h, TextSoFar.pushEscape]

/-- A character in quotes is read as itself. -/
private theorem scanText_escape (c : Char) (read rest : List Char) (offset : Nat) :
    ∃ offset', scanText (.chars read) offset (escape c ++ rest)
      = scanText (.chars (c :: read)) offset' rest := by
  unfold escape
  by_cases hquote : c = '"'
  · subst hquote
    exact ⟨offset + 2, scanText_simpleEscape rfl read rest offset⟩
  by_cases hslash : c = '\\'
  · subst hslash
    exact ⟨offset + 2, scanText_simpleEscape rfl read rest offset⟩
  rw [if_neg hquote, if_neg hslash]
  by_cases hcontrol : c.toNat < 0x20
  · rw [if_pos hcontrol]
    by_cases hnewline : c = '\n'
    · subst hnewline
      exact ⟨offset + 2, scanText_simpleEscape rfl read rest offset⟩
    by_cases hreturn : c = '\r'
    · subst hreturn
      exact ⟨offset + 2, scanText_simpleEscape rfl read rest offset⟩
    by_cases htab : c = '\t'
    · subst htab
      exact ⟨offset + 2, scanText_simpleEscape rfl read rest offset⟩
    rw [if_neg hnewline, if_neg hreturn, if_neg htab]
    by_cases hback : c.toNat = 8
    · obtain rfl : c = '\x08' := Char.toNat_inj.1 hback
      exact ⟨offset + 2, scanText_simpleEscape rfl read rest offset⟩
    by_cases hfeed : c.toNat = 12
    · obtain rfl : c = '\x0c' := Char.toNat_inj.1 hfeed
      exact ⟨offset + 2, scanText_simpleEscape rfl read rest offset⟩
    rw [if_neg hback, if_neg hfeed]
    refine ⟨offset + 6, ?_⟩
    have hunit : (decide (0xDC00 ≤ c.toNat) && decide (c.toNat ≤ 0xDFFF)) = false
        ∧ (decide (0xD800 ≤ c.toNat) && decide (c.toNat ≤ 0xDBFF)) = false := by
      simp only [Bool.and_eq_false_iff, decide_eq_false_iff_not]
      omega
    have hpush : (TextSoFar.chars read).pushUnit (offset + 6) c.toNat = .chars (c :: read) := by
      rw [TextSoFar.pushUnit, hunit.1, hunit.2, Char.ofNat_toNat]
      rfl
    simp only [List.cons_append, List.nil_append, scanText, toNat?_control c.toNat hcontrol, hpush]
  · rw [if_neg hcontrol]
    exact ⟨offset + c.utf8Size, by simp [scanText, hslash, hcontrol, TextSoFar.push]⟩

/-- What was put in quotes is read back behind the opening quote. -/
theorem scanText_quote (s read rest : List Char) (offset : Nat) :
    ∃ offset', scanText (.chars read) offset (s.flatMap escape ++ '"' :: rest)
      = (.ok (String.ofList (read.reverse ++ s)), .ok ⟨offset', rest⟩) := by
  induction s generalizing read offset with
  | nil => exact ⟨offset + 1, by simp [scanText, TextSoFar.finish]⟩
  | cons c s ih =>
      obtain ⟨behind, hescape⟩ := scanText_escape c read (s.flatMap escape ++ '"' :: rest) offset
      obtain ⟨offset', hread⟩ := ih (c :: read) behind
      refine ⟨offset', ?_⟩
      rw [List.flatMap_cons, List.append_assoc, hescape, hread, List.reverse_cons,
        List.append_assoc]
      rfl

-- ========================================================= natural numbers

/-- The text behind a value does not go on with the value: it is at its end,
or white space, a comma or a closing brace comes next. -/
def Delimits (rest : List Char) : Prop :=
  ∀ c, rest.head? = some c → Cursor.isSpace c = true ∨ c = ',' ∨ c = '\x7d'

/-- What delimits a value does so behind a gap. -/
theorem delimits_gap (gap : Gap) (h : Delimits rest) : Delimits (gap.chars ++ rest) := by
  obtain ⟨chars, hblank⟩ := gap
  cases chars with
  | nil => exact h
  | cons c chars =>
      intro d hd
      obtain rfl := Option.some.inj hd
      exact .inl (hblank c List.mem_cons_self)

/-- What may follow a number is no part of one. -/
theorem Delimits.not_numeral (h : Delimits (c :: rest)) :
    digit? c = none ∧ c ≠ '.' ∧ c ≠ 'e' ∧ c ≠ 'E' := by
  rcases h c rfl with hspace | rfl | rfl
  · simp only [Cursor.isSpace, Bool.or_eq_true, decide_eq_true_eq] at hspace
    rcases hspace with ((rfl | rfl) | rfl) | rfl
    all_goals exact ⟨rfl, by decide, by decide, by decide⟩
  · exact ⟨rfl, by decide, by decide, by decide⟩
  · exact ⟨rfl, by decide, by decide, by decide⟩

/-- The digits at the front are taken, as far as they go. -/
private theorem digitRun_digits (hdigits : ∀ c ∈ digits, c.isDigit = true) (hrest : Delimits rest) :
    digitRun ⟨offset, digits ++ rest⟩
      = (digits.map fun c => c.toNat - '0'.toNat, ⟨offset + digits.length, rest⟩) := by
  unfold digitRun
  dsimp only
  induction digits generalizing offset with
  | nil =>
      cases rest with
      | nil => rfl
      | cons c rest =>
          rw [List.nil_append, digitRun.go, hrest.not_numeral.1]
          rfl
  | cons c digits ih =>
      rw [List.cons_append, digitRun.go, digit?_of_isDigit (hdigits c List.mem_cons_self),
        ih fun d hd => hdigits d (List.mem_cons_of_mem c hd)]
      dsimp only
      rw [List.map_cons, List.length_cons, Nat.add_right_comm, Nat.add_assoc]

/-- Digits that write a word are all taken into the significand. -/
private theorem significand_digits (hbound : Nat.ofDigitChars 10 digits acc ≤ maxWord64) :
    significand acc (digits.map fun c => c.toNat - '0'.toNat)
      = (Nat.ofDigitChars 10 digits acc, digits.length) := by
  induction digits generalizing acc with
  | nil => rfl
  | cons c digits ih =>
      have hfold : Nat.ofDigitChars 10 (c :: digits) acc
          = Nat.ofDigitChars 10 digits (acc * 10 + (c.toNat - '0'.toNat)) := by
        unfold Nat.ofDigitChars
        rw [List.foldl_cons, Nat.mul_comm]
      rw [hfold] at hbound ⊢
      rw [List.map_cons, significand, if_pos ((le_ofDigitChars digits _).trans hbound), ih hbound]
      rfl

/-- The values of the digits that write a number. -/
def digitValues (n : Nat) : List Nat := (Nat.toDigits 10 n).map fun c => c.toNat - '0'.toNat

theorem digitValues_of_lt (h : n < 10) : digitValues n = [n] := by
  have hdigit : ∀ k < 10, k.digitChar.toNat - '0'.toNat = k := by decide
  rw [digitValues, Nat.toDigits_of_lt_base h, List.map_singleton, hdigit n h]

/-- A number of more digits has its last one at the end. -/
private theorem digitValues_of_le (h : 10 ≤ n) :
    digitValues n = digitValues (n / 10) ++ [n % 10] := by
  have hlast := digitValues_of_lt (Nat.mod_lt n (by decide : 0 < 10))
  rw [digitValues, Nat.toDigits_of_lt_base (Nat.mod_lt n (by decide))] at hlast
  rw [digitValues, Nat.toDigits_of_base_le (by decide) h, List.map_append, hlast]
  rfl

/-- A number other than nought is written without noughts in front. -/
private theorem head_digitValues (h : n ≠ 0) :
    ∃ first behind, digitValues n = first :: behind ∧ first ≠ 0 := by
  induction n using Nat.strong_induction_on with
  | h n ih =>
      by_cases hsmall : n < 10
      · exact ⟨n, [], digitValues_of_lt hsmall, h⟩
      · obtain ⟨first, behind, hvalues, hfirst⟩ := ih (n / 10) (by omega) (by omega)
        exact ⟨first, behind ++ [n % 10],
          by rw [digitValues_of_le (Nat.not_lt.1 hsmall), hvalues]; rfl, hfirst⟩

/-- Digits without noughts in front and without a point behind them are those
of a whole number. -/
private theorem scanUnsigned_whole {negative : Bool} {cursor after : Cursor} {first : Nat}
    {whole : List Nat} (hrun : digitRun cursor = (first :: whole, after))
    (hfirst : first = 0 → whole = []) (hpoint : ∀ behind, after.rest ≠ '.' :: behind) :
    scanUnsigned negative cursor = scanExponent negative (first :: whole) [] false after := by
  unfold scanUnsigned
  rw [hrun]
  split
  case h_1 hnone => cases hnone
  case h_2 hnoughts =>
    cases hnoughts
    cases hfirst rfl
  case h_3 hwhole =>
    cases hwhole
    split
    case h_1 behind hbehind => exact absurd hbehind (hpoint behind)
    case h_2 => rfl

/-- The digits of a word are read as that word. -/
private theorem scanUnsigned_digits (offset : Nat) (hn : n ≤ maxWord64) (hrest : Delimits rest) :
    ∃ stop, scanUnsigned false ⟨offset, Nat.toDigits 10 n ++ rest⟩
      = (.ok (.integer n), .ok ⟨stop, rest⟩) := by
  have hdigits : ∀ c ∈ Nat.toDigits 10 n, c.isDigit = true := fun c hc =>
    Nat.isDigit_of_mem_toDigits (by decide) (by decide) hc
  have hvalue : Nat.ofDigitChars 10 (Nat.toDigits 10 n) 0 = n :=
    Nat.ofDigitChars_toDigits (by decide) (by decide)
  generalize hstop : offset + (Nat.toDigits 10 n).length = stop
  have hrun : digitRun ⟨offset, Nat.toDigits 10 n ++ rest⟩ = (digitValues n, ⟨stop, rest⟩) := by
    rw [digitRun_digits hdigits hrest, hstop]
    rfl
  have hwhole : wholeNumber false (digitValues n) stop = .ok (.integer n) := by
    unfold wholeNumber
    rw [digitValues, significand_digits (by rw [hvalue]; exact hn), hvalue, List.length_map]
    simp
  have hexponent : scanExponent false (digitValues n) [] false ⟨stop, rest⟩
      = (.ok (.integer n), .ok ⟨stop, rest⟩) := by
    unfold scanExponent
    cases rest with
    | nil => simp [hwhole]
    | cons c rest => simp [hrest.not_numeral, hwhole]
  have hpoint : ∀ behind, rest ≠ '.' :: behind := by
    rintro behind rfl
    exact hrest.not_numeral.2.1 rfl
  obtain ⟨first, behind, hvalues, hfirst⟩ : ∃ first behind, digitValues n = first :: behind
      ∧ (first = 0 → behind = []) := by
    by_cases hzero : n = 0
    · exact ⟨n, [], digitValues_of_lt (by omega), fun _ => rfl⟩
    · obtain ⟨first, behind, hvalues, hne⟩ := head_digitValues hzero
      exact ⟨first, behind, hvalues, fun h => absurd h hne⟩
  rw [hvalues] at hrun hexponent
  exact ⟨stop, (scanUnsigned_whole hrun hfirst hpoint).trans hexponent⟩

-- =============================================================== the texts

/-- One member as it stands in a text: its name in quotes, a colon and the
text of its value, with white space around each of them. -/
def memberText (a b c d : Gap) (key : String) (t : List Char) : List Char :=
  a.chars ++ quote key.toList ++ b.chars ++ ':' :: (c.chars ++ t ++ d.chars)

mutual

/-- The texts of a value. -/
inductive Spells : Nat → Value → List Char → Prop where
  | null (depth : Nat) : Spells depth .null "null".toList
  | bool (depth : Nat) (b : Bool) : Spells depth (.bool b) (Value.bool b).render
  | nat (depth : Nat) {n : Nat} (hn : n ≤ maxWord64) : Spells depth (.nat n) (Nat.toDigits 10 n)
  | text (depth : Nat) (s : String) : Spells depth (.text s) (quote s.toList)
  | empty (depth : Nat) (gap : Gap) :
      Spells (depth + 1) (.object []) ('\x7b' :: (gap.chars ++ ['\x7d']))
  | object {depth : Nat} {members : List (String × Value)} {t : List Char}
      (h : SpellsMembers depth members t) :
      Spells (depth + 1) (.object members) ('\x7b' :: (t ++ ['\x7d']))

/-- The texts of one or more members, with commas between them. -/
inductive SpellsMembers : Nat → List (String × Value) → List Char → Prop where
  | last {depth : Nat} {key : String} {v : Value} {t : List Char} (a b c d : Gap)
      (h : Spells depth v t) : SpellsMembers depth [(key, v)] (memberText a b c d key t)
  | more {depth : Nat} {key : String} {v : Value} {t : List Char}
      {members : List (String × Value)} {s : List Char} (a b c d : Gap) (h : Spells depth v t)
      (hmore : SpellsMembers depth members s) :
      SpellsMembers depth ((key, v) :: members) (memberText a b c d key t ++ ',' :: s)

end

-- ================================================================= reading

/-- The text of a value is taken from any place, with nothing of what is
behind it, and its outline has the value. -/
def Reads (depth : Nat) (v : Value) (t : List Char) : Prop :=
  ∀ fuel offset rest, t.length ≤ fuel + 1 → Delimits rest →
    ∃ node stop, scanValue (fuel + 1) ⟨offset, t ++ rest⟩ = (node, some ⟨stop, rest⟩)
      ∧ node.toValue depth = .ok v

/-- What stands before a member: nothing before the first one, a comma before
the others. -/
def separator (first : Bool) : List Char := if first then [] else [',']

/-- The text of members is taken up to the closing brace, and so is the
brace. -/
def ReadsMembers (depth : Nat) (members : List (String × Value)) (t : List Char) : Prop :=
  ∀ fuel offset rest first (gap : Gap), t.length < fuel →
    ∃ found stop,
      scanMembers fuel first ⟨offset, gap.chars ++ separator first ++ t ++ '\x7d' :: rest⟩
        = (found, some ⟨stop, rest⟩)
      ∧ found.toValues depth = .ok members

private theorem delimits_comma (rest : List Char) : Delimits (',' :: rest) := by
  rintro c ⟨⟩
  exact .inr (.inl rfl)

private theorem delimits_brace (rest : List Char) : Delimits ('\x7d' :: rest) := by
  rintro c ⟨⟩
  exact .inr (.inr rfl)

theorem delimits_nil : Delimits [] := nofun

-- ================================================================= scalars

/-- Where no white space comes first there is nothing to pass over. -/
theorem skip_solid {c : Char} (h : Cursor.isSpace c = false) :
    Cursor.skip ⟨offset, c :: rest⟩ = ⟨offset, c :: rest⟩ :=
  Cursor.skip_gap Gap.none h

/-- `null` is read as it is spelled. -/
theorem reads_null (depth : Nat) : Reads depth .null "null".toList := by
  intro fuel offset rest _ _
  refine ⟨.null (offset + 4), offset + 4, ?_, rfl⟩
  simp [scanValue, skip_solid (c := 'n') rfl, word, wordNode]

/-- So are the two truth values, -/
theorem reads_bool (depth : Nat) (b : Bool) : Reads depth (.bool b) (Value.bool b).render := by
  intro fuel offset rest _ _
  cases b with
  | true =>
      refine ⟨.bool true (offset + 4), offset + 4, ?_, rfl⟩
      simp [scanValue, Value.render, skip_solid (c := 't') rfl, word, wordNode]
  | false =>
      refine ⟨.bool false (offset + 5), offset + 5, ?_, rfl⟩
      simp [scanValue, Value.render, skip_solid (c := 'f') rfl, word, wordNode]

/-- numbers that are words, -/
theorem reads_nat (depth : Nat) (hn : n ≤ maxWord64) :
    Reads depth (.nat n) (Nat.toDigits 10 n) := by
  intro fuel offset rest _ hrest
  obtain ⟨stop, hscan⟩ := scanUnsigned_digits offset hn hrest
  refine ⟨.number (.ok (.integer n)) stop, stop, ?_, rfl⟩
  cases hdigits : Nat.toDigits 10 n with
  | nil => exact absurd hdigits Nat.toDigits_ne_nil
  | cons c digits =>
      have hc : c.isDigit = true := Nat.isDigit_of_mem_toDigits (b := 10) (n := n) (by decide)
        (by decide) (by rw [hdigits]; exact List.mem_cons_self)
      have hspace : Cursor.isSpace c = false := by
        rw [Bool.eq_false_iff]
        intro hspace
        simp only [Cursor.isSpace, Bool.or_eq_true, decide_eq_true_eq] at hspace
        rcases hspace with ((rfl | rfl) | rfl) | rfl <;> exact absurd hc (by decide)
      have hother : ∀ d, d.isDigit = false → c ≠ d := by
        rintro d hd rfl
        rw [hc] at hd
        cases hd
      rw [hdigits, List.cons_append] at hscan
      rw [scanValue, List.cons_append, skip_solid hspace]
      dsimp only
      rw [if_neg (hother 'n' rfl), if_neg (hother 't' rfl), if_neg (hother 'f' rfl),
        if_neg (hother '"' rfl), if_neg (hother '-' rfl), digit?_of_isDigit hc, hscan]
      rfl

/-- and texts with their escapes. -/
theorem reads_text (depth : Nat) (s : String) : Reads depth (.text s) (quote s.toList) := by
  intro fuel offset rest _ _
  obtain ⟨stop, hscan⟩ := scanText_quote s.toList [] rest (offset + 1)
  refine ⟨.text (.ok s) stop, stop, ?_, rfl⟩
  rw [List.reverse_nil, List.nil_append, String.ofList_toList] at hscan
  rw [quote, List.cons_append, List.append_assoc, List.singleton_append, scanValue,
    skip_solid (c := '"') rfl]
  simp [hscan, textNode]

-- ================================================================= members

/-- What stands behind the opening quote of a member, up to the text behind
its value. -/
def behindQuote (b c : Gap) (key : String) (t rest : List Char) : List Char :=
  key.toList.flatMap escape ++ '"' :: (b.chars ++ ':' :: (c.chars ++ (t ++ rest)))

theorem memberText_append (a b c d : Gap) (key : String) (t rest : List Char) :
    memberText a b c d key t ++ rest
      = a.chars ++ '"' :: behindQuote b c key t (d.chars ++ rest) := by
  simp [memberText, behindQuote, quote]

theorem length_memberText (a b c d : Gap) (key : String) (t : List Char) :
    t.length + 2 < (memberText a b c d key t).length := by
  simp [memberText, quote]
  omega

/-- A member is read behind its opening quote. -/
def ScansMember (fuel offset : Nat) (s : List Char) (key : String) (node : Node) (last : Cursor) :
    Prop :=
  ∃ after colon behind, scanText (.chars []) offset s = (.ok key, .ok after)
    ∧ after.skip = ⟨colon, ':' :: behind⟩
    ∧ scanValue fuel ⟨colon + 1, behind⟩ = (node, some last)

/-- A member is scanned as a whole, whatever the gaps are. -/
theorem scansMember (b c : Gap) (h : Reads depth v t) (fuel : Nat) (hfuel : t.length ≤ fuel + 1)
    (hrest : Delimits rest) (offset : Nat) (key : String) :
    ∃ node stop, ScansMember (fuel + 1) offset (behindQuote b c key t rest) key node ⟨stop, rest⟩
      ∧ node.toValue depth = .ok v := by
  obtain ⟨after, htext⟩ := scanText_quote key.toList []
    (b.chars ++ ':' :: (c.chars ++ (t ++ rest))) offset
  obtain ⟨node, stop, hvalue, hv⟩ :=
    h fuel (after + b.chars.length + 1 + c.chars.length) rest hfuel hrest
  rw [List.reverse_nil, List.nil_append, String.ofList_toList] at htext
  refine ⟨node, stop, ⟨⟨after, _⟩, after + b.chars.length, _, htext, Cursor.skip_gap b rfl, ?_⟩, hv⟩
  rw [scanValue_gap, hvalue]

/-- A member is read, and then those behind it. -/
theorem scanMembers_member (first : Bool) (gap a : Gap) (offset fuel : Nat) (s : List Char) :
    ∃ offset', ∀ key node last more stop, ScansMember fuel offset' s key node last →
      scanMembers fuel false last = (more, stop) →
      ∃ keySettled settled,
        scanMembers (fuel + 1) first ⟨offset, gap.chars ++ separator first ++ (a.chars ++ '"' :: s)⟩
          = (.member (.ok key) keySettled node settled more, stop) := by
  cases first with
  | true =>
      refine ⟨offset + gap.chars.length + a.chars.length + 1, ?_⟩
      rintro key node last more stop ⟨after, colon, behind, htext, hcolon, hvalue⟩ hmore
      have hskip : Cursor.skip ⟨offset, gap.chars ++ separator true ++ (a.chars ++ '"' :: s)⟩
          = ⟨offset + gap.chars.length + a.chars.length, '"' :: s⟩ := by
        rw [separator, if_pos rfl, List.append_nil, Cursor.skip, Cursor.skipFrom_gap]
        exact Cursor.skip_gap a rfl
      refine ⟨after.settledInObject, last.settledInObject, ?_⟩
      generalize (⟨offset, gap.chars ++ separator true ++ (a.chars ++ '"' :: s)⟩ : Cursor) = cursor
        at hskip ⊢
      simp [scanMembers, hskip, htext, hcolon, hvalue, hmore]
  | false =>
      refine ⟨offset + gap.chars.length + 1 + a.chars.length + 1, ?_⟩
      rintro key node last more stop ⟨after, colon, behind, htext, hcolon, hvalue⟩ hmore
      have hskip : Cursor.skip ⟨offset, gap.chars ++ separator false ++ (a.chars ++ '"' :: s)⟩
          = ⟨offset + gap.chars.length, ',' :: (a.chars ++ '"' :: s)⟩ := by
        rw [separator, if_neg Bool.false_ne_true, List.append_assoc]
        exact Cursor.skip_gap gap rfl
      have hopen : Cursor.skipFrom (offset + gap.chars.length + 1) (a.chars ++ '"' :: s)
          = ⟨offset + gap.chars.length + 1 + a.chars.length, '"' :: s⟩ := Cursor.skip_gap a rfl
      refine ⟨after.settledInObject, last.settledInObject, ?_⟩
      generalize (⟨offset, gap.chars ++ separator false ++ (a.chars ++ '"' :: s)⟩ : Cursor) = cursor
        at hskip ⊢
      simp [scanMembers, hskip, hopen, htext, hcolon, hvalue, hmore]

/-- Members end at the closing brace. -/
theorem scanMembers_close (gap : Gap) (first : Bool) (offset fuel : Nat) (rest : List Char) :
    ∃ stop, scanMembers (fuel + 1) first ⟨offset, gap.chars ++ '\x7d' :: rest⟩
      = (.close stop, some ⟨stop, rest⟩) := by
  have hskip : Cursor.skip ⟨offset, gap.chars ++ '\x7d' :: rest⟩
      = ⟨offset + gap.chars.length, '\x7d' :: rest⟩ := Cursor.skip_gap gap rfl
  refine ⟨offset + gap.chars.length + 1, ?_⟩
  generalize (⟨offset, gap.chars ++ '\x7d' :: rest⟩ : Cursor) = cursor at hskip ⊢
  simp [scanMembers, hskip]

/-- The last member of an object is read, -/
theorem readsMembers_last (a b c d : Gap) (h : Reads depth v t) :
    ReadsMembers depth [(key, v)] (memberText a b c d key t) := by
  intro fuel offset rest first gap hfuel
  have hlength := length_memberText a b c d key t
  obtain ⟨fuel, rfl⟩ : ∃ k, fuel = k + 1 + 1 := ⟨fuel - 2, by omega⟩
  obtain ⟨offset', hmember⟩ := scanMembers_member first gap a offset (fuel + 1)
    (behindQuote b c key t (d.chars ++ '\x7d' :: rest))
  obtain ⟨node, stop, hscans, hv⟩ := scansMember b c h fuel (by omega)
    (delimits_gap d (delimits_brace rest)) offset' key
  obtain ⟨close, hclose⟩ := scanMembers_close d false stop fuel rest
  obtain ⟨keySettled, settled, hscan⟩ := hmember key node _ _ _ hscans hclose
  rw [List.append_assoc _ (memberText ..), memberText_append]
  exact ⟨_, close, hscan, by simp only [Members.toValues, hv]; rfl⟩

/-- and so is one with others behind it. -/
theorem readsMembers_more (a b c d : Gap) (h : Reads depth v t)
    (hmore : ReadsMembers depth members s) :
    ReadsMembers depth ((key, v) :: members) (memberText a b c d key t ++ ',' :: s) := by
  intro fuel offset rest first gap hfuel
  have hlength := length_memberText a b c d key t
  rw [List.length_append, List.length_cons] at hfuel
  obtain ⟨fuel, rfl⟩ : ∃ k, fuel = k + 1 + 1 := ⟨fuel - 2, by omega⟩
  obtain ⟨offset', hmember⟩ := scanMembers_member first gap a offset (fuel + 1)
    (behindQuote b c key t (d.chars ++ ',' :: (s ++ '\x7d' :: rest)))
  obtain ⟨node, stop, hscans, hv⟩ := scansMember b c h fuel (by omega)
    (delimits_gap d (delimits_comma _)) offset' key
  obtain ⟨found, close, hothers, hmembers⟩ := hmore (fuel + 1) stop rest false d (by omega)
  have hcomma : d.chars ++ separator false ++ s ++ '\x7d' :: rest
      = d.chars ++ ',' :: (s ++ '\x7d' :: rest) := by simp [separator]
  rw [hcomma] at hothers
  obtain ⟨keySettled, settled, hscan⟩ := hmember key node _ _ _ hscans hothers
  rw [List.append_assoc _ (_ ++ _), List.append_assoc (memberText ..), List.cons_append,
    memberText_append]
  exact ⟨_, close, hscan, by simp only [Members.toValues, hv, hmembers]; rfl⟩

-- ================================================================= objects

theorem reads_object {found : Members} {stop : Nat} (offset : Nat)
    (hscan : scanMembers fuel true ⟨offset + 1, s⟩ = (found, some ⟨stop, rest⟩))
    (hmembers : found.toValues depth = .ok members) :
    ∃ node stop, scanValue (fuel + 1) ⟨offset, '\x7b' :: s⟩ = (node, some ⟨stop, rest⟩)
      ∧ node.toValue (depth + 1) = .ok (.object members) := by
  refine ⟨.object offset found, stop, ?_, ?_⟩
  · have hdigit : digit? '\x7b' = none := rfl
    rw [scanValue, skip_solid (c := '\x7b') rfl]
    simp [hdigit, hscan]
  · rw [Node.toValue, if_neg (Nat.succ_ne_zero depth), Nat.add_sub_cancel, hmembers]
    rfl

theorem reads_empty (depth : Nat) (gap : Gap) :
    Reads (depth + 1) (.object []) ('\x7b' :: (gap.chars ++ ['\x7d'])) := by
  intro fuel offset rest hfuel _
  obtain ⟨fuel, rfl⟩ : ∃ k, fuel = k + 1 := ⟨fuel - 1, by simp at hfuel; omega⟩
  obtain ⟨stop, hclose⟩ := scanMembers_close gap true (offset + 1) fuel rest
  have hobject := reads_object offset hclose (rfl : (Members.close stop).toValues depth = .ok [])
  simpa using hobject

/-- An object is read if its members are. -/
theorem reads_members (h : ReadsMembers depth members t) :
    Reads (depth + 1) (.object members) ('\x7b' :: (t ++ ['\x7d'])) := by
  intro fuel offset rest hfuel _
  obtain ⟨found, stop, hscan, hmembers⟩ := h fuel (offset + 1) rest true .none
    (by simp at hfuel; omega)
  have hobject := reads_object offset hscan hmembers
  simpa [separator, Gap.none] using hobject

mutual

/-- Every text of a value is read as that value. -/
private theorem Spells.reads {depth : Nat} {v : Value} {t : List Char} :
    Spells depth v t → Reads depth v t
  | .null depth => reads_null depth
  | .bool depth b => reads_bool depth b
  | .nat depth hn => reads_nat depth hn
  | .text depth s => reads_text depth s
  | .empty depth gap => reads_empty depth gap
  | .object h => reads_members h.reads

/-- And so is every text of members. -/
theorem SpellsMembers.reads {depth : Nat} {members : List (String × Value)} {t : List Char} :
    SpellsMembers depth members t → ReadsMembers depth members t
  | .last a b c d h => readsMembers_last a b c d h.reads
  | .more a b c d h hmore => readsMembers_more a b c d h.reads hmore.reads

end

/-- A text of a value alone, with white space around it, gives every decoder
an outline of the value. -/
theorem exists_outline (h : Spells depth v t) (front back : Gap) :
    ∃ node, node.toValue depth = .ok v
      ∧ ∀ (α : Type) (d : Decoder α), decode d (front.chars ++ t ++ back.chars) = d node := by
  have hback : Delimits back.chars := by
    have hgap := delimits_gap back delimits_nil
    rwa [List.append_nil] at hgap
  obtain ⟨node, stop, hscan, hv⟩ := h.reads (front.chars ++ t ++ back.chars).length
    (0 + front.chars.length) back.chars (by simp; omega) hback
  refine ⟨node, hv, fun α d => ?_⟩
  have houtline : outline (front.chars ++ t ++ back.chars) = (node, some ⟨stop, back.chars⟩) := by
    rw [outline, List.append_assoc, scanValue_gap, ← List.append_assoc, hscan]
  rw [decode, houtline]
  dsimp only
  rw [Option.map_some, Cursor.skip_gap_end]
  cases d node <;> rfl

-- ================================================================= writing

/-- Members that stand each on its line are spelled as their values are. -/
private theorem spellsMembers_pretty {level outer : Nat} {first : String × Value}
    (h : ∀ m ∈ first :: members, Spells depth m.2 (m.2.renderPretty level)) :
    SpellsMembers depth (first :: members)
      (prettyMembers level (first :: members) ++ newline outer) := by
  induction members generalizing first with
  | nil =>
      have hlast : SpellsMembers depth [first] (memberText (.newline level) .none .space
          (.newline outer) first.1 (first.2.renderPretty level)) :=
        .last _ _ _ _ (h first List.mem_cons_self)
      simpa [memberText, prettyMembers, Gap.newline, Gap.none, Gap.space] using hlast
  | cons next members ih =>
      have hmore : SpellsMembers depth (first :: next :: members) (memberText (.newline level) .none
          .space .none first.1 (first.2.renderPretty level)
          ++ ',' :: (prettyMembers level (next :: members) ++ newline outer)) :=
        .more _ _ _ _ (h first List.mem_cons_self)
          (ih fun m hm => h m (List.mem_cons_of_mem first hm))
      simpa [memberText, prettyMembers, Gap.newline, Gap.none, Gap.space] using hmore

/-- An object whose members stand each on its line is spelled so if its
values are. -/
theorem spells_pretty {level : Nat}
    (h : ∀ m ∈ members, Spells depth m.2 (m.2.renderPretty (level + 1))) :
    Spells (depth + 1) (.object members) ((Value.object members).renderPretty level) := by
  cases members with
  | nil => exact .empty depth .none
  | cons first members =>
      rw [Value.renderPretty]
      exact .object (spellsMembers_pretty h)

end VideoWall.Json
