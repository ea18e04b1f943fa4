/-
The natural numbers of a command line are words.

A number is read only if it is one (`Domain.isWord_read`), and reading the
rest of the line carries along what has been read (`Progress.InWords`): an
argument adds what it says to the flags it belongs to, and a command ends with
what the environment gives. So all commands that a line names have words
(`isWord_read`).
-/
import VideoWall.CommandLine.Reading

namespace VideoWall.CommandLine

open Numeral

-- ============================================================== numbers

/-- Digits are read up to a bound only. -/
private theorem digitsWithin_le {bound : Nat} {beyond : IntegerError} {digits : List Char}
    {acc n : Nat}
    (h : digitsWithin bound beyond acc digits = .ok n) (hacc : acc ≤ bound) : n ≤ bound := by
  induction digits generalizing acc with
  | nil =>
      cases h
      exact hacc
  | cons c rest ih =>
      unfold digitsWithin at h
      split at h
      · cases h
      · split at h
        case isTrue hfits => exact ih h hfits
        case isFalse => cases h

/-- What is read as a number with a bound keeps to it. -/
theorem readNat_le {bound : Nat} {s : List Char} {n : Nat} (h : readNat bound s = .ok n) :
    n ≤ bound := by
  unfold readNat at h
  split at h
  · cases h
  · cases h
  · cases h
  · exact digitsWithin_le h (Nat.zero_le bound)
  · exact digitsWithin_le h (Nat.zero_le bound)

/-- If it is a natural number, it is a word. -/
def Datum.IsWord : Datum → Prop
  | .natural n => n ≤ maxWord64
  | _ => True

-- ============================================================== results

/-- Whatever is read has a property. -/
def Gives {α : Type} (Q : α → Prop) (x : Except Fault α) : Prop := ∀ a, x = .ok a → Q a

section

variable {α β : Type} {P : α → Prop} {Q : β → Prop}

theorem gives_ok {a : α} (h : P a) : Gives P (.ok a) := by
  rintro _ ⟨⟩
  exact h

/-- A fault gives nothing, so it gives no bad thing. -/
theorem gives_error (fault : Fault) : Gives P (.error fault) := nofun

/-- What is read with something that was read before has a property, if that
had what it takes. -/
theorem Gives.bind {x : Except Fault α} {f : α → Except Fault β} (hx : Gives P x)
    (hf : ∀ a, P a → Gives Q (f a)) : Gives Q (x >>= f) := by
  cases x with
  | error fault => exact gives_error fault
  | ok a => exact hf a (hx a rfl)

/-- What has the property all along has it at the end. -/
theorem gives_foldlM {γ : Type} {f : α → γ → Except Fault α} (hf : ∀ a c, P a → Gives P (f a c))
    (items : List γ) {a : α} (ha : P a) : Gives P (items.foldlM f a) := by
  induction items generalizing a with
  | nil => exact gives_ok ha
  | cons c rest ih =>
      rw [List.foldlM_cons]
      exact (hf a c ha).bind fun b hb => ih hb

/-- If each item is read with a property, all are. -/
private theorem gives_mapM {γ : Type} {f : γ → Except Fault α} (hf : ∀ c, Gives P (f c))
    (items : List γ) : Gives (∀ a ∈ ·, P a) (items.mapM f) := by
  induction items with
  | nil => exact gives_ok (by simp)
  | cons c rest ih =>
      rw [List.mapM_cons]
      refine (hf c).bind fun a ha => ih.bind fun later hlater => gives_ok ?_
      exact List.forall_mem_cons.2 ⟨ha, hlater⟩

end

/-- A domain reads words. -/
private theorem Domain.isWord_read (d : Domain) (flag s : String) :
    Gives Datum.IsWord (d.read flag s) := by
  cases d with
  | natural =>
      dsimp only [Domain.read]
      split
      case h_1 n hread => exact gives_ok (readNat_le hread)
      case h_2 => exact gives_error _
  | text => exact gives_ok trivial
  | path =>
      dsimp only [Domain.read]
      split
      · exact gives_error _
      · exact gives_ok trivial
  | _ =>
      dsimp only [Domain.read]
      split
      · exact gives_ok trivial
      · exact gives_error _

-- ============================================================= commands

/-- The numbers that have been read are words. -/
def Progress.InWords (p : Progress) : Prop := ∀ e ∈ p.entries, ∀ v ∈ e.data, v.IsWord

namespace Progress

variable {p : Progress}

/-- What is in words stays so with more data in words. -/
theorem inWords_add (hp : p.InWords) {data : List Datum} (hdata : ∀ v ∈ data, v.IsWord)
    (name : String) (typed : Bool) : (p.add name data typed).InWords := by
  unfold add
  split
  case isTrue hknown =>
    intro e he
    obtain ⟨e', he', rfl⟩ := List.mem_map.1 he
    split
    · exact List.forall_mem_append.2 ⟨hp e' he', hdata⟩
    · exact hp e' he'
  case isFalse hnew =>
    refine List.forall_mem_append.2 ⟨hp, ?_⟩
    simpa using hdata

/-- A flag with its value is recorded in words. -/
theorem inWords_record (hp : p.InWords) (f : Flag) (text : String) (typed : Bool) :
    Gives InWords (p.record f text typed) := by
  unfold record
  split
  · split
    · exact gives_error _
    · exact gives_ok (inWords_add hp (by simp) _ _)
  case h_2 d hsingle =>
    split
    · exact gives_error _
    · refine (d.isWord_read f.name text).bind fun v hv => gives_ok (inWords_add hp ?_ _ _)
      simpa using hv
  case h_3 d hlist =>
    exact (gives_mapM (d.isWord_read f.name) _).bind fun data hdata =>
      gives_ok (inWords_add hp hdata _ _)

theorem inWords_settle (hp : p.InWords) : Gives InWords p.settle := by
  unfold settle
  split
  · exact gives_ok hp
  · exact gives_error _
  case h_3 f text hpending =>
    have hbefore : ({ p with pending := none } : Progress).InWords := hp
    exact inWords_record hbefore f text true

end Progress

/-- A command that goes on does so with words. -/
def Turn.InWords : Turn → Prop
  | .on p => p.InWords
  | _ => True

namespace Context

variable {p : Progress}

/-- To ask for help reads nothing. -/
theorem inWords_askHelp (c : Context) (hp : p.InWords) : Gives Turn.InWords (c.askHelp p) :=
  (Progress.inWords_settle hp).bind fun _ _ => gives_error _

theorem inWords_askVersion (hp : p.InWords) : Gives Turn.InWords (askVersion p) :=
  (Progress.inWords_settle hp).bind fun _ _ => gives_error _

/-- A long flag is read in words. -/
theorem inWords_long (c : Context) (hp : p.InWords) (name : String) (value : Option String) :
    Gives Turn.InWords (c.long p name value) := by
  have hsettled := Progress.inWords_settle hp
  have hrecorded : ∀ (f : Flag) (text : String), Gives Turn.InWords
      (do pure (.on (← (← p.settle).record f text true))) := fun f text =>
    hsettled.bind fun q hq => (Progress.inWords_record hq f text true).bind fun r hr => gives_ok hr
  unfold long
  split
  · split
    · exact gives_error _
    · exact hrecorded _ _
    · exact hrecorded _ _
    · exact hsettled.bind fun q hq => gives_ok hq
  · split
    · split
      · exact gives_error _
      · split
        · exact inWords_askHelp c hp
        · exact inWords_askVersion hp
    · exact gives_error _

/-- Short flags are read in words. -/
theorem inWords_short (c : Context) (hp : p.InWords) (letters : List Char) :
    Gives Turn.InWords (c.short p letters) := by
  unfold short
  split
  · exact inWords_askHelp c hp
  · split
    · exact inWords_askVersion hp
    · exact gives_error _
  · exact gives_error _

/-- So is what stands at a place. -/
theorem inWords_place (c : Context) (hp : p.InWords) (word : String) (afterDashes : Bool) :
    Gives Progress.InWords (c.place p word afterDashes) := by
  unfold place
  split
  · exact gives_error _
  · have hword : ∀ v ∈ [Datum.text word], v.IsWord := by simp [Datum.IsWord]
    exact (Progress.inWords_settle hp).bind fun q hq =>
      gives_ok (Progress.inWords_add hq hword _ true)

theorem inWords_word (c : Context) (hp : p.InWords) (argument : String) :
    Gives Turn.InWords (c.word p argument) := by
  unfold word
  split
  · exact gives_ok hp
  · exact (inWords_place c hp argument false).bind fun q hq => gives_ok hq

/-- So is an argument of any kind. -/
theorem inWords_argument (c : Context) (hp : p.InWords) (a : String) :
    Gives Turn.InWords (c.argument p a) := by
  unfold argument
  split
  · exact gives_ok trivial
  · split
    · exact inWords_long c hp _ _
    · exact inWords_long c hp _ _
  · exact inWords_short c hp _
  · exact inWords_word c hp a

/-- One argument adds words to words. -/
theorem inWords_step (c : Context) (hp : p.InWords) (a : String) :
    Gives Turn.InWords (c.step p a) := by
  unfold step
  split
  · split
    · exact inWords_word c hp a
    · exact inWords_argument c hp a
  · split
    · exact gives_ok trivial
    · split
      · exact gives_ok trivial
      · exact inWords_argument c hp a

/-- Values that were not given are filled in with words. -/
theorem inWords_fillIn (c : Context) (hp : p.InWords) : Gives Progress.InWords (c.fillIn p) := by
  refine gives_foldlM (fun q f hq => ?_) _ hp
  split
  · split
    · exact gives_ok hq
    · exact Progress.inWords_record hq f _ false
  · exact gives_ok hq

end Context

/-- The numbers of a command are words. -/
def Level.InWords (l : Level) : Prop := ∀ e ∈ l.entries, ∀ v ∈ e.data, v.IsWord

theorem inWords_finish (c : Context) {p : Progress} (hp : p.InWords) {inner : List Level}
    (hinner : ∀ l ∈ inner, l.InWords) : Gives (∀ l ∈ ·, l.InWords) (c.finish p inner) := by
  unfold Context.finish
  refine (Progress.inWords_settle hp).bind fun q hq => ?_
  refine (c.inWords_fillIn hq).bind fun r hr => ?_
  have hchecked : Gives (fun _ => True) (c.check r !inner.isEmpty) := fun _ _ => trivial
  exact hchecked.bind fun _ _ => gives_ok (List.forall_mem_cons.2 ⟨hr, hinner⟩)

/-- So are all arguments from some point on. -/
theorem inWords_readWithin (arguments : List String) (c : Context) {p : Progress}
    (hp : p.InWords) : Gives (∀ l ∈ ·, l.InWords) (readWithin c p arguments) := by
  induction arguments generalizing c p with
  | nil => exact inWords_finish c hp (by simp)
  | cons a rest ih =>
      unfold readWithin
      refine (c.inWords_step hp a).bind fun turn hturn => ?_
      cases turn with
      | on q => exact ih c hturn
      | enter g =>
          have hnothing : ({} : Progress).InWords := by
            intro e he
            cases he
          exact (ih _ hnothing).bind fun inner hinner => inWords_finish c hp hinner
      | help => exact gives_error _
      | onlyPlaces =>
          have hplaced := gives_foldlM (fun q a hq => c.inWords_place hq a true) rest hp
          exact hplaced.bind fun q hq => inWords_finish c hq (by simp)

/-- All commands that a line names have words. -/
theorem inWords_read (i : Interface) (environment : String → Option String)
    (arguments : List String) : Gives (∀ l ∈ ·, l.InWords) (i.read environment arguments) :=
  inWords_readWithin arguments _ nofun

/-- What is looked up in such a command is a word. -/
theorem Level.InWords.natural {l : Level} (h : l.InWords) {name : String} {n : Nat}
    (hn : (l.entryOf name).bind Entry.natural? = some n) : n ≤ maxWord64 := by
  obtain ⟨e, he, hnatural⟩ := Option.bind_eq_some_iff.1 hn
  obtain ⟨v, hv, hvalue⟩ := List.exists_of_findSome?_eq_some hnatural
  have hword := h e (List.mem_of_find?_eq_some he) v hv
  cases v with
  | natural m =>
      cases hvalue
      exact hword
  | _ => cases hvalue

end VideoWall.CommandLine
