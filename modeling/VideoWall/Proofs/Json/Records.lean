/-
What is read off outlines.

# What every record has

A record starts from its initial value, and only its fields change it: an
object gives some of them in any order, an array some of the first ones. So
what the initial value has and every field keeps is had by whatever is read
(`Record.keeps`), of which the fields themselves are all that has to be
looked at.

# What an outline of a known value gives

An outline that has a value shows it: it is of the same kind, and its members
are those of the value, in order (`Node.shows`, `Members.shows`). So a decoder
of scalars takes every outline of a scalar for that scalar, whatever its place
in the text.

A record is read member by member. If each member is taken by the field of its
name, no name comes twice and no field is missing that has to be there, then
the record is its initial value with the changes of the members made one after
the other (`Record.takes_decode`).
-/
import VideoWall.Json.Decode

namespace VideoWall

/-- What comes out of a result was there before. -/
theorem exists_of_map {ε α β : Type} {x : Except ε α} {f : α → β} {b : β} (h : x.map f = .ok b) :
    ∃ a, x = .ok a ∧ f a = b := by
  cases x with
  | error e => cases h
  | ok a =>
      cases h
      exact ⟨a, rfl, rfl⟩

namespace Json

-- ============================================================== scalars

/-- Whatever is read has a property. -/
def Decoder.Yields {α : Type} (Q : α → Prop) (d : Decoder α) : Prop :=
  ∀ node a, d node = .ok a → Q a

/-- A natural number of some bits is read only if it fits. -/
theorem yields_decodeNat (bits : Nat) (expected : String) :
    (decodeNat bits expected).Yields (· < Nat.pow 2 bits) := by
  intro node n h
  have hpos : 0 < Nat.pow 2 bits := Nat.two_pow_pos bits
  unfold decodeNat at h
  cases hread : decodeInteger 0 (Nat.pow 2 bits - 1) expected node with
  | error e =>
      rw [hread] at h
      cases h
  | ok k =>
      rw [hread] at h
      cases h
      unfold decodeInteger at hread
      split at hread
      case h_1 =>
        split at hread
        case isTrue hrange =>
          cases hread
          omega
        case isFalse => cases hread
      case h_2 => cases hread

/-- A text is read as its outline is. -/
theorem Decoder.Yields.decode {α : Type} {Q : α → Prop} {d : Decoder α} (h : d.Yields Q)
    {s : List Char} {a : α} (hread : Json.decode d s = .ok a) : Q a := by
  unfold Json.decode at hread
  dsimp only at hread
  cases hnode : d (outline s).1 with
  | error e =>
      rw [hnode] at hread
      cases hread
  | ok b =>
      rw [hnode] at hread
      dsimp only at hread
      split at hread
      · cases hread
        exact h _ _ hnode
      · cases hread
        exact h _ _ hnode
      · cases hread

-- ============================================================== records

variable {ρ : Type} {P : ρ → Prop}

/-- Putting a field in keeps a property of the record. -/
def Field.Keeps (P : ρ → Prop) (f : Field ρ) : Prop :=
  ∀ node r r', f.put node r = .ok r' → P r → P r'

/-- A field keeps a property of the record if the values it takes do. -/
theorem keeps_field {α : Type} {Q : α → Prop} {d : Decoder α} (hd : d.Yields Q) {set : α → ρ → ρ}
    (hset : ∀ a r, Q a → P r → P (set a r)) (name : String) (absence : Absence) :
    (field name absence d set).Keeps P := by
  intro node r r' hput hr
  dsimp only [field] at hput
  cases hread : d node with
  | error e =>
      rw [hread] at hput
      cases hput
  | ok a =>
      rw [hread] at hput
      cases hput
      exact hset a r (hd node a hread) hr

/-- A field that a property does not speak of may hold anything. -/
theorem keeps_apart {α : Type} {d : Decoder α} {set : α → ρ → ρ}
    (hset : ∀ a r, P r → P (set a r)) (name : String) (absence : Absence) :
    (field name absence d set).Keeps P :=
  keeps_field (fun _ _ _ => trivial) (fun a r _ hr => hset a r hr) name absence

namespace Record

variable {record : Record ρ}

/-- The members of an object put in fields of the record only. -/
private theorem decodeMembers_keeps (hfields : ∀ f ∈ record.fields, f.Keeps P) {members : Members}
    {seen : List String} {r r' : ρ} (hread : record.decodeMembers seen r members = .ok r')
    (hr : P r) : P r' := by
  fun_induction record.decodeMembers seen r members with
  | case1 | case3 | case4 | case5 | case7 | case8 => cases hread
  | case2 =>
      cases hread
      exact hr
  | case6 seen r key keySettled value settled rest hunknown hfine ih => exact ih hread hr
  | case9 seen r key keySettled value settled rest f hknown hnew r₁ hput ih =>
      exact ih hread (hfields f (List.mem_of_find?_eq_some hknown) value r r₁ hput hr)

/-- So do the items of an array, which go into the fields that are left. -/
theorem decodeItems_keeps {items : Items} {left : List (Field ρ)} (hleft : ∀ f ∈ left, f.Keeps P)
    {r r' : ρ} (hread : record.decodeItems left r items = .ok r') (hr : P r) : P r' := by
  fun_induction record.decodeItems left r items with
  | case1 | case3 | case4 | case5 => cases hread
  | case2 =>
      cases hread
      exact hr
  | case6 r value settled rest f left r₁ hput ih =>
      obtain ⟨hfirst, hothers⟩ := List.forall_mem_cons.1 hleft
      exact ih hothers hread (hfirst value r r₁ hput hr)

/-- What the initial value has and every field keeps is had by every record
that is read. -/
theorem keeps (hinitial : P record.initial) (hfields : ∀ f ∈ record.fields, f.Keeps P) :
    Decoder.Yields P record.decode := by
  intro node r hread
  unfold decode at hread
  split at hread
  case h_1 => exact decodeMembers_keeps hfields hread hinitial
  case h_2 => exact decodeItems_keeps hfields hread hinitial
  case h_3 => cases hread

/-- And by every record that is read off a value that is known. -/
theorem keeps_ofValue (hinitial : P record.initial) (hfields : ∀ f ∈ record.fields, f.Keeps P)
    {v : Value} {r : ρ} (hread : record.ofValue v = .ok r) : P r := by
  unfold ofValue at hread
  dsimp only at hread
  split at hread
  case h_1 items =>
    split at hread
    · cases hread
    case h_2 r₁ hitems =>
      split at hread
      · cases hread
      · cases hread
        exact decodeItems_keeps hfields hitems hinitial
  case h_2 =>
    cases hdecode : record.decode (Node.ofValue v) with
    | error e =>
        rw [hdecode] at hread
        cases hread
    | ok r₁ =>
        rw [hdecode] at hread
        cases hread
        exact keeps hinitial hfields _ _ hdecode

end Record

variable {node : Node} {members : Members} {depth n : Nat} {v : Value}
variable {values : List (String × Value)}

-- ===================================================== values of outlines

/-- An outline that has a value, and the value. -/
inductive Node.Shows (depth : Nat) : Node → Value → Prop where
  | null (stop : Nat) : Shows depth (.null stop) .null
  | bool (b : Bool) (stop : Nat) : Shows depth (.bool b stop) (.bool b)
  | number (n : Number) (stop : Nat) : Shows depth (.number (.ok n) stop) (.number n)
  | text (s : String) (stop : Nat) : Shows depth (.text (.ok s) stop) (.text s)
  | array {items : Items} {values : List Value} (start : Nat)
      (h : items.toValues (depth - 1) = .ok values) :
      Shows depth (.array start items) (.array values)
  | object {members : Members} {values : List (String × Value)} (start : Nat)
      (h : members.toValues (depth - 1) = .ok values) :
      Shows depth (.object start members) (.object values)

/-- Members that have values, and these. -/
inductive Members.Shows (depth : Nat) : Members → List (String × Value) → Prop where
  | close (stop : Nat) : Shows depth (.close stop) []
  | member {node : Node} {v : Value} {rest : Members} {values : List (String × Value)}
      (key : String) (keySettled settled : Nat) (h : node.toValue depth = .ok v)
      (hrest : rest.toValues depth = .ok values) :
      Shows depth (.member (.ok key) keySettled node settled rest) ((key, v) :: values)

/-- A node with a value shows it. -/
theorem Node.shows (h : node.toValue depth = .ok v) : node.Shows depth v := by
  unfold toValue at h
  split at h
  case h_1 stop =>
    cases h
    exact .null stop
  case h_2 b stop =>
    cases h
    exact .bool b stop
  case h_3 n stop =>
    cases h
    exact .number n stop
  case h_5 s stop =>
    cases h
    exact .text s stop
  case h_7 start items =>
    split at h
    case isTrue => cases h
    obtain ⟨values, hvalues, rfl⟩ := exists_of_map h
    exact .array start hvalues
  case h_8 start members =>
    split at h
    case isTrue => cases h
    obtain ⟨values, hvalues, rfl⟩ := exists_of_map h
    exact .object start hvalues
  all_goals cases h

/-- Members with values show them. -/
theorem Members.shows (h : members.toValues depth = .ok values) : members.Shows depth values := by
  unfold toValues at h
  split at h
  case h_2 key keySettled node settled rest =>
    cases hnode : node.toValue depth with
    | error e =>
        rw [hnode] at h
        cases h
    | ok v =>
        cases hrest : rest.toValues depth with
        | error e =>
            rw [hnode, hrest] at h
            cases h
        | ok others =>
            rw [hnode, hrest] at h
            cases h
            exact .member key keySettled settled hnode hrest
  case h_3 stop =>
    cases h
    exact .close stop
  all_goals cases h

-- =========================================== scalars whose value is known

/-- Every outline of a value is taken for `a`. -/
def Decoder.Takes {α : Type} (d : Decoder α) (v : Value) (a : α) : Prop :=
  ∀ depth node, Node.toValue depth node = .ok v → d node = .ok a

theorem takes_bool (b : Bool) : decodeBool.Takes (.bool b) b := by
  intro depth node h
  cases Node.shows h
  rfl

theorem takes_text (expected s : String) : (decodeTextAs expected).Takes (.text s) s := by
  intro depth node h
  cases Node.shows h
  rfl

/-- A natural number is taken for itself if it fits. -/
theorem takes_nat {bits : Nat} (expected : String) (hn : n < Nat.pow 2 bits) :
    (decodeNat bits expected).Takes (.nat n) n := by
  intro depth node h
  cases Node.shows h
  have hrange : (0 : Int) ≤ n ∧ (n : Int) ≤ Nat.pow 2 bits - 1 := by omega
  rw [decodeNat, decodeInteger, if_pos hrange]
  rfl

/-- A value that is not there is written as null and taken for none. -/
theorem takes_option {α : Type} {d : Decoder α} {f : α → Value} (h : ∀ a, d.Takes (f a) a)
    (hnull : ∀ a, f a ≠ .null) (o : Option α) : (decodeOption d).Takes (.ofOption f o) o := by
  intro depth node hnode
  cases o with
  | none =>
      cases Node.shows hnode
      rfl
  | some a =>
      have hnot : ∀ stop, node ≠ .null stop := by
        rintro stop rfl
        exact hnull a (Except.ok.inj hnode).symm
      rw [decodeOption, h a depth node hnode]
      · rfl
      · exact hnot

-- ========================================= records whose members are known

variable {record : Record ρ}

/-- The field of a member's name takes its value and makes a change. -/
def Record.Takes (record : Record ρ) (member : String × Value) (change : ρ → ρ) : Prop :=
  ∃ f, record.fields.find? (·.name == member.1) = some f
    ∧ ∀ depth node, Node.toValue depth node = .ok member.2 → ∀ r, f.put node r = .ok (change r)

namespace Record

/-- A field that is read by a decoder is set to what the decoder takes. -/
theorem takes_field {α : Type} {d : Decoder α} {a : α} {name : String} {absence : Absence}
    (set : α → ρ → ρ) (hd : d.Takes v a)
    (hfind : record.fields.find? (·.name == name) = some (field name absence d set)) :
    record.Takes (name, v) (set a) := by
  refine ⟨_, hfind, fun depth node hnode r => ?_⟩
  dsimp only [field]
  rw [hd depth node hnode]
  rfl

/-- Members that are taken make their changes one after the other. -/
private theorem decodeMembers_eq_ok {change : String × Value → ρ → ρ}
    (hvalues : members.toValues depth = .ok values)
    (htakes : ∀ m ∈ values, record.Takes m (change m)) (hnames : (values.map (·.1)).Nodup)
    {seen : List String} (hnew : ∀ m ∈ values, m.1 ∉ seen)
    (hthere : ∀ f ∈ record.fields, f.absence = .fails → f.name ∈ seen ++ values.map (·.1)) (r : ρ) :
    record.decodeMembers seen r members = .ok (values.foldl (fun r m => change m r) r) := by
  induction values generalizing members seen r with
  | nil =>
      cases Members.shows hvalues with
      | close stop =>
          have hmissing :
              record.fields.find? (fun f => f.absence = .fails ∧ f.name ∉ seen) = none := by
            simpa using hthere
          rw [decodeMembers, hmissing]
          rfl
  | cons m values ih =>
      cases Members.shows hvalues with
      | @member node v rest _ key keySettled settled hnode hrest =>
          obtain ⟨f, hfind, hput⟩ := htakes _ List.mem_cons_self
          rw [List.map_cons, List.nodup_cons] at hnames
          have hunseen : key ∉ seen := hnew _ List.mem_cons_self
          have hothers : ∀ m ∈ values, m.1 ∉ key :: seen := by
            intro m hm
            rw [List.mem_cons, not_or]
            refine ⟨?_, hnew m (List.mem_cons_of_mem _ hm)⟩
            rintro rfl
            exact hnames.1 (List.mem_map.2 ⟨m, hm, rfl⟩)
          have hthere' : ∀ f ∈ record.fields, f.absence = .fails →
              f.name ∈ key :: seen ++ values.map (·.1) := fun f hf habsence =>
            List.perm_middle.mem_iff.1 (hthere f hf habsence)
          rw [decodeMembers, hfind]
          dsimp only
          rw [if_neg hunseen, hput depth node hnode r]
          exact ih hrest (fun m hm => htakes m (List.mem_cons_of_mem _ hm)) hnames.2 hothers
            hthere' _

/-- A record is taken from an object if each of its members is taken by the
field of its name, no name comes twice and nothing is missing. -/
theorem takes_decode (change : String × Value → ρ → ρ)
    (htakes : ∀ m ∈ values, record.Takes m (change m))
    (hnames : (values.map (·.1)).Nodup)
    (hthere : ∀ f ∈ record.fields, f.absence = .fails → f.name ∈ values.map (·.1)) :
    Decoder.Takes record.decode (.object values)
      (values.foldl (fun r m => change m r) record.initial) := by
  intro depth node hnode
  cases Node.shows hnode with
  | object start hvalues =>
      exact decodeMembers_eq_ok hvalues htakes hnames (fun _ _ => List.not_mem_nil) hthere _

/-- An object that is known already is read as its outline is. -/
theorem ofValue_object {r : ρ} (depth : Nat)
    (htakes : Decoder.Takes record.decode (.object values) r)
    (hvalue : (Node.ofValue (.object values)).toValue depth = .ok (.object values)) :
    record.ofValue (.object values) = .ok r := by
  rw [ofValue, htakes depth _ hvalue]
  · rfl
  · nofun

end Record

end Json

end VideoWall
