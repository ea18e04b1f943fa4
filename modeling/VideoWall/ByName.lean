/-
Tables with at most one entry for each name, in the order in which the
names were first put in. Elements, sessions and detection feeds are
held this way, by the name of their stream.
-/
namespace VideoWall

/-- A table by name. -/
structure ByName (α : Type) where
  entries : List (String × α) := []
  deriving Repr

namespace ByName

variable {α β : Type}

instance : Inhabited (ByName α) := ⟨⟨[]⟩⟩

/-- What is kept under a name. -/
def get? (t : ByName α) (name : String) : Option α := t.entries.lookup name

/-- Whether there is something under a name. -/
def has (t : ByName α) (name : String) : Bool := (t.get? name).isSome

/-- The names, in the order of their entries. -/
def names (t : ByName α) : List String := t.entries.map (·.1)

/-- Replaces the entry of a name in a list, or adds it at the end. -/
def put (name : String) (a : α) : List (String × α) → List (String × α)
  | [] => [(name, a)]
  | (n, b) :: rest => if n = name then (name, a) :: rest else (n, b) :: put name a rest

/-- The table with something under a name, in place of what was there. -/
def set (t : ByName α) (name : String) (a : α) : ByName α := ⟨put name a t.entries⟩

/-- The table without a name. -/
def erase (t : ByName α) (name : String) : ByName α := ⟨t.entries.filter (·.1 ≠ name)⟩

/-- Changes the entry of a name, if it has one. -/
def modify (t : ByName α) (name : String) (f : α → α) : ByName α :=
  match t.get? name with
  | none => t
  | some a => t.set name (f a)

-- ============================================================ lemmas

/-- What was put under a name is found there. -/
theorem lookup_put_self (name : String) (a : α) (l : List (String × α)) :
    (put name a l).lookup name = some a := by
  induction l with
  | nil => simp [put]
  | cons x rest ih =>
      obtain ⟨n, b⟩ := x
      by_cases h : n = name
      · simp [put, h]
      · have h' : (name == n) = false := by simpa using Ne.symm h
        simp [put, h, List.lookup_cons, h', ih]

/-- Other names are found as before. -/
theorem lookup_put_of_ne {name other : String} (h : other ≠ name) (a : α)
    (l : List (String × α)) : (put name a l).lookup other = l.lookup other := by
  have h' : (other == name) = false := by simpa using h
  induction l with
  | nil => simp [put, List.lookup_cons, h']
  | cons x rest ih =>
      obtain ⟨n, b⟩ := x
      by_cases hn : n = name
      · simp [put, hn, List.lookup_cons, h']
      · simp [put, hn, List.lookup_cons, ih]

/-- What was set under a name is kept there. -/
@[simp]
theorem get?_set_self (t : ByName α) (name : String) (a : α) :
    (t.set name a).get? name = some a := lookup_put_self name a t.entries

/-- Under other names everything stays. -/
theorem get?_set_of_ne {name other : String} (h : other ≠ name) (t : ByName α) (a : α) :
    (t.set name a).get? other = t.get? other := lookup_put_of_ne h a t.entries

theorem lookup_filter_self (name : String) (l : List (String × α)) :
    (l.filter (·.1 ≠ name)).lookup name = none := by
  induction l with
  | nil => rfl
  | cons x rest ih =>
      obtain ⟨n, b⟩ := x
      by_cases h : n = name
      · rw [List.filter_cons_of_neg (by simp [h]), ih]
      · have h' : (name == n) = false := by simpa using Ne.symm h
        rw [List.filter_cons_of_pos (by simp [h]), List.lookup_cons, h', ih]

theorem lookup_filter_of_ne {name other : String} (h : other ≠ name) (l : List (String × α)) :
    (l.filter (·.1 ≠ name)).lookup other = l.lookup other := by
  have h' : (other == name) = false := by simpa using h
  induction l with
  | nil => rfl
  | cons x rest ih =>
      obtain ⟨n, b⟩ := x
      by_cases hn : n = name
      · rw [List.filter_cons_of_neg (by simp [hn]), ih, List.lookup_cons, hn, h']
      · rw [List.filter_cons_of_pos (by simp [hn]), List.lookup_cons, List.lookup_cons, ih]

/-- Nothing is kept under a name that was erased. -/
@[simp]
theorem get?_erase_self (t : ByName α) (name : String) : (t.erase name).get? name = none :=
  lookup_filter_self name t.entries

/-- Under other names everything stays. -/
theorem get?_erase_of_ne {name other : String} (h : other ≠ name) (t : ByName α) :
    (t.erase name).get? other = t.get? other := lookup_filter_of_ne h t.entries

/-- What a table holds after an entry is given. -/
theorem get?_set (t : ByName α) (name other : String) (a : α) :
    (t.set name a).get? other = if other = name then some a else t.get? other := by
  by_cases h : other = name
  · rw [if_pos h, h, get?_set_self]
  · rw [if_neg h, get?_set_of_ne h]

/-- What a table holds after an entry is taken away. -/
theorem get?_erase (t : ByName α) (name other : String) :
    (t.erase name).get? other = if other = name then none else t.get? other := by
  by_cases h : other = name
  · rw [if_pos h, h, get?_erase_self]
  · rw [if_neg h, get?_erase_of_ne h]

/-- What a table holds after an entry is changed. -/
theorem get?_modify (t : ByName α) (name other : String) (f : α → α) :
    (t.modify name f).get? other
      = if other = name then (t.get? name).map f else t.get? other := by
  unfold modify
  cases h : t.get? name with
  | none =>
      by_cases ho : other = name
      · simp [ho, h]
      · simp [ho]
  | some a =>
      show (t.set name (f a)).get? other = _
      rw [get?_set]
      rfl

/-- The names of a table are those with an entry. -/
theorem mem_names {t : ByName α} {name : String} :
    name ∈ t.names ↔ (t.get? name).isSome = true := by
  unfold names get?
  induction t.entries with
  | nil => simp
  | cons x rest ih =>
      obtain ⟨n, b⟩ := x
      by_cases h : name = n
      · simp [h]
      · have h' : (name == n) = false := by simpa using h
        simp only [List.map_cons, List.mem_cons, h, false_or, ih, List.lookup_cons, h']

/-- To give a name an entry adds no name but that one. -/
theorem mem_names_set {t : ByName α} {name other : String} {a : α} :
    other ∈ (t.set name a).names ↔ other = name ∨ other ∈ t.names := by
  rw [mem_names, mem_names, get?_set]
  by_cases h : other = name
  · simp [h]
  · simp [h]

/-- To put what is there changes nothing. -/
theorem put_self {name : String} {a : α} {l : List (String × α)}
    (h : l.lookup name = some a) : put name a l = l := by
  induction l with
  | nil => cases h
  | cons x rest ih =>
      obtain ⟨n, b⟩ := x
      by_cases hn : n = name
      · rw [List.lookup_cons, hn, beq_self_eq_true] at h
        cases h
        simp [put, hn]
      · have h' : (name == n) = false := by simpa using Ne.symm hn
        rw [List.lookup_cons, h'] at h
        simp [put, hn, ih h]

/-- Giving a name the entry that it has changes nothing. -/
theorem set_self {t : ByName α} {name : String} {a : α} (h : t.get? name = some a) :
    t.set name a = t := by
  unfold set
  rw [put_self h]

/-- Changing an entry into itself changes nothing. -/
theorem modify_self {t : ByName α} {name : String} {f : α → α}
    (h : ∀ a, t.get? name = some a → f a = a) : t.modify name f = t := by
  unfold modify
  cases ha : t.get? name with
  | none => rfl
  | some a =>
      show t.set name (f a) = t
      rw [h a ha, set_self ha]

/-- Taking away an entry that is not there changes nothing. -/
theorem erase_self {t : ByName α} {name : String} (h : t.get? name = none) :
    t.erase name = t := by
  unfold erase
  rw [List.filter_eq_self.2]
  intro x hx
  have hname : name ∉ t.names := by
    rw [mem_names, h]
    simp
  have hne : x.1 ≠ name := fun hn => hname (List.mem_map.2 ⟨x, hx, hn⟩)
  simpa using hne

end ByName

end VideoWall
