import FormFill.Text.Basic

/-! # Maps from names

A map keeps its entries in strictly ascending order of name, by code points. Every map therefore has
one representation: two maps with the same look-ups are equal, and listing the entries lists them in
the order of their names.
-/

namespace FormFill

/-- Values by name, in strictly ascending order of name. -/
structure NameMap (Value : Type) where
  entries : List (Text × Value)
  ascending : entries.Pairwise (fun left right => left.1 < right.1)
deriving DecidableEq

namespace NameMap

variable {Value : Type}

/-- Put an entry at its place in an ascending list, replacing the entry of the same name. -/
def place (name : Text) (value : Value) : List (Text × Value) → List (Text × Value)
  | [] => [(name, value)]
  | (other, previous) :: rest =>
    if name = other then (name, value) :: rest
    else if name < other then (name, value) :: (other, previous) :: rest
    else (other, previous) :: place name value rest

/-- The value of the first entry with this name. -/
def find? (name : Text) : List (Text × Value) → Option Value
  | [] => none
  | (other, value) :: rest => if name = other then some value else find? name rest

private theorem lt_of_not_lt {left right : Text} (different : left ≠ right)
    (notLess : ¬ left < right) : right < left := by
  by_cases less : right < left
  · exact less
  · exact absurd (List.le_antisymm (List.not_lt.mp less) (List.not_lt.mp notLess)) different

theorem mem_place {name : Text} {value : Value} {entries : List (Text × Value)}
    {entry : Text × Value} (member : entry ∈ place name value entries) :
    entry = (name, value) ∨ entry ∈ entries := by
  induction entries with
  | nil => exact .inl (List.mem_singleton.mp member)
  | cons head rest ih =>
    rcases head with ⟨other, previous⟩
    unfold place at member
    split at member
    · rcases List.mem_cons.mp member with same | tail
      · exact .inl same
      · exact .inr (List.mem_cons_of_mem _ tail)
    · split at member
      · exact List.mem_cons.mp member
      · rcases List.mem_cons.mp member with same | tail
        · exact .inr (same ▸ List.mem_cons_self)
        · exact (ih tail).imp_right (List.mem_cons_of_mem _)

theorem place_ascending (name : Text) (value : Value) {entries : List (Text × Value)}
    (ascending : entries.Pairwise (fun left right => left.1 < right.1)) :
    (place name value entries).Pairwise (fun left right => left.1 < right.1) := by
  induction entries with
  | nil => exact List.pairwise_singleton _ _
  | cons head rest ih =>
    rcases head with ⟨other, previous⟩
    obtain ⟨least, tail⟩ := List.pairwise_cons.mp ascending
    unfold place
    split
    · next same => subst same; exact List.pairwise_cons.mpr ⟨least, tail⟩
    · next different =>
      split
      · next less =>
        refine List.pairwise_cons.mpr ⟨fun entry member => ?_, ascending⟩
        rcases List.mem_cons.mp member with rfl | later
        · exact less
        · exact List.lt_trans less (least entry later)
      · next notLess =>
        refine List.pairwise_cons.mpr ⟨fun entry member => ?_, ih tail⟩
        rcases mem_place member with rfl | old
        · exact lt_of_not_lt different notLess
        · exact least entry old

theorem find?_place (query name : Text) (value : Value) (entries : List (Text × Value)) :
    find? query (place name value entries) =
      if query = name then some value else find? query entries := by
  induction entries with
  | nil => rfl
  | cons head rest ih =>
    rcases head with ⟨other, previous⟩
    unfold place
    split
    · next same => subst same; by_cases query = name <;> simp [find?, *]
    · next different =>
      split
      · rfl
      · rw [find?, ih, find?]
        by_cases same : query = name
        · subst same; simp [different]
        · simp [same]

private theorem find?_eq_none {name : Text} {entries : List (Text × Value)}
    (absent : ∀ entry ∈ entries, name ≠ entry.1) : find? name entries = none := by
  induction entries with
  | nil => rfl
  | cons head rest ih =>
    rw [find?, if_neg (absent head List.mem_cons_self)]
    exact ih fun entry member => absent entry (List.mem_cons_of_mem _ member)

theorem mem_of_find? {name : Text} {value : Value} {entries : List (Text × Value)}
    (found : find? name entries = some value) : (name, value) ∈ entries := by
  induction entries with
  | nil => contradiction
  | cons head rest ih =>
    rcases head with ⟨other, previous⟩
    unfold find? at found
    split at found
    · next same => cases found; exact same ▸ List.mem_cons_self
    · exact List.mem_cons_of_mem _ (ih found)

private theorem ne_of_later {name : Text} {value : Value} {rest : List (Text × Value)}
    (ascending : ((name, value) :: rest).Pairwise (fun left right => left.1 < right.1)) :
    ∀ entry ∈ rest, name ≠ entry.1 := by
  intro entry member same
  have less : name < entry.1 := (List.pairwise_cons.mp ascending).1 entry member
  exact List.lt_irrefl _ (same ▸ less)

theorem find?_of_mem {name : Text} {value : Value} {entries : List (Text × Value)}
    (ascending : entries.Pairwise (fun left right => left.1 < right.1))
    (member : (name, value) ∈ entries) : find? name entries = some value := by
  induction entries with
  | nil => contradiction
  | cons head rest ih =>
    rcases head with ⟨other, previous⟩
    rcases List.mem_cons.mp member with same | later
    · cases same; simp [find?]
    · have different := ne_of_later ascending _ later
      rw [find?, if_neg (Ne.symm different)]
      exact ih (List.pairwise_cons.mp ascending).2 later

private theorem entries_ext {left right : List (Text × Value)}
    (leftAscending : left.Pairwise (fun left right => left.1 < right.1))
    (rightAscending : right.Pairwise (fun left right => left.1 < right.1))
    (same : ∀ name, find? name left = find? name right) : left = right := by
  induction left generalizing right with
  | nil =>
    cases right with
    | nil => rfl
    | cons head rest => have := same head.1; simp [find?] at this
  | cons head tail ih =>
    rcases head with ⟨name, value⟩
    cases right with
    | nil => have := same name; simp [find?] at this
    | cons other rest =>
      rcases other with ⟨otherName, otherValue⟩
      have inRight : (name, value) ∈ (otherName, otherValue) :: rest :=
        mem_of_find? ((same name).symm.trans (by simp [find?]))
      have inLeft : (otherName, otherValue) ∈ (name, value) :: tail :=
        mem_of_find? ((same otherName).trans (by simp [find?]))
      have heads : (name, value) = (otherName, otherValue) := by
        rcases List.mem_cons.mp inRight with equal | later
        · exact equal
        rcases List.mem_cons.mp inLeft with equal | earlier
        · exact equal.symm
        · have less : otherName < name := (List.pairwise_cons.mp rightAscending).1 _ later
          have greater : name < otherName := (List.pairwise_cons.mp leftAscending).1 _ earlier
          exact absurd (List.lt_trans less greater) (List.lt_irrefl _)
      cases heads
      have tails : ∀ query, find? query tail = find? query rest := by
        intro query
        by_cases equal : query = name
        · subst equal
          rw [find?_eq_none (ne_of_later leftAscending), find?_eq_none (ne_of_later rightAscending)]
        · simpa [find?, equal] using same query
      rw [ih (List.pairwise_cons.mp leftAscending).2 (List.pairwise_cons.mp rightAscending).2 tails]

/-- The map without entries. -/
def empty : NameMap Value := ⟨[], .nil⟩

instance : EmptyCollection (NameMap Value) := ⟨empty⟩

/-- The value of a name. -/
def get? (map : NameMap Value) (name : Text) : Option Value := find? name map.entries

/-- Give a name a value, replacing the one it had. -/
def insert (map : NameMap Value) (name : Text) (value : Value) : NameMap Value :=
  ⟨place name value map.entries, place_ascending name value map.ascending⟩

/-- Insert pairs from first to last, so that a later pair replaces an earlier one. -/
def overwrite (map : NameMap Value) (pairs : List (Text × Value)) : NameMap Value :=
  pairs.foldl (fun map pair => map.insert pair.1 pair.2) map

/-- The map of a list of pairs; of pairs with one name the last counts. -/
def ofList (pairs : List (Text × Value)) : NameMap Value := overwrite ∅ pairs

/-- Maps with the same look-ups are equal. -/
@[ext] theorem ext {left right : NameMap Value} (same : ∀ name, left.get? name = right.get? name) :
    left = right := by
  rcases left with ⟨leftEntries, leftAscending⟩
  rcases right with ⟨rightEntries, rightAscending⟩
  cases entries_ext leftAscending rightAscending same
  rfl

@[simp] theorem get?_empty (name : Text) : (∅ : NameMap Value).get? name = none := rfl

theorem get?_insert (map : NameMap Value) (name query : Text) (value : Value) :
    (map.insert name value).get? query = if query = name then some value else map.get? query :=
  find?_place query name value map.entries

@[simp] theorem get?_insert_self (map : NameMap Value) (name : Text) (value : Value) :
    (map.insert name value).get? name = some value := by
  simp [get?_insert]

theorem get?_eq_some_iff {map : NameMap Value} {name : Text} {value : Value} :
    map.get? name = some value ↔ (name, value) ∈ map.entries :=
  ⟨mem_of_find?, find?_of_mem map.ascending⟩

@[simp] theorem overwrite_nil (map : NameMap Value) : map.overwrite [] = map := rfl

@[simp] theorem overwrite_cons (map : NameMap Value) (pair : Text × Value)
    (pairs : List (Text × Value)) :
    map.overwrite (pair :: pairs) = (map.insert pair.1 pair.2).overwrite pairs := rfl

private theorem find?_append (name : Text) (first second : List (Text × Value)) :
    find? name (first ++ second) = (find? name first).or (find? name second) := by
  induction first with
  | nil => rfl
  | cons head rest ih =>
    rcases head with ⟨other, value⟩
    by_cases same : name = other
    · simp [find?, same]
    · simp [find?, same, ih]

theorem isSome_find?_iff {name : Text} {entries : List (Text × Value)} :
    (find? name entries).isSome ↔ name ∈ entries.map (·.1) := by
  induction entries with
  | nil => simp [find?]
  | cons head rest ih =>
    rcases head with ⟨other, value⟩
    by_cases same : name = other
    · simp [find?, same]
    · simpa [find?, same] using ih

/-- Of the pairs with one name the last counts, and other names keep what they had. -/
theorem get?_overwrite (map : NameMap Value) (pairs : List (Text × Value)) (name : Text) :
    (map.overwrite pairs).get? name = (find? name pairs.reverse).or (map.get? name) := by
  induction pairs generalizing map with
  | nil => rfl
  | cons pair rest ih =>
    rw [overwrite_cons, ih, List.reverse_cons, find?_append, Option.or_assoc, get?_insert]
    by_cases same : name = pair.1
    · simp [find?, same]
    · simp [find?, same]

/-- Insertions under different names commute. -/
theorem insert_comm (map : NameMap Value) {first second : Text} (different : first ≠ second)
    (left right : Value) :
    (map.insert first left).insert second right = (map.insert second right).insert first left := by
  ext query
  simp only [get?_insert]
  by_cases h : query = second <;> by_cases h' : query = first <;> simp_all

/-- Inserting the value that a name already has changes nothing. -/
theorem insert_eq_self {map : NameMap Value} {name : Text} {value : Value}
    (held : map.get? name = some value) : map.insert name value = map := by
  ext query
  rw [get?_insert]
  split
  · next same => rw [same, held]
  · rfl

end NameMap

end FormFill
