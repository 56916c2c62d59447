/-! Finite maps from names. The entries stand in strictly ascending order of their names, so a
map has one representation: the order of insertion leaves no trace, and each name occurs once. -/

namespace PracticeGrammar

namespace Entries
variable {α : Type}

def Ascending (entries : List (String × α)) : Prop := entries.Pairwise (·.1 < ·.1)

/-- Puts an entry in its place, in the stead of one with the same name. -/
def insert (name : String) (value : α) : List (String × α) → List (String × α)
  | [] => [(name, value)]
  | entry :: rest =>
    if name < entry.1 then (name, value) :: entry :: rest
    else if entry.1 < name then entry :: insert name value rest
    else (name, value) :: rest

theorem eq_of_not_lt {left right : String} (first : ¬left < right) (second : ¬right < left) :
    left = right :=
  String.le_antisymm (String.not_lt.mp second) (String.not_lt.mp first)

theorem name_of_mem_insert {name : String} {value : α} {entries : List (String × α)}
    {entry : String × α} (member : entry ∈ insert name value entries) :
    entry = (name, value) ∨ entry ∈ entries := by
  induction entries with
  | nil => simpa [insert] using member
  | cons head rest ih => grind [insert]

theorem ascending_insert {name : String} {value : α} {entries : List (String × α)}
    (ascending : Ascending entries) : Ascending (insert name value entries) := by
  induction entries with
  | nil => simp [insert, Ascending]
  | cons head rest ih =>
    have tail := (List.pairwise_cons.mp ascending).2
    have above := (List.pairwise_cons.mp ascending).1
    unfold insert
    split
    next before =>
      refine List.pairwise_cons.mpr ⟨fun entry member => ?_, ascending⟩
      rcases List.mem_cons.mp member with rfl | member
      · exact before
      · exact String.lt_trans before (above entry member)
    next notBefore =>
      split
      next behind =>
        refine List.pairwise_cons.mpr ⟨fun entry member => ?_, ih tail⟩
        rcases name_of_mem_insert member with rfl | member
        · exact behind
        · exact above entry member
      next notBehind =>
        have same := eq_of_not_lt notBefore notBehind
        exact List.pairwise_cons.mpr ⟨fun entry member => same ▸ above entry member, tail⟩

def get? (entries : List (String × α)) (name : String) : Option α :=
  (entries.find? (·.1 == name)).map (·.2)

theorem get?_insert_self (name : String) (value : α) (entries : List (String × α)) :
    get? (insert name value entries) name = some value := by
  induction entries with
  | nil => simp [insert, get?]
  | cons head rest ih => grind [insert, get?, String.lt_irrefl]

theorem get?_insert_other {name other : String} (value : α) (entries : List (String × α))
    (different : other ≠ name) : get? (insert name value entries) other = get? entries other := by
  induction entries with
  | nil => simp [insert, get?, different.symm]
  | cons head rest ih => grind [insert, get?, eq_of_not_lt]

theorem get?_filter (name other : String) (entries : List (String × α)) :
    get? (entries.filter (·.1 != name)) other = if other = name then none else get? entries other := by
  induction entries with
  | nil => simp [get?]
  | cons head rest ih =>
    unfold get? at ih ⊢
    by_cases dropped : head.1 = name <;> by_cases found : head.1 = other
    · simp_all
    · have different : ¬other = name := fun same => found (dropped.trans same.symm)
      simp_all
    · simp_all
    · simp_all

theorem mem_names_insert {name other : String} {value : α} {entries : List (String × α)} :
    other ∈ (insert name value entries).map (·.1) ↔ other = name ∨ other ∈ entries.map (·.1) := by
  induction entries with
  | nil => simp [insert]
  | cons head rest ih => grind [insert, eq_of_not_lt]

end Entries

structure NameMap (α : Type) where
  entries : List (String × α)
  ascending : Entries.Ascending entries

namespace NameMap
variable {α : Type}

theorem ext {left right : NameMap α} (same : left.entries = right.entries) : left = right := by
  cases left; cases right; cases same; rfl

def empty : NameMap α := ⟨[], .nil⟩

def insert (map : NameMap α) (name : String) (value : α) : NameMap α :=
  ⟨Entries.insert name value map.entries, Entries.ascending_insert map.ascending⟩

def erase (map : NameMap α) (name : String) : NameMap α :=
  ⟨map.entries.filter (·.1 != name), map.ascending.filter _⟩

def get? (map : NameMap α) (name : String) : Option α := Entries.get? map.entries name

def contains (map : NameMap α) (name : String) : Bool := map.entries.any (·.1 == name)

/-- The names in ascending order. -/
def names (map : NameMap α) : List String := map.entries.map (·.1)

def size (map : NameMap α) : Nat := map.entries.length

/-- Later pairs replace earlier ones of the same name. -/
def ofList (pairs : List (String × α)) : NameMap α :=
  pairs.foldl (fun map pair => map.insert pair.1 pair.2) empty

theorem names_ascending (map : NameMap α) : map.names.Pairwise (· < ·) :=
  List.pairwise_map.mpr map.ascending

theorem contains_iff {map : NameMap α} {name : String} :
    map.contains name = true ↔ name ∈ map.names := by
  simp only [contains, names, List.any_eq_true, beq_iff_eq, List.mem_map]

theorem get?_insert_self (map : NameMap α) (name : String) (value : α) :
    (map.insert name value).get? name = some value :=
  Entries.get?_insert_self name value map.entries

theorem get?_insert_other (map : NameMap α) {name other : String} (value : α)
    (different : other ≠ name) : (map.insert name value).get? other = map.get? other :=
  Entries.get?_insert_other value map.entries different

theorem get?_erase (map : NameMap α) (name other : String) :
    (map.erase name).get? other = if other = name then none else map.get? other :=
  Entries.get?_filter name other map.entries

theorem mem_names_insert {map : NameMap α} {name other : String} {value : α} :
    other ∈ (map.insert name value).names ↔ other = name ∨ other ∈ map.names :=
  Entries.mem_names_insert

end NameMap

/-- A finite set of names, in ascending order. -/
abbrev NameSet := NameMap Unit

namespace NameSet

def insert (set : NameSet) (name : String) : NameSet := NameMap.insert set name ()

def singleton (name : String) : NameSet := insert NameMap.empty name

end NameSet
end PracticeGrammar
