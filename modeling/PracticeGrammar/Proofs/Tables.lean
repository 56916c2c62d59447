import PracticeGrammar.Proofs.NameMaps

/-! Tables of names, as hashing keeps them: every name occurs once, but the order in which the
entries are met is up to the table and may change with every insertion. Sorting the entries takes
all of this away. -/

namespace PracticeGrammar

namespace Entries
variable {α : Type}

theorem get?_eq_some_iff_mem {entries : List (String × α)} {name : String} {value : α}
    (distinct : (entries.map (·.1)).Nodup) :
    get? entries name = some value ↔ (name, value) ∈ entries :=
  ⟨mem_of_get?_eq_some, get?_eq_some_of_distinct distinct⟩

theorem get?_eq_of_perm {left right : List (String × α)} (distinct : (left.map (·.1)).Nodup)
    (same : left.Perm right) (name : String) : get? left name = get? right name := by
  have others : (right.map (·.1)).Nodup := (same.map _).nodup_iff.mp distinct
  apply Option.ext
  intro value
  rw [get?_eq_some_iff_mem distinct, get?_eq_some_iff_mem others, same.mem_iff]

/-- The value of the last pair of a name. -/
def last? (pairs : List (String × α)) (name : String) : Option α := get? pairs.reverse name

theorem last?_cons (name other : String) (value : α) (pairs : List (String × α)) :
    last? ((name, value) :: pairs) other =
      (last? pairs other).or (if other = name then some value else none) := by
  unfold last? get?
  rw [List.reverse_cons, List.find?_append]
  by_cases same : other = name
  · subst same
    cases pairs.reverse.find? (·.1 == other) <;> simp
  · have different : (name == other) = false := beq_eq_false_iff_ne.mpr (Ne.symm same)
    simp [same, different]

end Entries

namespace NameMap
variable {α : Type}

theorem get?_foldl_insert (pairs : List (String × α)) (map : NameMap α) (name : String) :
    (pairs.foldl (fun map pair => map.insert pair.1 pair.2) map).get? name =
      (Entries.last? pairs name).or (map.get? name) := by
  induction pairs generalizing map with
  | nil => rfl
  | cons pair rest ih =>
    rw [List.foldl_cons, ih, Entries.last?_cons, Option.or_assoc]
    by_cases same : name = pair.1
    · subst same
      rw [get?_insert_self, if_pos rfl, Option.some_or]
    · rw [get?_insert_other _ _ same, if_neg same, Option.none_or]

theorem get?_ofList (pairs : List (String × α)) (name : String) :
    (ofList pairs).get? name = Entries.last? pairs name := by
  rw [ofList, get?_foldl_insert]
  exact Option.or_none

end NameMap

/-- The entries stand in the order in which they are met. -/
structure Table (α : Type) where
  entries : List (String × α)
  distinct : (entries.map (·.1)).Nodup

namespace Table
variable {α : Type}

def empty : Table α := ⟨[], .nil⟩

def names (table : Table α) : List String := table.entries.map (·.1)

def size (table : Table α) : Nat := table.entries.length

def contains (table : Table α) (name : String) : Bool := table.entries.any (·.1 == name)

def get? (table : Table α) (name : String) : Option α := Entries.get? table.entries name

/-- What may become of a table by an insertion. The entry replaces one of the same name, and
afterwards all entries may be met in another order. -/
def Inserts (before : Table α) (name : String) (value : α) (after : Table α) : Prop :=
  after.entries.Perm ((name, value) :: before.entries.filter (·.1 != name))

/-- What may become of a table when pairs are inserted one after another. -/
inductive Fills : Table α → List (String × α) → Table α → Prop where
  | done (table : Table α) : Fills table [] table
  | put {before next after : Table α} {name : String} {value : α} {rest : List (String × α)}
      (inserts : Inserts before name value next) (fills : Fills next rest after) :
      Fills before ((name, value) :: rest) after

theorem mem_names_iff_isSome {table : Table α} {name : String} :
    name ∈ table.names ↔ (table.get? name).isSome = true := by
  simp only [Option.isSome_iff_exists, get?, Entries.get?_eq_some_iff_mem table.distinct, names]
  simp

/-- The value of a name that is known to be in the table. -/
def lookUp (table : Table α) (name : String) (known : name ∈ table.names) : α :=
  (table.get? name).get (mem_names_iff_isSome.mp known)

def inOrder (names : List String) : List String :=
  names.mergeSort fun first second => decide (first ≤ second)

def sortedNames (table : Table α) : List String := inOrder table.names

theorem inOrder_perm (names : List String) : (inOrder names).Perm names :=
  List.mergeSort_perm _ _

theorem mem_sortedNames {table : Table α} {name : String} :
    name ∈ table.sortedNames ↔ name ∈ table.names :=
  (inOrder_perm _).mem_iff

/-- The names in ascending order, each with its value. -/
def ordered (table : Table α) : List (String × α) :=
  table.sortedNames.pmap (fun name known => (name, table.lookUp name known))
    fun _ member => mem_sortedNames.mp member

/-- The map that has the entries of a table. -/
def sorted (table : Table α) : NameMap α := .ofList table.entries

theorem inOrder_eq {names ascending : List String} (same : names.Perm ascending)
    (order : ascending.Pairwise (· < ·)) : inOrder names = ascending := by
  have sorted : (inOrder names).Pairwise (· ≤ ·) := by
    have pairwise := @List.pairwise_mergeSort String (fun first second => decide (first ≤ second))
      (by simpa using fun _ _ _ => String.le_trans) (by simpa using String.le_total) names
    simpa only [decide_eq_true_eq, inOrder] using pairwise
  have notDescending : ascending.Pairwise (· ≤ ·) := order.imp fun below =>
    String.not_lt.mp fun above => String.lt_irrefl _ (String.lt_trans below above)
  refine ((inOrder_perm names).trans same).eq_of_pairwise ?_ sorted notDescending
  intro first second _ _ below above
  exact String.le_antisymm below above

variable (table : Table α)

theorem sorted_perm : table.sorted.entries.Perm table.entries := NameMap.ofList_perm table.distinct

theorem names_sorted_perm : table.names.Perm table.sorted.names := table.sorted_perm.symm.map _

theorem sortedNames_eq : table.sortedNames = table.sorted.names :=
  inOrder_eq table.names_sorted_perm table.sorted.names_ascending

theorem get?_sorted (name : String) : table.sorted.get? name = table.get? name :=
  (Entries.get?_eq_of_perm table.distinct table.sorted_perm.symm name).symm

theorem contains_sorted (name : String) : table.sorted.contains name = table.contains name :=
  table.sorted_perm.any_eq

/-- Looking up the names in ascending order meets the entries of the sorted map. -/
theorem ordered_eq : table.ordered = table.sorted.entries := by
  have along (names : List String) (same : names = table.sorted.entries.map (·.1))
      (known : ∀ name ∈ names, name ∈ table.names) :
      names.pmap (fun name known => (name, table.lookUp name known)) known =
        table.sorted.entries := by
    subst same
    rw [List.pmap_map]
    conv_rhs => rw [← List.map_id table.sorted.entries, ← List.pmap_eq_map (fun _ _ => trivial)]
    apply List.pmap_congr_left
    intro entry member known _
    have found : table.get? entry.1 = some entry.2 := by
      rw [← get?_sorted]
      exact NameMap.get?_eq_some_iff.mpr member
    simp [lookUp, found]
  exact along table.sortedNames table.sortedNames_eq _

variable {table}

theorem Inserts.sorted {before after : Table α} {name : String} {value : α}
    (inserts : Inserts before name value after) :
    after.sorted = before.sorted.insert name value := by
  apply NameMap.eq_of_get?
  intro other
  rw [get?_sorted, get?, Entries.get?_eq_of_perm after.distinct inserts]
  by_cases same : other = name
  · subst same
    rw [NameMap.get?_insert_self]
    simp [Entries.get?]
  · have different : (name == other) = false := beq_eq_false_iff_ne.mpr (Ne.symm same)
    have kept := Entries.get?_filter name other before.entries
    rw [if_neg same] at kept
    rw [NameMap.get?_insert_other _ _ same, get?_sorted, get?, ← kept]
    simp [Entries.get?, different]

theorem Fills.sorted_eq {before after : Table α} {pairs : List (String × α)}
    (fills : Fills before pairs after) :
    after.sorted = pairs.foldl (fun map pair => map.insert pair.1 pair.2) before.sorted := by
  induction fills with
  | done table => rfl
  | put inserts _ ih => rw [ih, inserts.sorted, List.foldl_cons]

/-- Puts an entry before all others, which stay as they are. -/
def put (table : Table α) (name : String) (value : α) : Table α where
  entries := (name, value) :: table.entries.filter (·.1 != name)
  distinct := by
    refine List.nodup_cons.mpr ⟨by simp, ?_⟩
    exact table.distinct.sublist (List.filter_sublist.map _)

/-- A table in which pairs are met from the last to the first. -/
def ofList (pairs : List (String × α)) : Table α :=
  pairs.foldl (fun table pair => table.put pair.1 pair.2) empty

theorem inserts_put (table : Table α) (name : String) (value : α) :
    Inserts table name value (table.put name value) :=
  .refl _

theorem fills_ofList (pairs : List (String × α)) : Fills empty pairs (ofList pairs) := by
  have filled (table : Table α) :
      Fills table pairs (pairs.foldl (fun table pair => table.put pair.1 pair.2) table) := by
    induction pairs generalizing table with
    | nil => exact .done table
    | cons pair rest ih => exact .put (inserts_put table pair.1 pair.2) (ih _)
  exact filled empty

/-- However a table was filled, sorted it is the map of the same pairs. -/
theorem Fills.sorted {pairs : List (String × α)} (fills : Fills .empty pairs table) :
    table.sorted = .ofList pairs :=
  fills.sorted_eq

end Table
end PracticeGrammar
