import Mathlib.Data.List.Basic
import PracticeGrammar.NameMap

/-! Laws of maps and sets of names: look-up is membership of an entry, and filling a map with
entries of different names gives the same map in whatever order they come. -/

namespace PracticeGrammar

namespace Entries
variable {α : Type}

theorem ascending_of_names {entries : List (String × α)}
    (ascending : (entries.map (·.1)).Pairwise (· < ·)) : Ascending entries :=
  List.pairwise_map.mp ascending

theorem distinct_of_ascending {entries : List (String × α)} (ascending : Ascending entries) :
    (entries.map (·.1)).Nodup := by
  refine (List.pairwise_map.mpr ascending).imp ?_
  intro first second below same
  exact String.lt_irrefl _ (same ▸ below)

theorem get?_eq_some_of_distinct {entries : List (String × α)} {name : String} {value : α}
    (distinct : (entries.map (·.1)).Nodup) (member : (name, value) ∈ entries) :
    get? entries name = some value := by
  induction entries with
  | nil => cases member
  | cons head rest ih =>
    obtain ⟨absent, distinct⟩ := List.nodup_cons.mp distinct
    rcases List.mem_cons.mp member with rfl | member
    · simp [get?]
    · have different : head.1 ≠ name := by
        rintro rfl
        exact absent (List.mem_map.mpr ⟨_, member, rfl⟩)
      have inside := ih distinct member
      simpa [get?, different] using inside

theorem get?_eq_some_of_mem {entries : List (String × α)} {name : String} {value : α}
    (ascending : Ascending entries) (member : (name, value) ∈ entries) :
    get? entries name = some value :=
  get?_eq_some_of_distinct (distinct_of_ascending ascending) member

theorem mem_of_get?_eq_some {entries : List (String × α)} {name : String} {value : α}
    (found : get? entries name = some value) : (name, value) ∈ entries := by
  obtain ⟨entry, selected, rfl⟩ := Option.map_eq_some_iff.mp found
  have same : entry.1 = name := by simpa using List.find?_some selected
  subst same
  exact List.mem_of_find?_eq_some selected

theorem insert_perm {name : String} (value : α) {entries : List (String × α)}
    (fresh : name ∉ entries.map (·.1)) : (insert name value entries).Perm ((name, value) :: entries) := by
  induction entries with
  | nil => exact .refl _
  | cons head rest ih =>
    simp only [List.map_cons, List.mem_cons, not_or] at fresh
    unfold insert
    split
    · exact .refl _
    · split
      · exact ((ih fresh.2).cons head).trans (.swap _ _ _)
      next notBefore notBehind => exact absurd (eq_of_not_lt notBefore notBehind) fresh.1

end Entries

namespace NameMap
variable {α : Type}

theorem get?_eq_some_iff {map : NameMap α} {name : String} {value : α} :
    map.get? name = some value ↔ (name, value) ∈ map.entries :=
  ⟨Entries.mem_of_get?_eq_some, Entries.get?_eq_some_of_mem map.ascending⟩

theorem mem_names_iff {map : NameMap α} {name : String} :
    name ∈ map.names ↔ ∃ value, (name, value) ∈ map.entries := by
  simp [names]

theorem names_distinct (map : NameMap α) : map.names.Nodup :=
  Entries.distinct_of_ascending map.ascending

theorem mem_names_iff_isSome {map : NameMap α} {name : String} :
    name ∈ map.names ↔ (map.get? name).isSome = true := by
  simp only [mem_names_iff, Option.isSome_iff_exists, get?_eq_some_iff]

theorem mem_names_erase {map : NameMap α} {name other : String} :
    other ∈ (map.erase name).names ↔ other ≠ name ∧ other ∈ map.names := by
  simp only [mem_names_iff_isSome, get?_erase]
  by_cases same : other = name <;> simp [same]

theorem contains_eq_of_names {left right : NameMap α} (same : left.names = right.names)
    (name : String) : left.contains name = right.contains name := by
  rw [Bool.eq_iff_iff, contains_iff, contains_iff, same]

theorem names_eq_of_mem_iff {β : Type} {left : NameMap α} {right : NameMap β}
    (same : ∀ name, name ∈ left.names ↔ name ∈ right.names) : left.names = right.names := by
  have together := (List.perm_ext_iff_of_nodup left.names_distinct right.names_distinct).mpr same
  refine together.eq_of_pairwise ?_ left.names_ascending right.names_ascending
  intro first second _ _ below above
  exact absurd (String.lt_trans below above) (String.lt_irrefl _)

/-- The entries are what look-up finds for the names. -/
theorem entries_eq (map : NameMap α) :
    map.entries = map.names.filterMap fun name => (map.get? name).map (name, ·) := by
  have found : ∀ entry ∈ map.entries, some entry = (map.get? entry.1).map (entry.1, ·) := by
    intro entry member
    rw [get?_eq_some_iff.mpr member, Option.map_some]
  rw [names, List.filterMap_map]
  exact List.filterMap_some.symm.trans (List.filterMap_congr found)

theorem eq_of_get? {left right : NameMap α} (same : ∀ name, left.get? name = right.get? name) :
    left = right := by
  have names : left.names = right.names := by
    apply names_eq_of_mem_iff
    simp only [mem_names_iff_isSome, same, implies_true]
  apply ext
  rw [entries_eq, entries_eq right, names]
  simp only [same]

/-- The order of the entries leaves no choice once it is known which entries there are. -/
theorem eq_of_perm {left right : NameMap α} (same : left.entries.Perm right.entries) : left = right := by
  apply ext
  refine same.eq_of_pairwise ?_ left.ascending right.ascending
  intro first second _ _ below above
  exact absurd (String.lt_trans below above) (String.lt_irrefl _)

theorem foldl_insert_perm {pairs : List (String × α)} {map : NameMap α}
    (distinct : (pairs.map (·.1)).Nodup) (fresh : ∀ name ∈ pairs.map (·.1), name ∉ map.names) :
    (pairs.foldl (fun map pair => map.insert pair.1 pair.2) map).entries.Perm (pairs ++ map.entries) := by
  induction pairs generalizing map with
  | nil => exact .refl _
  | cons head rest ih =>
    obtain ⟨absent, distinct⟩ := List.nodup_cons.mp distinct
    refine (ih distinct ?_).trans ?_
    · intro name member inside
      rcases mem_names_insert.mp inside with rfl | inside
      · exact absent member
      · exact fresh name (List.mem_cons_of_mem _ member) inside
    · have added := Entries.insert_perm head.2 (fresh head.1 List.mem_cons_self)
      exact (added.append_left rest).trans List.perm_middle

/-- Pairs with different names are kept, all of them. -/
theorem ofList_perm {pairs : List (String × α)} (distinct : (pairs.map (·.1)).Nodup) :
    (ofList pairs).entries.Perm pairs := by
  have filled := @foldl_insert_perm α pairs empty distinct (by simp [empty, names])
  rwa [show (empty : NameMap α).entries = [] from rfl, List.append_nil] at filled

/-- A map is filled by its own entries in any order. -/
theorem ofList_eq_of_perm {pairs : List (String × α)} {map : NameMap α}
    (same : pairs.Perm map.entries) : ofList pairs = map := by
  have distinct : (pairs.map (·.1)).Nodup := (same.map Prod.fst).nodup_iff.mpr map.names_distinct
  exact eq_of_perm ((ofList_perm distinct).trans same)

end NameMap

namespace NameSet

theorem mem_names_insert {set : NameSet} {name other : String} :
    other ∈ (set.insert name).names ↔ other = name ∨ other ∈ set.names :=
  NameMap.mem_names_insert

theorem mem_names_singleton {name other : String} : other ∈ (singleton name).names ↔ other = name := by
  rw [singleton, mem_names_insert]
  simp [NameMap.empty, NameMap.names]

theorem mem_names_foldl_insert {names : List String} {set : NameSet} {other : String} :
    other ∈ (names.foldl insert set).names ↔ other ∈ set.names ∨ other ∈ names := by
  induction names generalizing set with
  | nil => simp
  | cons name rest ih =>
    rw [List.foldl_cons, ih, mem_names_insert, List.mem_cons, or_comm (a := other = name), or_assoc]

theorem eq_of_mem_iff {left right : NameSet} (same : ∀ name, name ∈ left.names ↔ name ∈ right.names) :
    left = right := by
  apply NameMap.eq_of_get?
  intro name
  have known := same name
  rw [NameMap.mem_names_iff_isSome, NameMap.mem_names_iff_isSome] at known
  cases first : left.get? name <;> cases second : right.get? name <;> simp_all

end NameSet
end PracticeGrammar
