import ContractKit.Json.Basic
import ContractKit.Proofs.Entries
import ContractKit.Proofs.JsonString

/-!
# Values of documents

The JSON values that documents consist of have every name of an object once
(`Json.HasDistinctNames`). What a text holds is normal besides (`Json.IsNormal`): its numbers and
strings are such that they are read back when they are written.
-/

namespace ContractKit.Json

/-- Every object in a JSON value has each of its names once. -/
inductive HasDistinctNames : Json → Prop where
  | null : HasDistinctNames .null
  | bool (value : Bool) : HasDistinctNames (.bool value)
  | int (value : Int) : HasDistinctNames (.int value)
  | float (value : Binary64) : HasDistinctNames (.float value)
  | str (value : Text) : HasDistinctNames (.str value)
  | arr {items : List Json} (hitems : ∀ item ∈ items, HasDistinctNames item) :
      HasDistinctNames (.arr items)
  | obj {members : List (Text × Json)} (hnames : (Entries.names members).Nodup)
      (hmembers : ∀ member ∈ members, HasDistinctNames member.2) : HasDistinctNames (.obj members)

/-- Whole numbers are short, strings and names are joined, and the names of an object are distinct, at
every depth. Floating numbers are there only if `floats` says so. -/
inductive IsNormal (floats : Prop) : Json → Prop where
  | null : IsNormal floats .null
  | bool (value : Bool) : IsNormal floats (.bool value)
  | int {value : Int} (h : Numeral.IsShort value) : IsNormal floats (.int value)
  | float (value : Binary64) (h : floats) : IsNormal floats (.float value)
  | str {value : Text} (h : value.IsJoined) : IsNormal floats (.str value)
  | arr {items : List Json} (hitems : ∀ item ∈ items, IsNormal floats item) :
      IsNormal floats (.arr items)
  | obj {members : List (Text × Json)} (hnames : (Entries.names members).Nodup)
      (hjoined : ∀ member ∈ members, member.1.IsJoined)
      (hmembers : ∀ member ∈ members, IsNormal floats member.2) : IsNormal floats (.obj members)

theorem object_of_nodup {members : List (Text × Json)} (h : (Entries.names members).Nodup) :
    object members = .obj members := by
  rw [object, Entries.ofList_of_nodup h]

/-! ## Parts -/

namespace HasDistinctNames

variable {members : List (Text × Json)}

theorem empty : HasDistinctNames (.obj []) :=
  .obj List.nodup_nil (by simp)

theorem names_nodup (h : HasDistinctNames (.obj members)) : (Entries.names members).Nodup := by
  cases h with
  | obj hnames _ => exact hnames

theorem of_mem (h : HasDistinctNames (.obj members)) {member : Text × Json}
    (hmem : member ∈ members) : HasDistinctNames member.2 := by
  cases h with
  | obj _ hmembers => exact hmembers member hmem

end HasDistinctNames

namespace IsNormal

variable {floats : Prop} {members : List (Text × Json)}

theorem empty : IsNormal floats (.obj []) :=
  .obj List.nodup_nil (by simp) (by simp)

theorem empty_arr : IsNormal floats (.arr []) :=
  .arr (by simp)

theorem joined {t : Text} (h : IsNormal floats (.str t)) : t.IsJoined := by
  cases h with
  | str h => exact h

theorem short {n : Int} (h : IsNormal floats (.int n)) : Numeral.IsShort n := by
  cases h with
  | int h => exact h

theorem of_item {items : List Json} (h : IsNormal floats (.arr items)) {item : Json}
    (hitem : item ∈ items) : IsNormal floats item := by
  cases h with
  | arr hitems => exact hitems item hitem

theorem names_nodup (h : IsNormal floats (.obj members)) : (Entries.names members).Nodup := by
  cases h with
  | obj hnames _ _ => exact hnames

theorem of_mem (h : IsNormal floats (.obj members)) {member : Text × Json}
    (hmem : member ∈ members) : member.1.IsJoined ∧ IsNormal floats member.2 := by
  cases h with
  | obj _ hjoined hmembers => exact ⟨hjoined member hmem, hmembers member hmem⟩

/-- An object is normal if its values are and its names can stand in one object. -/
theorem of_zip (names : List Text) (values : List Json) (hlength : names.length ≤ values.length)
    (hnames : names.Nodup ∧ ∀ name ∈ names, name.IsJoined)
    (h : ∀ value ∈ values, IsNormal floats value) : IsNormal floats (.obj (names.zip values)) := by
  refine .obj ?_ (fun member hmem => hnames.2 _ (List.of_mem_zip hmem).1)
    fun member hmem => h _ (List.of_mem_zip hmem).2
  rw [Entries.names, List.map_fst_zip hlength]
  exact hnames.1

theorem filter (h : IsNormal floats (.obj members)) (p : Text × Json → Bool) :
    IsNormal floats (.obj (members.filter p)) := by
  refine .obj (h.names_nodup.sublist (List.filter_sublist.map _)) ?_ ?_
  · exact fun member hmem => (h.of_mem (List.mem_of_mem_filter hmem)).1
  · exact fun member hmem => (h.of_mem (List.mem_of_mem_filter hmem)).2

theorem hasDistinctNames {j : Json} (h : IsNormal floats j) : j.HasDistinctNames := by
  induction h with
  | null => exact .null
  | bool value => exact .bool value
  | int _ => exact .int _
  | float value _ => exact .float value
  | str _ => exact .str _
  | arr _ ih => exact .arr ih
  | obj hnames _ _ ih => exact .obj hnames ih

end IsNormal

end ContractKit.Json
