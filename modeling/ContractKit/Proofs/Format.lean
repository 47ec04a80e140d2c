import ContractKit.Config.Format
import ContractKit.Proofs.Json
import ContractKit.Proofs.Result

/-!
# Checked members

What the checks of `Format` accept, and sections that declare named records: a record that is read
back from its own declaration is read back from the section (`Format.read_section`).
-/

namespace ContractKit

namespace Format

/-! ## Checks -/

theorem text_str {what t : Text} (h : t ≠ []) : text what (.str t) = .ok t :=
  if_neg h

theorem text_eq_ok_iff {what t : Text} {raw : Json} :
    text what raw = .ok t ↔ raw = .str t ∧ t ≠ [] := by
  constructor
  · intro h
    unfold text at h
    split at h
    · split_ifs at h with hempty
      obtain rfl := Except.ok.inj h
      exact ⟨rfl, hempty⟩
    · cases h
  · rintro ⟨rfl, h⟩
    exact text_str h

theorem members_eq_ok_iff {what : Text} {raw : Json} {found : List (Text × Json)} :
    members what raw = .ok found ↔ raw = .obj found := by
  unfold members
  split
  · rw [Except.ok.injEq, Json.obj.injEq]
  · next hno =>
    constructor
    · intro h
      cases h
    · rintro rfl
      exact absurd rfl (hno found)

theorem mem_of_get? {name : Text} {found : List (Text × Json)} {raw : Json}
    (h : Entries.get? name found = some raw) : (name, raw) ∈ found := by
  induction found with
  | nil => cases h
  | cons member rest ih =>
    rw [Entries.get?] at h
    split_ifs at h with hkey
    · rw [← Option.some.inj h, ← hkey]
      exact List.mem_cons_self
    · exact List.mem_cons_of_mem _ (ih h)

/-- A member of a value with distinct names has distinct names, and so has its default. -/
theorem hasDistinctNames_fieldOr (name : Text) {default : Json} {found : List (Text × Json)}
    (h : Json.HasDistinctNames (.obj found)) (hdefault : default.HasDistinctNames) :
    (fieldOr name default found).HasDistinctNames := by
  unfold fieldOr
  cases hget : Entries.get? name found with
  | none => exact hdefault
  | some raw => exact h.of_mem (mem_of_get? hget)

variable {floats : Prop}

theorem isNormal_fieldOr (name : Text) {default : Json} {found : List (Text × Json)}
    (h : Json.IsNormal floats (.obj found)) (hdefault : default.IsNormal floats) :
    (fieldOr name default found).IsNormal floats := by
  unfold fieldOr
  cases hget : Entries.get? name found with
  | none => exact hdefault
  | some raw => exact (h.of_mem (mem_of_get? hget)).2

theorem isNormal_field (name : Text) {found : List (Text × Json)}
    (h : Json.IsNormal floats (.obj found)) : (field name found).IsNormal floats :=
  isNormal_fieldOr name h .null

theorem isJoined_of_text {what t : Text} {raw : Json} (hraw : raw.IsNormal floats)
    (h : text what raw = .ok t) : t.IsJoined := by
  obtain ⟨rfl, -⟩ := text_eq_ok_iff.mp h
  exact hraw.joined

/-! ## Sections of named records -/

section

variable {ρ : Type} {name : ρ → Text} {declare : ρ → Json} {records : List ρ}

theorem object_declarations (h : (records.map name).Nodup) :
    Json.object (records.map fun r => (name r, declare r)) =
      .obj (records.map fun r => (name r, declare r)) := by
  refine Json.object_of_nodup ?_
  rw [Entries.names, List.map_map]
  exact h

/-- Records under distinct names are read back from the section exactly if each is read back from its
declaration. -/
theorem read_section_iff (read : Text → Json → Except FormatError ρ) (what : Text)
    (hnames : (records.map name).Nodup) :
    (members what (Json.object (records.map fun r => (name r, declare r))) >>= fun found =>
      found.mapM fun member => read member.1 member.2) = .ok records ↔
      ∀ r ∈ records, read (name r) (declare r) = .ok r := by
  rw [object_declarations hnames, members, ok_bind, mapM_eq_ok_iff, List.forall₂_map_left_iff,
    List.forall₂_same]

theorem read_section (read : Text → Json → Except FormatError ρ) (what : Text)
    (hnames : (records.map name).Nodup)
    (h : ∀ r ∈ records, read (name r) (declare r) = .ok r) :
    (members what (Json.object (records.map fun r => (name r, declare r))) >>= fun found =>
      found.mapM fun member => read member.1 member.2) = .ok records :=
  (read_section_iff read what hnames).mpr h

/-- A section is read only if each of its records is read from its declaration. -/
theorem exists_of_read_section (read : Text → Json → Except FormatError ρ) {what : Text}
    {found : List ρ} (hnames : (records.map name).Nodup)
    (h : (members what (Json.object (records.map fun r => (name r, declare r))) >>= fun found =>
      found.mapM fun member => read member.1 member.2) = .ok found) :
    ∀ r ∈ records, ∃ r', read (name r) (declare r) = .ok r' := by
  rw [object_declarations hnames, members, ok_bind, mapM_eq_ok_iff, List.forall₂_map_left_iff] at h
  intro r hr
  obtain ⟨r', -, hread⟩ := exists_left_of_forall₂ h r hr
  exact ⟨r', hread⟩

/-- What reading gives to each record, it gives to the records of a section; their names are distinct
as those of the section are. -/
theorem of_read_section (read : Text → Json → Except FormatError ρ) {P : ρ → Prop} {what : Text}
    {raw : Json}
    (hread : ∀ place raw r, read place raw = .ok r → name r = place ∧ P r)
    (hraw : raw.HasDistinctNames)
    (h : (members what raw >>= fun found => found.mapM fun member => read member.1 member.2) =
      .ok records) :
    (records.map name).Nodup ∧ ∀ r ∈ records, P r := by
  obtain ⟨found, hfound, h⟩ := bind_eq_ok_iff.mp h
  obtain rfl := members_eq_ok_iff.mp hfound
  have hforall := mapM_eq_ok_iff.mp h
  have hsame : List.Forall₂ (· = ·) (records.map name) (Entries.names found) := by
    rw [Entries.names, List.forall₂_map_left_iff, List.forall₂_map_right_iff]
    exact flip_of_forall₂ hforall fun _ _ _ hr => (hread _ _ _ hr).1
  rw [List.forall₂_eq_eq_eq] at hsame
  rw [hsame]
  refine ⟨hraw.names_nodup, fun r hr => ?_⟩
  obtain ⟨member, -, hmember⟩ := exists_right_of_forall₂ hforall r hr
  exact (hread _ _ _ hmember).2

/-- A section of normal declarations is normal. -/
theorem isNormal_section (hnames : (records.map name).Nodup)
    (hjoined : ∀ r ∈ records, (name r).IsJoined)
    (h : ∀ r ∈ records, (declare r).IsNormal floats) :
    (Json.object (records.map fun r => (name r, declare r))).IsNormal floats := by
  rw [object_declarations hnames]
  refine .obj ?_ ?_ ?_
  · rwa [Entries.names, List.map_map]
  · exact List.forall_mem_map.mpr hjoined
  · exact List.forall_mem_map.mpr h

/-- What reading gives to a record from a normal declaration, it gives to the records of a normal
section. -/
theorem forall_of_read_section (read : Text → Json → Except FormatError ρ) {P : ρ → Prop}
    {what : Text} {raw : Json} (hraw : raw.IsNormal floats)
    (hread : ∀ {place raw r}, place.IsJoined → raw.IsNormal floats → read place raw = .ok r → P r)
    (h : (members what raw >>= fun found => found.mapM fun member => read member.1 member.2) =
      .ok records) : ∀ r ∈ records, P r := by
  obtain ⟨found, hfound, h⟩ := bind_eq_ok_iff.mp h
  obtain rfl := members_eq_ok_iff.mp hfound
  intro r hr
  obtain ⟨member, hmem, hmember⟩ := exists_right_of_forall₂ (mapM_eq_ok_iff.mp h) r hr
  obtain ⟨hplace, hitem⟩ := hraw.of_mem hmem
  exact hread hplace hitem hmember

end

end Format

end ContractKit
