import ContractKit.Proofs.Contracts

/-!
# Normal forms of the contracts section

Several declarations stand for the same records: a source with an empty list of aliases for what the
source alone stands for, and members with other names for nothing at all. The records of a declaration
collapse into the shortest one of these (`ContractForm.collapse_expand`). So a section that is decoded
and encoded again comes back with each of its declarations in normal form, whatever the default network
is (`Contracts.encode_normalForm`).
-/

namespace ContractKit

namespace ContractForm

/-- The shortest declaration with the same records. -/
def shortest : ContractForm → ContractForm
  | aliased source [] => simple source
  | form => form

/-- The normal form of a declaration: its location alone if there are no aliases, and otherwise the
source and the aliases as they are. -/
def normalForm (raw : Json) : Json :=
  match raw with
  | .obj members =>
    match Entries.get? "aliases" members with
    | none | some (.obj []) => Format.field "source" members
    | some aliases => .obj [("source", Format.field "source" members), ("aliases", aliases)]
  | _ => raw

/-- What is read from an object: its source, and its aliases or none. -/
theorem of_read_obj {name : Text} {members : List (Text × Json)} {form : ContractForm}
    (h : read name (.obj members) = .ok form) : ∃ source aliases, form = aliased source aliases ∧
      Entries.get? "source" members = some (.str source) ∧
      Format.fieldOr "aliases" (.obj []) members =
        .obj (aliases.map fun entry => (entry.1, .str entry.2)) := by
  rw [read] at h
  cases hget : Entries.get? "source" members with
  | none =>
    rw [hget] at h
    cases h
  | some raw =>
    simp only [hget] at h
    obtain ⟨source, hsource, h⟩ := bind_eq_ok_iff.mp h
    obtain ⟨found, hfound, h⟩ := bind_eq_ok_iff.mp h
    obtain ⟨aliases, haliases, h⟩ := bind_eq_ok_iff.mp h
    obtain rfl := Except.ok.inj h
    obtain ⟨rfl, -⟩ := Format.text_eq_ok_iff.mp hsource
    obtain ⟨rfl, -⟩ := readAliases_eq_ok_iff.mp haliases
    exact ⟨source, aliases, rfl, rfl, Format.members_eq_ok_iff.mp hfound⟩

/-- The shortest form of what is read from a declaration is the normal form of the declaration. -/
theorem json_shortest {name : Text} {raw : Json} {form : ContractForm}
    (h : read name raw = .ok form) : form.shortest.json = normalForm raw := by
  cases raw with
  | str location =>
    obtain ⟨_, hlocation, h⟩ := bind_eq_ok_iff.mp h
    obtain rfl := Except.ok.inj h
    exact (Format.text_eq_ok_iff.mp hlocation).1.symm
  | obj members =>
    obtain ⟨source, aliases, rfl, hsource, haliases⟩ := of_read_obj h
    have hfield : Format.field "source" members = .str source := by
      rw [Format.field, hsource, Option.getD_some]
    rw [Format.fieldOr] at haliases
    cases hmembers : Entries.get? "aliases" members with
    | none =>
      rw [hmembers, Option.getD_none, Json.obj.injEq] at haliases
      obtain rfl := List.map_eq_nil_iff.mp haliases.symm
      simp only [shortest, json, normalForm, hmembers, hfield]
    | some value =>
      rw [hmembers, Option.getD_some] at haliases
      subst haliases
      cases aliases with
      | nil => simp only [shortest, json, normalForm, hmembers, hfield, List.map_nil]
      | cons entry rest =>
        simp only [shortest, json, normalForm, hmembers, hfield, List.map_cons]
  | _ => cases h

/-- A record without alias on the default network collapses into its location. -/
theorem collapse_singleton (name location default : Text) :
    collapse name default [⟨name, location, default, []⟩] = .ok (simple location) := by
  simp [collapse, collapseUnaliased, List.eraseDups_cons]

/-- Records with aliases on different networks collapse into their location and the aliases. -/
theorem collapse_aliased {name default : Text} {first : Contract} {rest : List Contract}
    (hsame : ∀ r ∈ first :: rest, r.location = first.location)
    (haliases : ∀ r ∈ first :: rest, r.aliasAddress ≠ [])
    (hnetworks : ((first :: rest).map (·.network)).Nodup) :
    collapse name default (first :: rest) = .ok (aliased first.location
      ((first :: rest).map fun r => (r.network, r.aliasAddress))) := by
  have hlocations : ¬ 1 < ((first :: rest).map (·.location)).eraseDups.length := by
    rw [length_eraseDups_le_one_iff]
    intro a ha b hb
    obtain ⟨r, hr, rfl⟩ := List.mem_map.mp ha
    obtain ⟨s, hs, rfl⟩ := List.mem_map.mp hb
    rw [hsame r hr, hsame s hs]
  have hfind : (first :: rest).find? (·.aliasAddress = []) = none := by simpa using haliases
  rw [collapse, if_neg hlocations]
  simp only [hfind, nodup_iff_length_eraseDups.mpr hnetworks, if_true, ofList_aliases hnetworks]
  rfl

/-- The records of a declaration collapse into its shortest form. -/
theorem collapse_expand {form : ContractForm} (name default : Text)
    (haliases : ∀ entry ∈ form.aliases, entry.2 ≠ []) (hnetworks : form.aliases.names.Nodup) :
    collapse name default (form.expand name default) = .ok form.shortest := by
  match form with
  | simple location => exact collapse_singleton name location default
  | aliased source [] => exact collapse_singleton name source default
  | aliased source (entry :: rest) =>
    obtain ⟨record, hrecord⟩ : ∃ record : Text × Text → Contract,
        record = fun entry => ⟨name, source, entry.1, entry.2⟩ := ⟨_, rfl⟩
    have hexpand : (aliased source (entry :: rest)).expand name default =
        record entry :: rest.map record := by
      rw [hrecord]
      rfl
    have hcollapse : collapse name default (record entry :: rest.map record) =
        .ok (aliased (record entry).location
          ((record entry :: rest.map record).map fun r => (r.network, r.aliasAddress))) := by
      refine collapse_aliased ?_ ?_ ?_ <;> rw [← List.map_cons]
      · rw [List.forall_mem_map, hrecord]
        exact fun _ _ => rfl
      · rw [List.forall_mem_map, hrecord]
        exact haliases
      · rw [List.map_map, hrecord]
        exact hnetworks
    rw [hexpand, hcollapse, ← List.map_cons, List.map_map, hrecord]
    exact congrArg (fun aliases => Except.ok (aliased source aliases)) (List.map_id' _)

end ContractForm

namespace Contracts

/-- A section has the names of its records, and the records of each name are those that its declaration
expands to. -/
theorem expands_of_decode {members : List (Text × Json)} {default : Text} {contracts : Contracts}
    (hraw : Json.HasDistinctNames (.obj members))
    (h : decode (.obj members) default = .ok contracts) :
    contracts.names = Entries.names members ∧
      ∀ member ∈ members, Expands default member (contracts.named member.1) := by
  obtain ⟨groups, hexpands, rfl⟩ := decodeMembers_eq_ok_iff.mp h
  have hgroups := isGroup_of_expands hraw hexpands
  refine ⟨names_flatten hgroups hraw.names_nodup, ?_⟩
  rw [← map_named_flatten hgroups hraw.names_nodup, Entries.names, List.map_map,
    List.forall₂_map_right_iff, List.forall₂_same] at hexpands
  exact hexpands

/-- Decoding a section and encoding its records gives the section with each declaration in normal form,
under the same names in the same order. -/
theorem encode_normalForm {raw : Json} {default : Text} {contracts : Contracts}
    (hraw : raw.HasDistinctNames) (h : decode raw default = .ok contracts) :
    ∃ members, raw = .obj members ∧ contracts.encode default =
      .ok (.obj (members.map fun (name, raw) => (name, ContractForm.normalForm raw))) := by
  obtain ⟨members, hmembers, -⟩ := bind_eq_ok_iff.mp h
  obtain rfl := Format.members_eq_ok_iff.mp hmembers
  obtain ⟨hnames, hexpands⟩ := expands_of_decode hraw h
  refine ⟨members, rfl, encode_eq_ok_iff.mpr ⟨_, rfl, ?_⟩⟩
  rw [hnames, Entries.names, List.forall₂_map_left_iff, List.forall₂_map_right_iff,
    List.forall₂_same]
  intro member hmember
  obtain ⟨form, hform, hnamed⟩ := hexpands member hmember
  obtain ⟨-, haliases, hnetworks⟩ := ContractForm.of_read (hraw.of_mem hmember) hform
  refine ⟨form.shortest, ?_, ?_⟩
  · rw [hnamed, ContractForm.collapse_expand member.1 default haliases hnetworks]
  · rw [ContractForm.json_shortest hform]

/-- Three ways to declare a location alone, and aliases before their source beside a member that stands
for nothing. -/
theorem encode_normalForm_of_four :
    ∃ (raw : Json) (contracts : Contracts), raw.HasDistinctNames ∧
      Contracts.decode raw "testnet" = .ok contracts ∧
      contracts.map (·.network) = ["testnet", "testnet", "testnet", "mainnet", "testnet"] ∧
      contracts.encode "testnet" = .ok (.obj [("A", .str "a.cdc"), ("B", .str "b.cdc"),
        ("C", .str "c.cdc"), ("D", .obj [("source", .str "d.cdc"),
          ("aliases", .obj [("mainnet", .str "0x01"), ("testnet", .str "0x02")])])]) := by
  obtain ⟨raw, hraw⟩ : ∃ raw : Json, raw = .obj [("A", .str "a.cdc"),
    ("B", .obj [("source", .str "b.cdc"), ("aliases", .obj [])]),
    ("C", .obj [("source", .str "c.cdc")]),
    ("D", .obj [("aliases", .obj [("mainnet", .str "0x01"), ("testnet", .str "0x02")]),
      ("source", .str "d.cdc"), ("note", .null)])] := ⟨_, rfl⟩
  have hdistinct : raw.HasDistinctNames := by
    rw [hraw]
    refine .obj (by decide) ?_
    simp only [List.forall_mem_cons, List.not_mem_nil, false_imp_iff, implies_true, and_true]
    refine ⟨.str _, .obj (by decide) ?_, .obj (by decide) ?_, .obj (by decide) ?_⟩ <;>
      simp only [List.forall_mem_cons, List.not_mem_nil, false_imp_iff, implies_true, and_true]
    · exact ⟨.str _, .empty⟩
    · exact .str _
    · refine ⟨.obj (by decide) ?_, .str _, .null⟩
      simpa using ⟨.str _, .str _⟩
  obtain ⟨contracts, hcontracts⟩ :
      ∃ contracts, Contracts.decode raw "testnet" = .ok contracts := by
    rw [hraw]
    exact ⟨_, rfl⟩
  obtain ⟨members, hmembers, hencode⟩ := encode_normalForm hdistinct hcontracts
  have hnetworks : contracts.map (·.network) =
      ["testnet", "testnet", "testnet", "mainnet", "testnet"] := by
    rw [hraw] at hcontracts
    obtain rfl := Except.ok.inj (hcontracts.symm.trans rfl)
    rfl
  refine ⟨raw, contracts, hdistinct, hcontracts, hnetworks, hencode.trans ?_⟩
  rw [hraw] at hmembers
  obtain rfl := Json.obj.inj hmembers
  rfl

end Contracts

end ContractKit
