import ContractKit.Proofs.Plain

/-!
# Documents that can be written

Writing a JSON value gets stuck at a whole number with too many digits. The JSON value of a document
has none (`Document.hasShortNumbers_of_encode`) if the ports of its emulators and the key indexes of its
accounts are short: arguments are written as strings.
-/

namespace ContractKit

/-- Every whole number in a JSON value is short. -/
inductive Json.HasShortNumbers : Json → Prop where
  | null : HasShortNumbers .null
  | bool (value : Bool) : HasShortNumbers (.bool value)
  | int {value : Int} (h : Numeral.IsShort value) : HasShortNumbers (.int value)
  | float (value : Binary64) : HasShortNumbers (.float value)
  | str (value : Text) : HasShortNumbers (.str value)
  | arr {items : List Json} (hitems : ∀ item ∈ items, HasShortNumbers item) :
      HasShortNumbers (.arr items)
  | obj {members : List (Text × Json)} (hmembers : ∀ member ∈ members, HasShortNumbers member.2) :
      HasShortNumbers (.obj members)

open Json (HasShortNumbers)

namespace Json

theorem hasShortNumbers_int_iff {n : Int} : HasShortNumbers (.int n) ↔ Numeral.IsShort n :=
  ⟨fun h => by cases h; assumption, .int⟩

theorem hasShortNumbers_arr_iff {items : List Json} :
    HasShortNumbers (.arr items) ↔ ∀ item ∈ items, HasShortNumbers item :=
  ⟨fun h => by cases h; assumption, .arr⟩

theorem hasShortNumbers_obj_iff {members : List (Text × Json)} :
    HasShortNumbers (.obj members) ↔ ∀ member ∈ members, HasShortNumbers member.2 :=
  ⟨fun h => by cases h; assumption, .obj⟩

end Json

namespace Json.HasShortNumbers

theorem obj_nil : HasShortNumbers (.obj []) :=
  .obj (by simp)

theorem obj_cons {name : Text} {value : Json} {members : List (Text × Json)}
    (hvalue : value.HasShortNumbers) (h : HasShortNumbers (.obj members)) :
    HasShortNumbers (.obj ((name, value) :: members)) := by
  cases h with
  | obj hmembers => exact .obj (List.forall_mem_cons.mpr ⟨hvalue, hmembers⟩)

theorem filter {members : List (Text × Json)} (h : HasShortNumbers (.obj members))
    (p : Text × Json → Bool) : HasShortNumbers (.obj (members.filter p)) := by
  cases h with
  | obj hmembers => exact .obj fun member hmem => hmembers member (List.mem_of_mem_filter hmem)

/-- A section of named declarations. -/
theorem object_map {ρ : Type} {name : ρ → Text} {declare : ρ → Json} {records : List ρ}
    (h : ∀ r ∈ records, (declare r).HasShortNumbers) :
    (Json.object (records.map fun r => (name r, declare r))).HasShortNumbers := by
  refine .obj fun member hmem => ?_
  obtain ⟨r, hr, rfl⟩ := List.mem_map.mp (Entries.mem_of_mem_ofList hmem)
  exact h r hr

end Json.HasShortNumbers

namespace Value

theorem compositional_hasShortNumbers : Compositional HasShortNumbers :=
  ⟨.null, .bool, fun _ => .str _, .arr,
    fun _ _ _ _ h => .obj fun _ hmember => h _ (List.of_mem_zip hmember).2⟩

/-- The wire form of a value has its numbers in strings. -/
theorem hasShortNumbers_of_encode (v : Value) {data : Json} (h : encode v = .ok data) :
    data.HasShortNumbers :=
  compositional_hasShortNumbers.of_encode (fun _ _ _ _ => .str _) h

end Value

/-! ## Sections -/

theorem AccountKey.hasShortNumbers_declaration {key : AccountKey} (h : Numeral.IsShort key.index) :
    (Accounts.keyDeclaration key).HasShortNumbers := by
  have hmember : ∀ material : KeyMaterial, material.member.2.HasShortNumbers := by
    rintro (privateKey | _ | location)
    · exact .str privateKey
    · exact .null
    · exact .str location
  unfold Accounts.keyDeclaration
  split
  · exact .str _
  · exact .obj_cons (.str _) (.obj_cons (.int h) (.obj_cons (.str _) (.obj_cons (.str _)
      (.obj_cons (hmember _) .obj_nil))))

theorem ContractForm.hasShortNumbers_json (form : ContractForm) : form.json.HasShortNumbers := by
  cases form with
  | simple location => exact .str location
  | aliased source aliases =>
    exact .obj_cons (.str source) (.obj_cons (.obj (List.forall_mem_map.mpr fun _ _ => .str _))
      .obj_nil)

theorem Contracts.hasShortNumbers_of_encode {contracts : Contracts} {default : Text} {json : Json}
    (h : encode contracts default = .ok json) : json.HasShortNumbers := by
  obtain ⟨members, rfl, hmembers⟩ := encode_eq_ok_iff.mp h
  refine .obj fun member hmem => ?_
  obtain ⟨name, -, form, -, rfl⟩ := exists_right_of_forall₂ hmembers member hmem
  exact form.hasShortNumbers_json

theorem Deployments.hasShortNumbers_of_encode {deployments : Deployments} {json : Json}
    (h : encode deployments = .ok json) : json.HasShortNumbers := by
  have hitem : ∀ {item : DeploymentItem} {json : Json}, item.record = .ok json →
      json.HasShortNumbers := by
    intro item json hrecord
    obtain ⟨args, hargs, rfl⟩ := DeploymentItem.record_eq_ok_iff.mp hrecord
    refine .obj_cons (.str _) (.obj_cons (.arr fun data hdata => ?_) .obj_nil)
    obtain ⟨v, -, hencode⟩ :=
      exists_right_of_forall₂ (Value.encodeItems_eq_ok_iff.mp hargs) data hdata
    exact v.hasShortNumbers_of_encode hencode
  obtain ⟨records, hrecords, rfl⟩ := encode_eq_ok_iff.mp h
  refine .arr fun record hrecord => ?_
  obtain ⟨deployment, -, hdeployment⟩ := exists_right_of_forall₂ hrecords record hrecord
  obtain ⟨items, hitems, rfl⟩ := Deployment.record_eq_ok_iff.mp hdeployment
  refine .obj_cons (.str _) (.obj_cons (.str _) (.obj_cons (.arr fun data hdata => ?_) .obj_nil))
  obtain ⟨item, -, hdata⟩ := exists_right_of_forall₂ hitems data hdata
  exact hitem hdata

/-! ## Documents -/

namespace Document

/-- The ports and the key indexes are short. -/
structure HasShortNumbers (document : Document) : Prop where
  emulators : ∀ e ∈ document.emulators, Numeral.IsShort e.port
  accounts : ∀ a ∈ document.accounts, Numeral.IsShort a.key.index

variable {document : Document}

theorem IsPlain.hasShortNumbers (h : document.IsPlain) (hproper : document.IsProper) :
    document.HasShortNumbers :=
  ⟨fun e he => Emulator.isShort_port (hproper.emulators.2 e he), fun a ha => (h.accounts a ha).2.1⟩

/-- A document with short numbers has a JSON value that can be written, if it has one. -/
theorem hasShortNumbers_of_encode {json : Json} {settings : Settings}
    (h : document.HasShortNumbers) (hjson : document.encode settings = .ok json) :
    json.HasShortNumbers := by
  obtain ⟨contracts, deployments, hcontracts, hdeployments, rfl⟩ := encode_eq_ok_iff.mp hjson
  have hemulators : document.emulators.encode.HasShortNumbers := .object_map fun e he =>
    .obj_cons (.int (h.emulators e he)) (.obj_cons (.str _) .obj_nil)
  have hnetworks : document.networks.encode.HasShortNumbers := by
    refine .object_map fun n _ => ?_
    unfold Networks.declaration
    split_ifs
    · exact .str _
    · exact .obj_cons (.str _) (.obj_cons (.str _) .obj_nil)
  have haccounts : document.accounts.encode.HasShortNumbers := .object_map fun a ha =>
    .obj_cons (.str _) (.obj_cons (AccountKey.hasShortNumbers_declaration (h.accounts a ha)) .obj_nil)
  have hall : Json.HasShortNumbers (.obj (document.sectionMembers contracts deployments)) :=
    .obj_cons hemulators (.obj_cons (Contracts.hasShortNumbers_of_encode hcontracts)
      (.obj_cons hnetworks (.obj_cons haccounts
        (.obj_cons (Deployments.hasShortNumbers_of_encode hdeployments) .obj_nil))))
  exact hall.filter _

end Document

end ContractKit
