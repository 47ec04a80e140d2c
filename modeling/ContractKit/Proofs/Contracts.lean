import ContractKit.Config.Contracts
import ContractKit.Proofs.Format

/-!
# The contracts section is lossless

A group of records of one name has a declaration exactly when it is declarable
(`Contracts.IsDeclarable`), and the declaration expands to the group (`ContractForm.expand_of_collapse`).
So a list of records is encoded exactly when all of its groups are declarable, and the section gives
the records back grouped by name (`Contracts.encode_lossless_or_rejected`). Only an empty location,
which the section can express but not read, stands in the way.
-/

namespace ContractKit

/-- A group of records that a declaration stands for: all of one location, and either a single record
without alias on the default network or records with aliases on different networks. -/
def Contracts.IsDeclarable (default : Text) (records : List Contract) : Prop :=
  (∀ r ∈ records, ∀ s ∈ records, r.location = s.location) ∧
    ((∃ r, records = [r] ∧ r.aliasAddress = [] ∧ r.network = default) ∨
      ((∀ r ∈ records, r.aliasAddress ≠ []) ∧ (records.map (·.network)).Nodup))

namespace ContractForm

/-! ## Declarations as JSON -/

/-- The location that a declaration gives to all of its records. -/
def location : ContractForm → Text
  | simple location => location
  | aliased source _ => source

/-- The aliases of a declaration. -/
def aliases : ContractForm → Entries Text
  | simple _ => []
  | aliased _ aliases => aliases

theorem readAliases_eq_ok_iff {name : Text} {members : List (Text × Json)} {aliases : Entries Text} :
    readAliases name members = .ok aliases ↔
      members = aliases.map (fun (network, address) => (network, .str address)) ∧
        ∀ entry ∈ aliases, entry.2 ≠ [] := by
  induction members generalizing aliases with
  | nil =>
    rw [readAliases, Except.ok.injEq]
    constructor
    · rintro rfl
      exact ⟨rfl, by simp⟩
    · rintro ⟨h, -⟩
      exact (List.map_eq_nil_iff.mp h.symm).symm
  | cons member rest ih =>
    obtain ⟨network, raw⟩ := member
    simp only [readAliases, bind_eq_ok_iff, Format.text_eq_ok_iff, ih, Except.ok.injEq]
    constructor
    · rintro ⟨address, ⟨rfl, haddress⟩, others, ⟨rfl, hothers⟩, rfl⟩
      exact ⟨rfl, List.forall_mem_cons.mpr ⟨haddress, hothers⟩⟩
    · rintro ⟨h, hne⟩
      cases aliases with
      | nil => simp at h
      | cons entry others =>
        obtain ⟨hhead, htail⟩ := List.cons.inj h
        obtain ⟨rfl, rfl⟩ := Prod.mk.inj hhead
        exact ⟨entry.2, ⟨rfl, hne entry (by simp)⟩, others,
          ⟨htail, fun e he => hne e (by simp [he])⟩, rfl⟩

/-- A declaration is read back when its location and aliases are not empty. -/
theorem read_json {form : ContractForm} (name : Text) (hlocation : form.location ≠ [])
    (haliases : ∀ entry ∈ form.aliases, entry.2 ≠ []) : read name form.json = .ok form := by
  cases form with
  | simple location =>
    simp only [json, read, Format.text_str (t := location) hlocation]
    rfl
  | aliased source aliases =>
    have hread : readAliases name (aliases.map fun (network, address) => (network, .str address)) =
        .ok aliases := readAliases_eq_ok_iff.mpr ⟨rfl, haliases⟩
    have hsource : Entries.get? "source" [("source", Json.str source), ("aliases",
      .obj (aliases.map fun (network, address) => (network, .str address)))] =
        some (.str source) := rfl
    have hmembers : Format.fieldOr "aliases" (.obj []) [("source", Json.str source), ("aliases",
      .obj (aliases.map fun (network, address) => (network, .str address)))] =
        .obj (aliases.map fun (network, address) => (network, .str address)) := rfl
    simp only [json, read, hsource, hmembers, Format.members, ok_bind, hread,
      Format.text_str (t := source) hlocation]

theorem exists_error_of_read_json {form : ContractForm} (name : Text) (h : form.location = []) :
    ∃ e, read name form.json = .error e := by
  cases form with
  | simple location =>
    obtain rfl : location = [] := h
    exact ⟨_, rfl⟩
  | aliased source aliases =>
    obtain rfl : source = [] := h
    exact ⟨_, rfl⟩

/-- The texts of a declaration are not empty, and its aliases are for different networks. -/
theorem of_read {name : Text} {raw : Json} {form : ContractForm} (hraw : raw.HasDistinctNames)
    (h : read name raw = .ok form) :
    form.location ≠ [] ∧ (∀ entry ∈ form.aliases, entry.2 ≠ []) ∧ form.aliases.names.Nodup := by
  unfold read at h
  split at h
  · obtain ⟨location, hlocation, h⟩ := bind_eq_ok_iff.mp h
    obtain rfl := Except.ok.inj h
    exact ⟨(Format.text_eq_ok_iff.mp hlocation).2, by simp [aliases], List.nodup_nil⟩
  · split at h
    · cases h
    · obtain ⟨source, hsource, h⟩ := bind_eq_ok_iff.mp h
      obtain ⟨members, hmembers, h⟩ := bind_eq_ok_iff.mp h
      obtain ⟨aliases, haliases, h⟩ := bind_eq_ok_iff.mp h
      obtain rfl := Except.ok.inj h
      obtain ⟨rfl, hne⟩ := readAliases_eq_ok_iff.mp haliases
      have hdistinct := Format.hasDistinctNames_fieldOr "aliases" hraw .empty
      rw [Format.members_eq_ok_iff.mp hmembers] at hdistinct
      have hnames := hdistinct.names_nodup
      rw [Entries.names, List.map_map] at hnames
      exact ⟨(Format.text_eq_ok_iff.mp hsource).2, hne, hnames⟩
  · cases h

/-! ## Collapsing and expanding -/

/-- Only a record on the default network has a declaration without aliases, and only alone. -/
theorem of_collapseUnaliased {name default : Text} {records : List Contract} {first : Contract}
    {form : ContractForm} (hmem : first ∈ records)
    (h : collapseUnaliased name default records first = .ok form) :
    records = [first] ∧ first.network = default ∧ form = .simple first.location := by
  unfold collapseUnaliased at h
  split_ifs at h with hlen hnetwork
  refine ⟨?_, hnetwork, (Except.ok.inj h).symm⟩
  obtain ⟨r, rfl⟩ : ∃ r, records = [r] := by
    rw [← List.length_eq_one_iff]
    have := List.length_pos_of_mem hmem
    omega
  rw [List.mem_singleton.mp hmem]

/-- Records on different networks have their aliases in the order of the records. -/
theorem ofList_aliases {records : List Contract} (hnetworks : (records.map (·.network)).Nodup) :
    Entries.ofList (records.map fun r => (r.network, r.aliasAddress)) =
      records.map fun r => (r.network, r.aliasAddress) := by
  refine Entries.ofList_of_nodup ?_
  rw [Entries.names, List.map_map]
  exact hnetworks

/-- The aliases of records that share a name and a location expand to the records. -/
theorem expand_aliased {name default : Text} {first : Contract} {rest : List Contract}
    (hname : ∀ r ∈ first :: rest, r.name = name)
    (hsame : ∀ r ∈ first :: rest, r.location = first.location) :
    (aliased first.location ((first :: rest).map fun r => (r.network, r.aliasAddress))).expand name
      default = first :: rest := by
  have hback : ∀ r ∈ first :: rest,
      (⟨name, first.location, r.network, r.aliasAddress⟩ : Contract) = r := by
    intro r hr
    rw [← hname r hr, ← hsame r hr]
  rw [List.map_cons, expand, ← List.map_cons (f := fun r : Contract => (r.network, r.aliasAddress)),
    List.map_map]
  · exact (List.map_congr_left hback).trans (List.map_id' _)
  · simp

/-- A declaration expands to the records that collapsed into it. -/
theorem expand_of_collapse {name default : Text} {records : List Contract} {form : ContractForm}
    (hne : records ≠ []) (hname : ∀ r ∈ records, r.name = name)
    (h : collapse name default records = .ok form) :
    Contracts.IsDeclarable default records ∧ form.expand name default = records ∧
      (∀ r ∈ records, r.location = form.location) ∧ ∀ entry ∈ form.aliases, entry.2 ≠ [] := by
  simp only [collapse] at h
  split at h
  · cases h
  next hlocations =>
  have hsame : ∀ r ∈ records, ∀ s ∈ records, r.location = s.location := fun r hr s hs =>
    length_eraseDups_le_one_iff.mp hlocations _ (List.mem_map_of_mem hr) _ (List.mem_map_of_mem hs)
  split at h
  · next first hfirst =>
    have hmem : first ∈ records := List.mem_of_find?_eq_some hfirst
    have halias : first.aliasAddress = [] := by simpa using List.find?_some hfirst
    have hfirstName := hname first hmem
    obtain ⟨rfl, hnetwork, rfl⟩ := of_collapseUnaliased hmem h
    refine ⟨⟨hsame, Or.inl ⟨first, rfl, halias, hnetwork⟩⟩, ?_, by simp [location], by simp [aliases]⟩
    rw [expand, ← hnetwork, ← hfirstName, ← halias]
  · next hnone =>
    have halias : ∀ r ∈ records, r.aliasAddress ≠ [] := by simpa using hnone
    split_ifs at h with hnodup
    obtain rfl := Except.ok.inj h
    have hnetworks : (records.map (·.network)).Nodup := nodup_iff_length_eraseDups.mp hnodup
    obtain ⟨first, rest, rfl⟩ := List.exists_cons_of_ne_nil hne
    have hfirst : ∀ r ∈ first :: rest, r.location = first.location :=
      fun r hr => hsame r hr first List.mem_cons_self
    rw [ofList_aliases hnetworks]
    exact ⟨⟨hsame, Or.inr ⟨halias, hnetworks⟩⟩, expand_aliased hname hfirst, hfirst,
      List.forall_mem_map.mpr halias⟩

/-- A declarable group has a declaration. -/
theorem exists_collapse_of_isDeclarable {default : Text} {records : List Contract} (name : Text)
    (h : Contracts.IsDeclarable default records) :
    ∃ form, collapse name default records = .ok form := by
  obtain ⟨hsame, hgroup⟩ := h
  have hlocations : ¬ 1 < (records.map (·.location)).eraseDups.length := by
    rw [length_eraseDups_le_one_iff]
    intro a ha b hb
    obtain ⟨r, hr, rfl⟩ := List.mem_map.mp ha
    obtain ⟨s, hs, rfl⟩ := List.mem_map.mp hb
    exact hsame r hr s hs
  unfold collapse
  rw [if_neg hlocations]
  rcases hgroup with ⟨r, rfl, halias, hnetwork⟩ | ⟨halias, hnetworks⟩
  · have hfind : [r].find? (·.aliasAddress = []) = some r := by simp [halias]
    simp only [hfind]
    exact ⟨.simple r.location, if_pos hnetwork⟩
  · have hfind : records.find? (·.aliasAddress = []) = none := by simpa using halias
    simp only [hfind, nodup_iff_length_eraseDups.mpr hnetworks, if_true]
    exact ⟨_, rfl⟩

end ContractForm

namespace Contracts

/-! ## Groups of records -/

/-- The records grouped by name: groups in the order of their first records, each in order. -/
def regroup (contracts : Contracts) : Contracts :=
  contracts.names.flatMap contracts.named

theorem mem_named {contracts : Contracts} {name : Text} {r : Contract} :
    r ∈ contracts.named name ↔ r ∈ contracts ∧ r.name = name := by
  simp [named]

theorem named_ne_nil {contracts : Contracts} {name : Text} (h : name ∈ contracts.names) :
    contracts.named name ≠ [] := by
  obtain ⟨r, hr, rfl⟩ := List.mem_map.mp (List.mem_eraseDups.mp h)
  exact List.ne_nil_of_mem (mem_named.mpr ⟨hr, rfl⟩)

theorem mem_names {contracts : Contracts} {r : Contract} (h : r ∈ contracts) :
    r.name ∈ contracts.names :=
  List.mem_eraseDups.mpr (List.mem_map_of_mem h)

/-! ## Encoding -/

/-- The member that declares the records of a name. -/
def Declares (contracts : Contracts) (default name : Text) (member : Text × Json) : Prop :=
  ∃ form, ContractForm.collapse name default (contracts.named name) = .ok form ∧
    member = (name, form.json)

theorem collapseNames_eq_ok_iff {contracts : Contracts} {default : Text} {names : List Text}
    {members : List (Text × Json)} :
    collapseNames contracts default names = .ok members ↔
      List.Forall₂ (Declares contracts default) names members := by
  induction names generalizing members with
  | nil =>
    rw [collapseNames, List.forall₂_nil_left_iff, Except.ok.injEq]
    exact eq_comm
  | cons name rest ih =>
    rw [collapseNames, bind_eq_ok_iff, List.forall₂_cons_left_iff]
    simp only [bind_eq_ok_iff, Except.ok.injEq, ih]
    constructor
    · rintro ⟨form, hform, others, hothers, rfl⟩
      exact ⟨_, others, ⟨form, hform, rfl⟩, hothers, rfl⟩
    · rintro ⟨_, others, ⟨form, hform, rfl⟩, hothers, rfl⟩
      exact ⟨form, hform, others, hothers, rfl⟩

theorem encode_eq_ok_iff {contracts : Contracts} {default : Text} {json : Json} :
    encode contracts default = .ok json ↔ ∃ members, json = .obj members ∧
      List.Forall₂ (Declares contracts default) contracts.names members := by
  unfold encode
  simp only [bind_eq_ok_iff, Except.ok.injEq, collapseNames_eq_ok_iff]
  constructor
  · rintro ⟨members, hmembers, rfl⟩
    exact ⟨members, rfl, hmembers⟩
  · rintro ⟨members, rfl, hmembers⟩
    exact ⟨members, hmembers, rfl⟩

theorem isDeclarable_nil (default : Text) : IsDeclarable default [] :=
  ⟨by simp, Or.inr ⟨by simp, by simp⟩⟩

/-- The groups that have a declaration are the declarable ones. -/
theorem exists_encode_iff {contracts : Contracts} {default : Text} :
    (∃ json, encode contracts default = .ok json) ↔
      ∀ name, IsDeclarable default (contracts.named name) := by
  constructor
  · rintro ⟨json, h⟩ name
    obtain ⟨members, -, hmembers⟩ := encode_eq_ok_iff.mp h
    by_cases hname : name ∈ contracts.names
    · obtain ⟨member, -, form, hform, -⟩ := exists_left_of_forall₂ hmembers name hname
      exact (ContractForm.expand_of_collapse (named_ne_nil hname)
        (fun r hr => (mem_named.mp hr).2) hform).1
    · have hempty : contracts.named name = [] := by
        rw [List.eq_nil_iff_forall_not_mem]
        rintro r hr
        obtain ⟨hmem, rfl⟩ := mem_named.mp hr
        exact hname (mem_names hmem)
      rw [hempty]
      exact isDeclarable_nil default
  · intro h
    obtain ⟨members, hmembers⟩ : ∃ members,
        List.Forall₂ (Declares contracts default) contracts.names members := by
      refine exists_forall₂ fun name _ => ?_
      obtain ⟨form, hform⟩ := ContractForm.exists_collapse_of_isDeclarable name (h name)
      exact ⟨(name, form.json), form, hform, rfl⟩
    exact ⟨_, encode_eq_ok_iff.mpr ⟨members, rfl, hmembers⟩⟩

/-! ## Decoding -/

/-- The records of a member of the section. -/
def Expands (default : Text) (member : Text × Json) (group : List Contract) : Prop :=
  ∃ form, ContractForm.read member.1 member.2 = .ok form ∧ group = form.expand member.1 default

theorem decodeMembers_eq_ok_iff {default : Text} {members : List (Text × Json)}
    {contracts : Contracts} :
    decodeMembers default members = .ok contracts ↔
      ∃ groups, List.Forall₂ (Expands default) members groups ∧ contracts = groups.flatten := by
  induction members generalizing contracts with
  | nil =>
    simp only [decodeMembers, List.forall₂_nil_left_iff, Except.ok.injEq]
    constructor
    · rintro rfl
      exact ⟨[], rfl, rfl⟩
    · rintro ⟨groups, rfl, rfl⟩
      rfl
  | cons member rest ih =>
    obtain ⟨name, raw⟩ := member
    simp only [decodeMembers, bind_eq_ok_iff, Except.ok.injEq, ih, List.forall₂_cons_left_iff]
    constructor
    · rintro ⟨form, hform, _, ⟨groups, hgroups, rfl⟩, rfl⟩
      exact ⟨_ :: groups, ⟨_, groups, ⟨form, hform, rfl⟩, hgroups, rfl⟩, List.flatten_cons.symm⟩
    · rintro ⟨_, ⟨_, groups, ⟨form, hform, rfl⟩, hgroups, rfl⟩, rfl⟩
      exact ⟨form, hform, _, ⟨groups, hgroups, rfl⟩, List.flatten_cons⟩

/-- The section that records were encoded to gives them back group by group. -/
theorem decode_encode {contracts : Contracts} {default : Text} {json : Json}
    (h : encode contracts default = .ok json) (hlocation : ∀ r ∈ contracts, r.location ≠ []) :
    decode json default = .ok contracts.regroup := by
  obtain ⟨members, rfl, hmembers⟩ := encode_eq_ok_iff.mp h
  rw [decode, Format.members, ok_bind, decodeMembers_eq_ok_iff]
  refine ⟨contracts.names.map contracts.named, ?_, List.flatMap_def⟩
  rw [List.forall₂_map_right_iff]
  refine flip_of_forall₂ hmembers ?_
  rintro name hname _ ⟨form, hform, rfl⟩
  obtain ⟨-, hexpand, hsame, haliases⟩ := ContractForm.expand_of_collapse (named_ne_nil hname)
    (fun r hr => (mem_named.mp hr).2) hform
  refine ⟨form, ContractForm.read_json name ?_ haliases, hexpand.symm⟩
  obtain ⟨r, hr⟩ := List.exists_mem_of_ne_nil _ (named_ne_nil hname)
  rw [← hsame r hr]
  exact hlocation r (mem_named.mp hr).1

theorem exists_error_of_decode_encode {contracts : Contracts} {default : Text} {json : Json}
    (h : encode contracts default = .ok json) {r : Contract} (hr : r ∈ contracts)
    (hlocation : r.location = []) : ∃ e, decode json default = .error e := by
  obtain ⟨members, rfl, hmembers⟩ := encode_eq_ok_iff.mp h
  refine exists_error_of_forall_ne fun found hfound => ?_
  rw [decode, Format.members, ok_bind, decodeMembers_eq_ok_iff] at hfound
  obtain ⟨groups, hgroups, -⟩ := hfound
  obtain ⟨_, hmember, form, hform, rfl⟩ := exists_left_of_forall₂ hmembers _ (mem_names hr)
  obtain ⟨-, -, hsame, -⟩ := ContractForm.expand_of_collapse (named_ne_nil (mem_names hr))
    (fun s hs => (mem_named.mp hs).2) hform
  obtain ⟨e, he⟩ := ContractForm.exists_error_of_read_json r.name
    ((hsame r (mem_named.mpr ⟨hr, rfl⟩)).symm.trans hlocation)
  obtain ⟨_, -, _, hread, -⟩ := exists_left_of_forall₂ hgroups _ hmember
  rw [he] at hread
  cases hread

/-- Records are encoded exactly when each group of one name is declarable. What they are encoded to
decodes to the records grouped by name, or fails to decode when a location is empty. -/
theorem encode_lossless_or_rejected (contracts : Contracts) (default : Text) :
    ((∃ json, encode contracts default = .ok json) ↔
        ∀ name, IsDeclarable default (contracts.named name)) ∧
      ∀ json, encode contracts default = .ok json →
        ((∀ r ∈ contracts, r.location ≠ []) → decode json default = .ok contracts.regroup) ∧
        ((∃ r ∈ contracts, r.location = []) → ∃ e, decode json default = .error e) := by
  refine ⟨exists_encode_iff, fun json h => ⟨decode_encode h, ?_⟩⟩
  rintro ⟨r, hr, hlocation⟩
  exact exists_error_of_decode_encode h hr hlocation

/-! ## Records of a section -/

/-- A group of records is one that a declaration of the given name expands to. -/
def IsGroup (default name : Text) (group : List Contract) : Prop :=
  group ≠ [] ∧ (∀ r ∈ group, r.name = name ∧ r.location ≠ []) ∧ IsDeclarable default group

theorem isGroup_expand {default : Text} {form : ContractForm} (name : Text)
    (hlocation : form.location ≠ []) (haliases : ∀ entry ∈ form.aliases, entry.2 ≠ [])
    (hnetworks : form.aliases.names.Nodup) : IsGroup default name (form.expand name default) := by
  have hsingle : ∀ location : Text, location ≠ [] →
      IsGroup default name [⟨name, location, default, []⟩] := fun location h =>
    ⟨by simp, by simp [h], by simp, Or.inl ⟨_, rfl, rfl, rfl⟩⟩
  match form with
  | .simple location => exact hsingle location hlocation
  | .aliased source [] => exact hsingle source hlocation
  | .aliased source (entry :: rest) =>
    refine ⟨by simp [ContractForm.expand], ?_, ?_, Or.inr ⟨?_, ?_⟩⟩
    · intro r hr
      obtain ⟨_, -, rfl⟩ := List.mem_map.mp hr
      exact ⟨rfl, hlocation⟩
    · intro r hr s hs
      obtain ⟨_, -, rfl⟩ := List.mem_map.mp hr
      obtain ⟨_, -, rfl⟩ := List.mem_map.mp hs
      rfl
    · intro r hr
      obtain ⟨_, hentry, rfl⟩ := List.mem_map.mp hr
      exact haliases _ hentry
    · rw [ContractForm.expand, List.map_map]
      · exact hnetworks
      · simp

theorem named_append (left right : Contracts) (name : Text) :
    named (left ++ right) name = left.named name ++ right.named name :=
  List.filter_append ..

theorem named_of_forall {contracts : Contracts} {name : Text}
    (h : ∀ r ∈ contracts, r.name = name) : contracts.named name = contracts := by
  rw [named, List.filter_eq_self]
  intro r hr
  simpa using h r hr

theorem named_eq_nil {contracts : Contracts} {name : Text}
    (h : ∀ r ∈ contracts, r.name ≠ name) : contracts.named name = [] := by
  rw [named, List.filter_eq_nil_iff]
  intro r hr
  simpa using h r hr

theorem name_mem_of_mem_flatten {default : Text} {names : List Text}
    {groups : List (List Contract)} (h : List.Forall₂ (IsGroup default) names groups) :
    ∀ r ∈ groups.flatten, r.name ∈ names := by
  intro r hr
  obtain ⟨group, hgroup, hr⟩ := List.mem_flatten.mp hr
  obtain ⟨name, hname, -, hnamed, -⟩ := exists_right_of_forall₂ h group hgroup
  rw [(hnamed r hr).1]
  exact hname

/-- Records that come in groups under distinct names are found again by name. -/
theorem map_named_flatten {default : Text} {names : List Text} {groups : List (List Contract)}
    (h : List.Forall₂ (IsGroup default) names groups) (hnames : names.Nodup) :
    names.map (named groups.flatten) = groups := by
  induction h with
  | nil => rfl
  | @cons name group names groups hgroup hgroups ih =>
    obtain ⟨hname, hnodup⟩ := List.nodup_cons.mp hnames
    have hothers : ∀ r ∈ groups.flatten, r.name ≠ name := fun r hr heq =>
      hname (heq ▸ name_mem_of_mem_flatten hgroups r hr)
    have hrest : names.map (named (group ++ groups.flatten)) = names.map (named groups.flatten) := by
      refine List.map_congr_left fun other hother => ?_
      rw [named_append, named_eq_nil, List.nil_append]
      intro r hr heq
      exact hname ((hgroup.2.1 r hr).1 ▸ heq ▸ hother)
    rw [List.flatten_cons, List.map_cons, hrest, ih hnodup, named_append,
      named_of_forall fun r hr => (hgroup.2.1 r hr).1, named_eq_nil hothers, List.append_nil]

theorem names_flatten {default : Text} {names : List Text} {groups : List (List Contract)}
    (h : List.Forall₂ (IsGroup default) names groups) (hnames : names.Nodup) :
    Contracts.names groups.flatten = names := by
  induction h with
  | nil => rfl
  | @cons name group names groups hgroup hgroups ih =>
    obtain ⟨hname, hnodup⟩ := List.nodup_cons.mp hnames
    obtain ⟨hne, hnamed, -⟩ := hgroup
    cases group with
    | nil => exact absurd rfl hne
    | cons first rest =>
      have hrest : (rest.map (·.name)).filter (fun b => !b == name) = [] := by
        rw [List.filter_eq_nil_iff]
        intro b hb
        obtain ⟨r, hr, rfl⟩ := List.mem_map.mp hb
        simp [(hnamed r (by simp [hr])).1]
      have hothers : (groups.flatten.map (·.name)).filter (fun b => !b == name) =
          groups.flatten.map (·.name) := by
        rw [List.filter_eq_self]
        intro b hb
        obtain ⟨r, hr, rfl⟩ := List.mem_map.mp hb
        have hne' : r.name ≠ name := fun heq =>
          hname (heq ▸ name_mem_of_mem_flatten hgroups r hr)
        simp [hne']
      have ih := ih hnodup
      unfold Contracts.names at ih ⊢
      rw [List.flatten_cons, List.cons_append, List.map_cons, List.eraseDups_cons,
        (hnamed first (by simp)).1, List.map_append, List.filter_append, hrest, hothers,
        List.nil_append, ih]

/-- The declarations of a section expand to groups of records. -/
theorem isGroup_of_expands {default : Text} {members : List (Text × Json)}
    {groups : List (List Contract)} (hraw : Json.HasDistinctNames (.obj members))
    (h : List.Forall₂ (Expands default) members groups) :
    List.Forall₂ (IsGroup default) (Entries.names members) groups := by
  rw [Entries.names, List.forall₂_map_left_iff]
  refine (flip_of_forall₂ h ?_).flip
  rintro ⟨name, raw⟩ hmember _ ⟨form, hform, rfl⟩
  obtain ⟨hlocation, haliases, hnetworks⟩ := ContractForm.of_read (hraw.of_mem hmember) hform
  exact isGroup_expand name hlocation haliases hnetworks

/-- The records of a section are declarable, grouped by name already, and have locations. -/
theorem of_decode {raw : Json} {default : Text} {contracts : Contracts}
    (hraw : raw.HasDistinctNames) (h : decode raw default = .ok contracts) :
    (∀ name, IsDeclarable default (contracts.named name)) ∧ contracts.regroup = contracts ∧
      ∀ r ∈ contracts, r.location ≠ [] := by
  obtain ⟨members, hmembers, h⟩ := bind_eq_ok_iff.mp h
  obtain rfl := Format.members_eq_ok_iff.mp hmembers
  obtain ⟨groups, hexpands, rfl⟩ := decodeMembers_eq_ok_iff.mp h
  have hnames := hraw.names_nodup
  have hgroups := isGroup_of_expands hraw hexpands
  refine ⟨fun name => ?_, ?_, fun r hr => ?_⟩
  · by_cases hname : name ∈ Entries.names members
    · have hmem := List.mem_map_of_mem (f := named groups.flatten) hname
      rw [map_named_flatten hgroups hnames] at hmem
      obtain ⟨_, -, -, -, hdeclarable⟩ := exists_right_of_forall₂ hgroups _ hmem
      exact hdeclarable
    · have hnone : ∀ r ∈ groups.flatten, r.name ≠ name := by
        rintro r hr rfl
        exact hname (name_mem_of_mem_flatten hgroups r hr)
      rw [named_eq_nil hnone]
      exact isDeclarable_nil default
  · rw [regroup, names_flatten hgroups hnames, List.flatMap_def, map_named_flatten hgroups hnames]
  · obtain ⟨group, hgroup, hr⟩ := List.mem_flatten.mp hr
    obtain ⟨_, -, -, hnamed, -⟩ := exists_right_of_forall₂ hgroups group hgroup
    exact (hnamed r hr).2

end Contracts

end ContractKit
