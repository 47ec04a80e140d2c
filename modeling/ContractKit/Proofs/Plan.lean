import ContractKit.Project.Plan
import ContractKit.Proofs.Contracts

/-!
# What a saved project deploys

Saving a project groups its contracts by name, so a record may change its place. Grouping keeps the
records of each name in their order (`Contracts.named_regroup`), and no query sees more than that: each
looks for records of one name (`Contracts.find?_regroup`). So a project has the same deployment plans
and aliases before and after it is saved (`Project.queries_saved`).
-/

namespace ContractKit

namespace Contracts

variable {contracts : Contracts}

/-! ## Records of one name -/

theorem named_named (contracts : Contracts) (name : Text) :
    named (contracts.named name) name = contracts.named name :=
  named_of_forall fun _ hr => (mem_named.mp hr).2

theorem named_named_of_ne (contracts : Contracts) {name other : Text} (h : other ≠ name) :
    named (contracts.named other) name = [] :=
  named_eq_nil fun _ hr heq => h ((mem_named.mp hr).2.symm.trans heq)

/-- Grouping by name keeps the records of a name in their order. -/
theorem named_regroup (contracts : Contracts) (name : Text) :
    contracts.regroup.named name = contracts.named name := by
  have hgroups : contracts.regroup.named name =
      contracts.names.flatMap fun other => named (contracts.named other) name := by
    rw [regroup, named, List.filter_flatMap]
    rfl
  rw [hgroups]
  by_cases hname : name ∈ contracts.names
  · -- The name has one group, and the groups before and after it hold no record of the name.
    obtain ⟨before, after, hsplit⟩ := List.append_of_mem hname
    have hnodup : (before ++ name :: after).Nodup := hsplit ▸ nodup_eraseDups _
    obtain ⟨-, hafter, hbefore⟩ := List.nodup_append.mp hnodup
    have hothers : ∀ names : List Text, name ∉ names →
        (names.flatMap fun other => named (contracts.named other) name) = [] := by
      intro names hnotin
      refine List.flatMap_eq_nil_iff.mpr fun other hother => named_named_of_ne contracts ?_
      rintro rfl
      exact hnotin hother
    rw [hsplit, List.flatMap_append, List.flatMap_cons, named_named,
      hothers before fun h => hbefore name h name (by simp) rfl,
      hothers after (List.nodup_cons.mp hafter).1, List.nil_append, List.append_nil]
  · have hnone : contracts.named name = [] :=
      named_eq_nil fun r hr heq => hname (heq ▸ mem_names hr)
    rw [hnone]
    refine List.flatMap_eq_nil_iff.mpr fun other hother => named_named_of_ne contracts ?_
    rintro rfl
    exact hname hother

theorem find?_named {p : Contract → Bool} (name : Text) (h : ∀ r, p r = true → r.name = name)
    (contracts : Contracts) : (contracts.named name).find? p = contracts.find? p := by
  rw [named, List.find?_filter]
  congr 1
  funext r
  by_cases hr : p r = true
  · simp [hr, h r hr]
  · simp [hr]

/-- A search for a record of one name finds the same one after grouping. -/
theorem find?_regroup {p : Contract → Bool} (name : Text) (h : ∀ r, p r = true → r.name = name)
    (contracts : Contracts) : contracts.regroup.find? p = contracts.find? p := by
  rw [← find?_named name h, named_regroup, find?_named name h]

/-! ## Queries -/

theorem byName_regroup (contracts : Contracts) (name : Text) :
    contracts.regroup.byName name = contracts.byName name := by
  simp only [byName, Lookup.first]
  rw [find?_regroup name (by simp)]

theorem byNameAndNetwork_regroup (contracts : Contracts) (name network : Text) :
    contracts.regroup.byNameAndNetwork name network = contracts.byNameAndNetwork name network := by
  simp only [byNameAndNetwork, Lookup.first]
  rw [find?_regroup name (by simp +contextual)]

theorem forNetwork_regroup (contracts : Contracts) (name network : Text) :
    contracts.regroup.forNetwork name network = contracts.forNetwork name network := by
  rw [forNetwork, byNameAndNetwork_regroup, byName_regroup, forNetwork]

/-- The alias of a name comes from the records of that name. -/
theorem get?_aliases_named (contracts : Contracts) (name network : Text) :
    Entries.get? name (aliases (contracts.named name) network) =
      Entries.get? name (contracts.aliases network) := by
  unfold aliases
  rw [← Entries.get?_ofList_filter name
    (((contracts.byNetwork network).filter _).map _)]
  congr 2
  simp only [byNetwork, named, List.filter_map, List.filter_filter]
  congr 1
  refine List.filter_congr fun r _ => ?_
  simp [Bool.and_comm, Bool.and_assoc]

theorem get?_aliases_regroup (contracts : Contracts) (name network : Text) :
    Entries.get? name (contracts.regroup.aliases network) =
      Entries.get? name (contracts.aliases network) := by
  rw [← get?_aliases_named, named_regroup, get?_aliases_named]

end Contracts

namespace Project

/-- The project with other contracts. -/
def withContracts (project : Project) (contracts : Contracts) : Project :=
  { project with document := { project.document with contracts := contracts } }

/-- A plan depends on the contracts through the record of each name on the network. -/
theorem plan_withContracts {project : Project} {contracts : Contracts} {network : Text}
    (h : ∀ name, contracts.forNetwork name network =
      project.document.contracts.forNetwork name network) :
    (project.withContracts contracts).plan network = project.plan network := by
  have hitem : (project.withContracts contracts).planItem network = project.planItem network := by
    funext account item
    simp only [planItem, withContracts, h]
  have hdeployment : (project.withContracts contracts).planDeployment network =
      project.planDeployment network := by
    funext deployment
    simp only [planDeployment, hitem]
    rfl
  simp only [plan, planSteps, hdeployment]
  rfl

/-- The contracts that are read from the section they were saved in answer every query like those that
were saved: the same record or the same error, the same plans, and the same aliases under each
name. -/
theorem queries_saved {project : Project} {json : Json}
    (hsaved : project.document.contracts.encode project.settings.defaultNetwork = .ok json)
    (hlocation : ∀ r ∈ project.document.contracts, r.location ≠ []) :
    ∃ loaded, Contracts.decode json project.settings.defaultNetwork = .ok loaded ∧
      ∀ network,
        (project.withContracts loaded).plan network = project.plan network ∧
        ∀ name,
          loaded.byName name = project.document.contracts.byName name ∧
          loaded.byNameAndNetwork name network =
            project.document.contracts.byNameAndNetwork name network ∧
          loaded.forNetwork name network = project.document.contracts.forNetwork name network ∧
          Entries.get? name (loaded.aliases network) =
            Entries.get? name (project.document.contracts.aliases network) := by
  refine ⟨_, Contracts.decode_encode hsaved hlocation, fun network => ⟨?_, fun name => ⟨?_, ?_, ?_, ?_⟩⟩⟩
  · exact plan_withContracts fun name => Contracts.forNetwork_regroup _ name network
  · exact Contracts.byName_regroup _ name
  · exact Contracts.byNameAndNetwork_regroup _ name network
  · exact Contracts.forNetwork_regroup _ name network
  · exact Contracts.get?_aliases_regroup _ name network

/-- A record of `B` between two of `A` comes last when the project is saved, and what is deployed on
testnet stays: `A` from its alias there, and the source of `B`. -/
theorem queries_saved_of_scattered :
    ∃ (project : Project) (json : Json) (loaded : Contracts) (plan : List PlannedDeployment),
      project.document.contracts.encode project.settings.defaultNetwork = .ok json ∧
      (∀ r ∈ project.document.contracts, r.location ≠ []) ∧
      Contracts.decode json project.settings.defaultNetwork = .ok loaded ∧
      project.document.contracts.map (·.name) = ["A", "B", "A"] ∧
      loaded.map (·.name) = ["A", "A", "B"] ∧
      project.plan "testnet" = .ok plan ∧
      (project.withContracts loaded).plan "testnet" = .ok plan ∧
      plan.map (·.contract) = [⟨"A", "a.cdc", "testnet", "0x02"⟩, ⟨"B", "b.cdc", "testnet", []⟩] := by
  obtain ⟨contracts, hcontracts⟩ : ∃ contracts : Contracts, contracts =
      [⟨"A", "a.cdc", "mainnet", "0x01"⟩, ⟨"B", "b.cdc", "emulator", []⟩,
        ⟨"A", "a.cdc", "testnet", "0x02"⟩] := ⟨_, rfl⟩
  have hsaved : contracts.encode Settings.standard.defaultNetwork =
      .ok (.obj [("A", .obj [("source", .str "a.cdc"),
        ("aliases", .obj [("mainnet", .str "0x01"), ("testnet", .str "0x02")])]),
        ("B", .str "b.cdc")]) := by
    rw [hcontracts]
    rfl
  have hlocation : ∀ r ∈ contracts, r.location ≠ [] := by
    rw [hcontracts]
    decide
  let project : Project := {
    document := { Document.empty with
      contracts := contracts
      accounts := [⟨"a", "0000000000000001",
        ⟨0, "ECDSA_P256", "SHA3_256", .file (some "a.key")⟩⟩]
      deployments := [⟨"testnet", "a", [⟨"A", []⟩, ⟨"B", []⟩]⟩] }
    path := none
    settings := .standard }
  have hencode : project.document.contracts.encode project.settings.defaultNetwork = .ok _ := hsaved
  obtain ⟨loaded, hloaded, hqueries⟩ := queries_saved hencode hlocation
  obtain ⟨hplan, -⟩ := hqueries "testnet"
  have hregrouped : loaded = [⟨"A", "a.cdc", "mainnet", "0x01"⟩,
      ⟨"A", "a.cdc", "testnet", "0x02"⟩, ⟨"B", "b.cdc", "emulator", []⟩] := by
    have hdecode : Contracts.decode _ project.settings.defaultNetwork = .ok _ := hloaded
    exact (Except.ok.inj (hdecode.symm.trans rfl))
  subst hcontracts
  exact ⟨project, _, loaded, _, hsaved, hlocation, hloaded, rfl, hregrouped ▸ rfl, rfl,
    hplan.trans rfl, rfl⟩

end Project

end ContractKit
