import ContractKit.Project.Plan
import ContractKit.Proofs.Collections

/-!
# Plans agree with the alias table

A plan looks up one record after the other, and the table of aliases is made of all records on a
network. If no contract has two records on one network, the record that a plan uses has the alias of the
table (`Contracts.get?_aliases_of_forNetwork`). So every entry of a deployment is planned as the records
and the table say (`Project.IsPlanned`), unless a deployment names an account or a contract that is not
there (`Project.plan_agrees_with_aliases`).
-/

namespace ContractKit

namespace Contracts

variable {contracts : Contracts} {name network : Text}

/-! ## The record on a network -/

/-- A contract has at most one record on a network. -/
theorem find?_eq_some_iff (hkeys : (contracts.map key).Nodup) {r : Contract} :
    (contracts.find? fun r => r.name = name ∧ r.network = network) = some r ↔
      r ∈ contracts ∧ r.name = name ∧ r.network = network := by
  have hkey : ∀ s : Contract, s.name = name ∧ s.network = network ↔ key s = (name, network) :=
    fun s => Prod.mk.injEq .. |>.symm.to_iff
  simp only [hkey]
  exact Lookup.find?_eq_some_iff_of_nodup hkeys

/-- The record to use is the one on the network, or else has the location of the first one of the name
and no alias. -/
theorem forNetwork_eq_ok_iff {contract : Contract} :
    contracts.forNetwork name network = .ok contract ↔
      (contracts.find? fun r => r.name = name ∧ r.network = network) = some contract ∨
        (contracts.find? fun r => r.name = name ∧ r.network = network) = none ∧
          ∃ source, (contracts.find? fun r => r.name = name) = some source ∧
            contract = ⟨name, source.location, network, []⟩ := by
  unfold forNetwork byNameAndNetwork byName Lookup.first
  cases contracts.find? fun r => r.name = name ∧ r.network = network with
  | some r => simp
  | none =>
    cases contracts.find? fun r => r.name = name with
    | none => simp [bind, Except.bind]
    | some source => simp [bind, Except.bind, eq_comm]

/-- There is a record to use if any network has one. -/
theorem exists_forNetwork_iff (contracts : Contracts) (name network : Text) :
    (∃ contract, contracts.forNetwork name network = .ok contract) ↔
      ∃ r ∈ contracts, r.name = name := by
  have hname : (∃ r ∈ contracts, r.name = name) ↔
      ∃ source, contracts.byName name = .ok source := by
    simp only [byName, Lookup.exists_first_iff, decide_eq_true_eq]
  constructor
  · rintro ⟨contract, h⟩
    rcases forNetwork_eq_ok_iff.mp h with hexact | ⟨-, source, hsource, -⟩
    · have hfound : contract.name = name ∧ contract.network = network := by
        simpa using List.find?_some hexact
      exact ⟨contract, List.mem_of_find?_eq_some hexact, hfound.1⟩
    · exact hname.mpr ⟨source, Lookup.first_eq_ok_iff.mpr hsource⟩
  · intro h
    obtain ⟨source, hsource⟩ := hname.mp h
    unfold forNetwork
    split
    · next contract _ => exact ⟨contract, rfl⟩
    · exact ⟨_, bind_eq_ok_iff.mpr ⟨source, hsource, rfl⟩⟩

/-! ## The table of aliases -/

/-- The records that give a network its aliases have distinct names. -/
theorem nodup_names_of_nodup_key (hkeys : (contracts.map key).Nodup) (network : Text) :
    (((contracts.byNetwork network).filter (·.aliasAddress ≠ [])).map (·.name)).Nodup := by
  have hdistinct := (hkeys.of_map key).filter (·.network = network) |>.filter (·.aliasAddress ≠ [])
  refine List.Nodup.map_on (fun r hr s hs hname => ?_) hdistinct
  obtain ⟨hr, hrnetwork⟩ := List.mem_filter.mp (List.mem_filter.mp hr).1
  obtain ⟨hs, hsnetwork⟩ := List.mem_filter.mp (List.mem_filter.mp hs).1
  have hnetwork := (of_decide_eq_true hrnetwork).trans (of_decide_eq_true hsnetwork).symm
  exact List.inj_on_of_nodup_map hkeys hr hs (Prod.ext hname hnetwork)

/-- The table has the aliases of the records on the network. -/
theorem get?_aliases_eq_some_iff (hkeys : (contracts.map key).Nodup) {address : Text} :
    Entries.get? name (contracts.aliases network) = some address ↔
      ∃ r ∈ contracts, (r.name = name ∧ r.network = network) ∧ r.aliasAddress = address ∧
        address ≠ [] := by
  have hnames := nodup_names_of_nodup_key hkeys network
  have hpairs : contracts.aliases network =
      ((contracts.byNetwork network).filter (·.aliasAddress ≠ [])).map fun r =>
        (r.name, r.aliasAddress) := by
    refine Entries.ofList_of_nodup ?_
    rwa [Entries.names, List.map_map]
  rw [hpairs, Entries.get?_map, Option.map_eq_some_iff]
  simp only [Lookup.find?_eq_some_iff_of_nodup hnames]
  simp only [byNetwork, List.mem_filter, decide_eq_true_eq]
  constructor
  · rintro ⟨r, ⟨⟨⟨hr, hnetwork⟩, halias⟩, hname⟩, rfl⟩
    exact ⟨r, hr, ⟨hname, hnetwork⟩, rfl, halias⟩
  · rintro ⟨r, hr, ⟨hname, hnetwork⟩, rfl, halias⟩
    exact ⟨r, ⟨⟨⟨hr, hnetwork⟩, halias⟩, hname⟩, rfl⟩

/-- The record to use has the alias of the table, or none when the table has none. -/
theorem get?_aliases_of_forNetwork (hkeys : (contracts.map key).Nodup) {contract : Contract}
    (h : contracts.forNetwork name network = .ok contract) :
    Entries.get? name (contracts.aliases network) =
      if contract.aliasAddress = [] then none else some contract.aliasAddress := by
  rcases forNetwork_eq_ok_iff.mp h with hexact | ⟨hnone, source, -, rfl⟩
  · obtain ⟨hmem, hfound⟩ := (find?_eq_some_iff hkeys).mp hexact
    split_ifs with halias
    · rw [Option.eq_none_iff_forall_ne_some]
      intro address haddress
      obtain ⟨r, hr, hrfound, rfl, hne⟩ := (get?_aliases_eq_some_iff hkeys).mp haddress
      have hsame := (find?_eq_some_iff hkeys).mpr ⟨hr, hrfound⟩
      obtain rfl := Option.some.inj (hexact.symm.trans hsame)
      exact hne halias
    · exact (get?_aliases_eq_some_iff hkeys).mpr ⟨contract, hmem, hfound, rfl, halias⟩
  · rw [if_pos rfl, Option.eq_none_iff_forall_ne_some]
    intro address haddress
    obtain ⟨r, hr, hrfound, -⟩ := (get?_aliases_eq_some_iff hkeys).mp haddress
    cases hnone.symm.trans ((find?_eq_some_iff hkeys).mpr ⟨hr, hrfound⟩)

end Contracts

namespace Project

variable {project : Project} {network : Text}

/-! ## Entries of deployments -/

/-- The entries of the deployments on a network in order, each with its deployment. -/
def entries (project : Project) (network : Text) : List (Deployment × DeploymentItem) :=
  (project.document.deployments.byNetwork network).flatMap fun deployment =>
    deployment.contracts.map fun item => (deployment, item)

theorem mem_entries {deployment : Deployment} {item : DeploymentItem} :
    (deployment, item) ∈ project.entries network ↔
      deployment ∈ project.document.deployments.byNetwork network ∧
        item ∈ deployment.contracts := by
  simp [entries]

/-- The planned deployment of an entry. -/
def planEntry (project : Project) (network : Text) (entry : Deployment × DeploymentItem) :
    Except LookupError PlannedDeployment := do
  let account ← project.document.accounts.byName entry.1.account
  project.planItem network account entry.2

/-- If every deployment has its account, the steps of planning are those of the entries. -/
theorem planSteps_eq (h : ∀ deployment ∈ project.document.deployments.byNetwork network,
      ∃ account, project.document.accounts.byName deployment.account = .ok account) :
    project.planSteps network = (project.entries network).map (project.planEntry network) := by
  rw [planSteps, entries, List.map_flatMap]
  refine List.flatMap_congr fun deployment hdeployment => ?_
  obtain ⟨account, haccount⟩ := h deployment hdeployment
  simp only [planDeployment, haccount, List.map_map]
  refine List.map_congr_left fun item _ => ?_
  simp only [Function.comp_apply, planEntry, haccount, ok_bind]

/-- A plan has the results of the entries. A deployment without entries needs its account, too. -/
theorem plan_eq_ok_iff {plan : List PlannedDeployment} : project.plan network = .ok plan ↔
    (∀ deployment ∈ project.document.deployments.byNetwork network,
        ∃ account, project.document.accounts.byName deployment.account = .ok account) ∧
      List.Forall₂ (fun entry planned => project.planEntry network entry = .ok planned)
        (project.entries network) plan := by
  have hentries (haccounts : ∀ deployment ∈ project.document.deployments.byNetwork network,
      ∃ account, project.document.accounts.byName deployment.account = .ok account) :
      project.plan network = .ok plan ↔
        List.Forall₂ (fun entry planned => project.planEntry network entry = .ok planned)
          (project.entries network) plan := by
    rw [Project.plan, mapM_eq_ok_iff, planSteps_eq haccounts, List.forall₂_map_left_iff]
    rfl
  constructor
  · intro hplan
    have haccounts : ∀ deployment ∈ project.document.deployments.byNetwork network,
        ∃ account, project.document.accounts.byName deployment.account = .ok account := by
      intro deployment hdeployment
      refine exists_ok_of_forall_ne fun e he => ?_
      have hstep : .error e ∈ project.planSteps network := by
        refine List.mem_flatMap.mpr ⟨deployment, hdeployment, ?_⟩
        simp only [planDeployment, he, List.mem_singleton]
      obtain ⟨_, hok⟩ := exists_mapM_iff.mp ⟨plan, hplan⟩ _ hstep
      cases hok
    exact ⟨haccounts, (hentries haccounts).mp hplan⟩
  · rintro ⟨haccounts, h⟩
    exact (hentries haccounts).mpr h

/-- An entry can be planned if its account and any record of its contract are there. -/
theorem exists_planEntry_iff {entry : Deployment × DeploymentItem} :
    (∃ planned, project.planEntry network entry = .ok planned) ↔
      (∃ account, project.document.accounts.byName entry.1.account = .ok account) ∧
        ∃ r ∈ project.document.contracts, r.name = entry.2.contract := by
  rw [← Contracts.exists_forNetwork_iff project.document.contracts entry.2.contract network]
  simp only [planEntry, planItem, bind_eq_ok_iff]
  constructor
  · rintro ⟨_, account, haccount, contract, hcontract, -⟩
    exact ⟨⟨account, haccount⟩, contract, hcontract⟩
  · rintro ⟨⟨account, haccount⟩, contract, hcontract⟩
    exact ⟨_, account, haccount, contract, hcontract, rfl⟩

/-- There is a plan if all accounts and contracts that the deployments name are there. -/
theorem exists_plan_iff : (∃ plan, project.plan network = .ok plan) ↔
    ∀ deployment ∈ project.document.deployments.byNetwork network,
      (∃ account ∈ project.document.accounts, account.name = deployment.account) ∧
        ∀ item ∈ deployment.contracts,
          ∃ r ∈ project.document.contracts, r.name = item.contract := by
  have haccount : ∀ name, (∃ account, project.document.accounts.byName name = .ok account) ↔
      ∃ account ∈ project.document.accounts, account.name = name := by
    simp only [Accounts.byName, Lookup.exists_first_iff, decide_eq_true_eq, implies_true]
  simp only [plan_eq_ok_iff, exists_and_left, ← mapM_eq_ok_iff, exists_mapM_iff,
    exists_planEntry_iff, haccount]
  constructor
  · rintro ⟨haccounts, hentries⟩ deployment hdeployment
    refine ⟨haccounts deployment hdeployment, fun item hitem => ?_⟩
    exact (hentries (deployment, item) (mem_entries.mpr ⟨hdeployment, hitem⟩)).2
  · intro h
    refine ⟨fun deployment hdeployment => (h deployment hdeployment).1, ?_⟩
    rintro ⟨deployment, item⟩ hentry
    obtain ⟨hdeployment, hitem⟩ := mem_entries.mp hentry
    exact (h deployment hdeployment).imp_right fun hitems => hitems item hitem

/-! ## Plans -/

/-- What a plan for a network makes of an entry, in terms of the records and of the table of aliases. -/
structure IsPlanned (project : Project) (network : Text) (entry : Deployment × DeploymentItem)
    (planned : PlannedDeployment) : Prop where
  /-- The account is the one that the deployment names. -/
  account : project.document.accounts.byName entry.1.account = .ok planned.account
  /-- The arguments are those of the entry. -/
  args : planned.args = entry.2.args
  /-- The contract is the one that the entry names. -/
  name : planned.contract.name = entry.2.contract
  /-- The contract is on the network. -/
  onNetwork : planned.contract.network = network
  /-- The contract is where its record on the network is. -/
  exactLocation : ∀ r ∈ project.document.contracts, r.name = entry.2.contract →
    r.network = network → planned.contract.location = r.location
  /-- Without a record on the network, the contract is where its first record is. -/
  sourceLocation : (∀ r ∈ project.document.contracts, r.name = entry.2.contract →
    r.network ≠ network) → ∃ r, project.document.contracts.byName entry.2.contract = .ok r ∧
      planned.contract.location = r.location
  /-- The alias is that of the table, if there is one. -/
  aliasAddress : planned.contract.aliasAddress =
    (Entries.get? entry.2.contract (project.document.contracts.aliases network)).getD []
  /-- The entry is skipped if the table has its name. -/
  skipped : planned.skipped = true ↔
    entry.2.contract ∈ (project.document.contracts.aliases network).names

/-- An entry is planned as the records and the table say. -/
theorem isPlanned_of_planEntry (hkeys : (project.document.contracts.map Contracts.key).Nodup)
    {entry : Deployment × DeploymentItem} {planned : PlannedDeployment}
    (h : project.planEntry network entry = .ok planned) :
    project.IsPlanned network entry planned := by
  obtain ⟨account, haccount, h⟩ := bind_eq_ok_iff.mp h
  obtain ⟨contract, hcontract, h⟩ := bind_eq_ok_iff.mp h
  obtain rfl := Except.ok.inj h
  have halias := Contracts.get?_aliases_of_forNetwork hkeys hcontract
  have haddress : contract.aliasAddress =
      (Entries.get? entry.2.contract (project.document.contracts.aliases network)).getD [] := by
    rw [halias]
    split_ifs with hempty
    · exact hempty
    · rfl
  have hskipped : decide (contract.aliasAddress ≠ []) = true ↔
      entry.2.contract ∈ (project.document.contracts.aliases network).names := by
    rw [Entries.mem_names_iff, halias]
    split_ifs with hempty <;> simp [hempty]
  have hfound : ∀ r ∈ project.document.contracts, r.name = entry.2.contract →
      r.network = network → (project.document.contracts.find? fun r =>
        r.name = entry.2.contract ∧ r.network = network) = some r :=
    fun r hr hname hnetwork => (Contracts.find?_eq_some_iff hkeys).mpr ⟨hr, hname, hnetwork⟩
  rcases Contracts.forNetwork_eq_ok_iff.mp hcontract with hexact | ⟨hnone, source, hsource, rfl⟩
  · obtain ⟨hmem, hname, hnetwork⟩ := (Contracts.find?_eq_some_iff hkeys).mp hexact
    exact {
      account := haccount
      args := rfl
      name := hname
      onNetwork := hnetwork
      exactLocation := fun r hr hrname hrnetwork => by
        rw [Option.some.inj (hexact.symm.trans (hfound r hr hrname hrnetwork))]
      sourceLocation := fun hnone => absurd hnetwork (hnone contract hmem hname)
      aliasAddress := haddress
      skipped := hskipped }
  · exact {
      account := haccount
      args := rfl
      name := rfl
      onNetwork := rfl
      exactLocation := fun r hr hrname hrnetwork => by
        cases hnone.symm.trans (hfound r hr hrname hrnetwork)
      sourceLocation := fun _ => ⟨source, Lookup.first_eq_ok_iff.mpr hsource, rfl⟩
      aliasAddress := haddress
      skipped := hskipped }

/-- If no contract has two records on one network, planning fails only where a deployment on the network
names an account that is not there or a contract without any record. Otherwise the entries of the
deployments are planned one by one as the records and the table of aliases say. -/
theorem plan_agrees_with_aliases
    (hkeys : (project.document.contracts.map Contracts.key).Nodup) (network : Text) :
    ((∃ e, project.plan network = .error e) ↔
        ∃ deployment ∈ project.document.deployments, deployment.network = network ∧
          ((∀ account ∈ project.document.accounts, account.name ≠ deployment.account) ∨
            ∃ item ∈ deployment.contracts,
              ∀ r ∈ project.document.contracts, r.name ≠ item.contract)) ∧
      ∀ plan, project.plan network = .ok plan →
        List.Forall₂ (project.IsPlanned network) (project.entries network) plan := by
  refine ⟨?_, fun plan hplan => ?_⟩
  · rw [exists_error_iff, exists_plan_iff]
    simp only [Deployments.byNetwork, List.mem_filter, decide_eq_true_eq, not_forall, not_and_or,
      not_exists, exists_prop, and_assoc]
    simp only [← not_and_or, not_and, ne_eq]
  · exact (plan_eq_ok_iff.mp hplan).2.imp fun _ _ => isPlanned_of_planEntry hkeys

/-- On testnet `B` is taken from its source elsewhere and `A` is there already. On mainnet an account is
missed, although nothing is to be deployed to it. -/
theorem plan_agrees_with_aliases_of_two_networks :
    ∃ (project : Project) (plan : List PlannedDeployment),
      (project.document.contracts.map Contracts.key).Nodup ∧
      project.plan "testnet" = .ok plan ∧
      plan.map (·.contract) =
        [⟨"B", "b.cdc", "testnet", []⟩, ⟨"A", "a.cdc", "testnet", "0x02"⟩] ∧
      plan.map (·.skipped) = [false, true] ∧
      List.Forall₂ (project.IsPlanned "testnet") (project.entries "testnet") plan ∧
      ∃ e, project.plan "mainnet" = .error e := by
  let project : Project := {
    document := { Document.empty with
      contracts := [⟨"A", "a.cdc", "mainnet", "0x01"⟩, ⟨"B", "b.cdc", "emulator", "0x03"⟩,
        ⟨"A", "a.cdc", "testnet", "0x02"⟩]
      accounts := [⟨"a", "0000000000000001",
        ⟨0, "ECDSA_P256", "SHA3_256", .file (some "a.key")⟩⟩]
      deployments := [⟨"testnet", "a", [⟨"B", []⟩, ⟨"A", []⟩]⟩, ⟨"mainnet", "b", []⟩] }
    path := none
    settings := .standard }
  have hkeys : (project.document.contracts.map Contracts.key).Nodup := by decide
  obtain ⟨plan, hplan⟩ : ∃ plan, project.plan "testnet" = .ok plan := ⟨_, rfl⟩
  have hmissing : ∀ account ∈ project.document.accounts, account.name ≠ "b" := by decide
  have hcontracts : plan.map (·.contract) =
      [⟨"B", "b.cdc", "testnet", []⟩, ⟨"A", "a.cdc", "testnet", "0x02"⟩] ∧
        plan.map (·.skipped) = [false, true] := by
    obtain rfl := Except.ok.inj (hplan.symm.trans rfl)
    exact ⟨rfl, rfl⟩
  exact ⟨project, plan, hkeys, hplan, hcontracts.1, hcontracts.2,
    (plan_agrees_with_aliases hkeys "testnet").2 plan hplan,
    (plan_agrees_with_aliases hkeys "mainnet").1.mpr
      ⟨⟨"mainnet", "b", []⟩, by simp [project], rfl, .inl hmissing⟩⟩

end Project

end ContractKit
