import ContractKit.Project.Basic

/-!
# Deployment plans

The plan for a network lists what its deployments deploy, in order: each contract with the account it
goes to and the arguments of its initializer. A contract that already has an alias on the network is
in the plan and marked as skipped.
-/

namespace ContractKit

/-- A contract to deploy, with all that is needed for it. -/
structure PlannedDeployment where
  /-- The contract on the network. -/
  contract : Contract
  /-- The account it goes to. -/
  account : Account
  /-- The arguments of its initializer. -/
  args : List Value
  /-- Whether the contract is on the network already. -/
  skipped : Bool

/-- The JSON object of a planned deployment. -/
def PlannedDeployment.record (planned : PlannedDeployment) : Except WireError Json := do
  let args ← Value.encodeItems planned.args
  .ok (.obj [("contract", .str planned.contract.name), ("location", .str planned.contract.location),
    ("network", .str planned.contract.network), ("alias", .str planned.contract.aliasAddress),
    ("account", .str planned.account.name), ("address", .str planned.account.address),
    ("args", .arr args), ("skipped", .bool planned.skipped)])

namespace Project

/-- The planned deployment of one contract to an account. -/
def planItem (project : Project) (network : Text) (account : Account) (item : DeploymentItem) :
    Except LookupError PlannedDeployment := do
  let contract ← project.document.contracts.forNetwork item.contract network
  .ok ⟨contract, account, item.args, contract.aliasAddress ≠ []⟩

/-- The steps of planning one deployment. -/
def planDeployment (project : Project) (network : Text) (deployment : Deployment) :
    List (Except LookupError PlannedDeployment) :=
  match project.document.accounts.byName deployment.account with
  | .error e => [.error e]
  | .ok account => deployment.contracts.map (project.planItem network account)

/-- The steps of planning the deployments on a network, in order. -/
def planSteps (project : Project) (network : Text) :
    List (Except LookupError PlannedDeployment) :=
  (project.document.deployments.byNetwork network).flatMap (project.planDeployment network)

/-- The plan for a network: the results of all steps, or the error of the first that fails. -/
def plan (project : Project) (network : Text) : Except LookupError (List PlannedDeployment) :=
  (project.planSteps network).mapM id

/-- The note that a contract is skipped. -/
def skippedNote (network : Text) (contract : Contract) : LogRecord :=
  ⟨.info, .project, .concat ["Skipping ", contract.name, " on ", network, ": already deployed at ",
    contract.aliasAddress]⟩

/-- The results of steps up to the first that fails. -/
def succeeded {ε α : Type} : List (Except ε α) → List α
  | .ok a :: rest => a :: succeeded rest
  | _ => []

/-- The notes that planning leaves. -/
def planNotes (project : Project) (network : Text) : List LogRecord :=
  ((succeeded (project.planSteps network)).filter (·.skipped)).map fun planned =>
    skippedNote network planned.contract

/-- The service account of the emulator of the given name, or of the default one. -/
def emulatorServiceAccount (project : Project) (emulator : Option Text) :
    Except LookupError Account := do
  let found ← match emulator with
    | some name => project.document.emulators.byName name
    | none => project.document.emulators.default
  project.document.accounts.byName found.serviceAccount

end Project

end ContractKit
