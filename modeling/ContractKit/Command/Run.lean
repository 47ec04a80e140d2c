import ContractKit.Argument.Program
import ContractKit.Command.Basic
import ContractKit.Project.Keys
import ContractKit.Project.Plan

/-!
# Running commands

What each command does. A command returns the text it prints; a command that fails prints nothing but
its error. `Outcome.of` turns the result of a session into what the user
sees.
-/

namespace ContractKit

/-- What can go wrong with a command. -/
inductive CommandFault where
  /-- The project is at fault. -/
  | project (e : Fault)
  /-- A project is there already. -/
  | alreadyThere (path : Path)
  /-- An alias is given without a network. -/
  | aliasWithoutNetwork
  /-- A contract on this network needs an alias. -/
  | needsAlias (name network default : Text)
  /-- The address is none. -/
  | address (e : ScalarError)
  /-- The private key is none. -/
  | privateKey (e : KeyError)
  /-- The source file cannot be read. -/
  | codeFile (file : Text) (path : Path) (e : FileError)
  /-- Arguments are given as words and as JSON. -/
  | exclusiveArguments
  /-- The words are no arguments of the program in the file. -/
  | arguments (file : Text) (e : ProgramArgumentError)
  /-- The JSON text is no list of arguments. -/
  | argumentList (e : ArgumentsError)
  /-- The source is no program. -/
  | source (file : Text) (e : SourceError)
  /-- A value has no wire form. -/
  | wire (e : WireError)

namespace CommandFault

/-- The wording of a fault. -/
def message : CommandFault → Text
  | project e => e.message
  | alreadyThere path =>
    .concat ["Configuration ", path.text.quote, " already exists. Use --force to overwrite it."]
  | aliasWithoutNetwork => "--alias requires --network"
  | needsAlias name network default =>
    .concat ["Contract ", name.quote, " needs --alias on network ", network.quote, "; only ",
      default.quote, " may declare a contract without one"]
  | address e => e.message
  | privateKey e => .concat ["Invalid private key: ", e.message]
  | codeFile file path e =>
    if e.isSystem then .concat ["Failed to read code file ", file.quote, ": ", e.message path]
    else e.message path
  | exclusiveArguments => "Positional arguments and --args-json are mutually exclusive"
  | arguments file e => e.message file
  | argumentList e => e.message
  | source file e => e.message file
  | wire e => e.message

/-- Whether the fault is the user's and is reported as an error. Others end the program. -/
def isReported : CommandFault → Bool
  | project (.file _ e) | project (.unwritten e) => !e.isSystem
  | project .noLocation => false
  | arguments _ (.coercion .codePointOverflow) => false
  | _ => true

end CommandFault

namespace Command

/-- The text of a JSON value as commands print it. -/
def display (value : Json) : Text :=
  .concat [value.pretty, "\n"]

/-- The default of the configuration file. -/
def configPath (named : Option Text) : Path :=
  match named with
  | none | some [] => Path.ofText Settings.standard.fileName
  | some text => Path.ofText text

/-- The JSON object of an account with its public key, without its private key. -/
def accountRecord (account : Account) (publicKey : List UInt8) : Json :=
  let location := match account.key.material with
    | .hex _ => []
    | .file _ => [account.key.material.member]
  .obj [("name", .str account.name), ("address", .str account.address),
    ("key", .obj (account.key.description ++ location)),
    ("public_key", .str (PrivateKey.hex publicKey))]

section

variable {m : Type → Type} [Monad m] [FileStore m]

/-- The project kept under a path. -/
def loadProject (path : Path) : Session CommandFault m Project :=
  Session.adapt .project (Project.load path Settings.standard)

/-- A look-up in a project. -/
def find {α : Type} (found : Except LookupError α) : Session CommandFault m α :=
  Session.require (fun e => .project (.lookup e)) found

/-- The bytes of a source file. -/
def readCode (file : Text) : Session CommandFault m (List UInt8) := do
  Session.require (.codeFile file (Path.ofText file))
    (← Session.perform (FileStore.read (Path.ofText file)))

/-- Sets up a project. -/
def runInit (path : Path) (serviceKey : Text) (force : Bool) : Session CommandFault m Text := do
  let isPresent ← Session.require (fun e => .project (.file path e))
    (← Session.perform (FileStore.isPresent path))
  if isPresent && !force then throw (.alreadyThere path)
  let project ← Session.require .project
    (Project.initial serviceKey (some path) Settings.standard)
  let _ ← Session.adapt .project (project.save none)
  pure (.concat ["Configuration initialized: ", path.text, "\n", display (.obj [
    ("service_account", .str Settings.standard.serviceAccountName),
    ("address", .str Settings.standard.serviceAddress),
    ("networks", .arr (project.document.networks.map fun network => .str network.name))])])

/-- Adds a contract or changes it. -/
def runAddContract (path : Path) (name source : Text) (network aliasAddress : Option Text) :
    Session CommandFault m Text := do
  let project ← loadProject path
  let default := project.settings.defaultNetwork
  let given := network.getD []
  let address := aliasAddress.getD []
  let target := if given = [] then default else given
  if address ≠ [] ∧ given = [] then throw .aliasWithoutNetwork
  if target ≠ default ∧ address = [] then throw (.needsAlias name target default)
  let contracts := Lookup.put Contracts.key ⟨name, source, target, address⟩
    project.document.contracts
  let changed := { project with document := { project.document with contracts := contracts } }
  let _ ← Session.adapt .project (changed.save none)
  pure (.concat ["Contract ", name.quote, " saved for network ", target.quote, "\n"])

/-- The material of the key that options describe: a private key that is given goes before a file. -/
def keyMaterial (keyHex keyFile : Option Text) (sigAlgo : Text) :
    Except CommandFault KeyMaterial :=
  match keyHex with
  | none | some [] => .ok (.file keyFile)
  | some text =>
    match PrivateKey.validate text sigAlgo with
    | .ok privateKey => .ok (.hex privateKey)
    | .error e => .error (.privateKey e)

/-- Adds an account or changes it. -/
def runAddAccount (path : Path) (name address : Text) (keyHex keyFile : Option Text) (index : Int)
    (sigAlgo hashAlgo : Text) : Session CommandFault m Text := do
  let project ← loadProject path
  let digits ← Session.require .address (Address.normalize address)
  let material ← Session.require id (keyMaterial keyHex keyFile sigAlgo)
  let accounts := Lookup.put Account.name ⟨name, digits, ⟨index, sigAlgo, hashAlgo, material⟩⟩
    project.document.accounts
  let changed := { project with document := { project.document with accounts := accounts } }
  let _ ← Session.adapt .project (changed.save none)
  pure (.concat ["Account ", name.quote, " saved with address ", digits, "\n"])

/-- The arguments that a command line gives to a program. -/
def runShowArguments (code : Text) (json : Option Text) (words : List Text) :
    Session CommandFault m Text := do
  let values ← match json with
    | some text =>
      if words ≠ [] then throw .exclusiveArguments
      Session.require .argumentList (Value.decodeList text)
    | none => do
      let program := Program.ofBytes (← readCode code)
      Session.note (Program.argumentNotes program words)
      Session.require (.arguments code) (Program.arguments program words)
  let items ← Session.require .wire (Value.encodeItems values)
  pure (display (.arr items))

/-- Runs a command on the configuration under a path and returns what it prints. -/
def run (path : Path) : Command → Session CommandFault m Text
  | setUp serviceKey force => runInit path serviceKey force
  | showConfig => do
    let project ← loadProject path
    pure (display (← Session.require (fun e => .project (.encode e)) project.json))
  | showContract name network => do
    let contracts := (← loadProject path).document.contracts
    let contract ← match network with
      | none | some [] => find (contracts.byName name)
      | some network => find (contracts.byNameAndNetwork name network)
    pure (display contract.record)
  | listContracts network => do
    let contracts := (← loadProject path).document.contracts
    pure (display (.arr ((contracts.byNetwork network).map Contract.record)))
  | addContract name source network aliasAddress =>
    runAddContract path name source network aliasAddress
  | showAccount name => do
    let project ← loadProject path
    let account ← find (project.document.accounts.byName name)
    let publicKey ← Session.adapt .project (project.accountPublicKey name)
    pure (display (accountRecord account publicKey))
  | addAccount name address keyHex keyFile index sigAlgo hashAlgo =>
    runAddAccount path name address keyHex keyFile index sigAlgo hashAlgo
  | showNetwork name => do
    let networks := (← loadProject path).document.networks
    pure (display (← find (networks.byName name)).record)
  | showDeployments network account => do
    let deployments := (← loadProject path).document.deployments
    let records ← Session.require .wire
      ((deployments.byAccountAndNetwork account network).mapM Deployment.record)
    pure (display (.arr records))
  | showPlan network => do
    let project ← loadProject path
    Session.note (project.planNotes network)
    let plan ← find (project.plan network)
    pure (display (.arr (← Session.require .wire (plan.mapM PlannedDeployment.record))))
  | showArguments code json words => runShowArguments code json words
  | countAuthorizers code => do
    let bytes ← readCode code
    let program ← Session.require (.source code) (Program.ofBytes bytes)
    pure (.concat [Numeral.ofNat 10 program.authorizerCount, "\n"])

end

end Command

/-! ## What the user sees -/

/-- Whether a record is shown. -/
def LogThreshold.shows (threshold : LogThreshold) (record : LogRecord) : Bool :=
  match threshold, record.level with
  | .debug, _ => true
  | .info, .info => true
  | _, _ => false

/-- What the user sees of a command line. -/
inductive Outcome where
  /-- The command line is not understood. -/
  | rejected
  /-- The command has ended with an exit code, a text printed and a log. -/
  | ended (exit : Nat) (printed log : Text)
  /-- A fault has ended the program. -/
  | crashed (fault : CommandFault) (log : Text)

namespace Outcome

/-- The outcome of the result of a session and its log. -/
def of (threshold : LogThreshold) (result : Except CommandFault Text) (log : List LogRecord) :
    Outcome :=
  let shown : Text := (log.filter threshold.shows).flatMap LogRecord.line
  match result with
  | .ok printed => .ended 0 printed shown
  | .error fault =>
    if fault.isReported then .ended 1 (.concat ["Error: ", fault.message, "\n"]) shown
    else .crashed fault shown

/-- Runs a command line. -/
def run {m : Type → Type} [Monad m] [FileStore m] (words : List Text) : m Outcome :=
  match Invocation.parse words with
  | none => pure .rejected
  | some invocation => do
    let path := Command.configPath invocation.configPath
    let (result, log) ← (invocation.command.run path).run []
    pure (of invocation.threshold result log)

end Outcome

end ContractKit
