import ContractKit.Command.Options
import ContractKit.Config.Settings

/-!
# Commands

The commands of the program and their options. `Invocation.parse` reads the words of a command line;
it accepts exactly those that name a command, give all options it needs and nothing it does not know.
-/

namespace ContractKit

/-- A command with its arguments. -/
inductive Command where
  /-- Sets up a project with the given service key, over an existing one if forced. -/
  | setUp (serviceKey : Text) (force : Bool)
  /-- Shows the configuration. -/
  | showConfig
  /-- Shows a contract, on a network if one is named. -/
  | showContract (name : Text) (network : Option Text)
  /-- Lists the contracts on a network. -/
  | listContracts (network : Text)
  /-- Adds a contract or changes it. -/
  | addContract (name source : Text) (network aliasAddress : Option Text)
  /-- Shows an account and its public key. -/
  | showAccount (name : Text)
  /-- Adds an account or changes it. -/
  | addAccount (name address : Text) (keyHex keyFile : Option Text) (index : Int)
      (sigAlgo hashAlgo : Text)
  /-- Shows a network. -/
  | showNetwork (name : Text)
  /-- Shows the deployments to an account on a network. -/
  | showDeployments (network account : Text)
  /-- Shows the plan for a network. -/
  | showPlan (network : Text)
  /-- Shows arguments in their wire form. -/
  | showArguments (code : Text) (json : Option Text) (words : List Text)
  /-- Shows how many accounts have to sign a transaction. -/
  | countAuthorizers (code : Text)

/-- Which log records are shown. -/
inductive LogThreshold where
  | debug
  | info
  | error
  | none
deriving DecidableEq

namespace LogThreshold

/-- The threshold of the given name. -/
def ofName? (name : Text) : Option LogThreshold :=
  if name = "debug" then some debug
  else if name = "info" then some info
  else if name = "error" then some error
  else if name = "none" then some none
  else Option.none

end LogThreshold

/-- A command line. -/
structure Invocation where
  /-- The configuration file that is named, if any. -/
  configPath : Option Text
  /-- Which log records are shown. -/
  threshold : LogThreshold
  /-- The command. -/
  command : Command

namespace Command

/-- An option with a value. -/
def valued (name : Text) : OptionRule := { name := name }

/-- Options with values. -/
def valuedAll (names : List Text) : List OptionRule := names.map valued

/-- The value of an option that has to be one of the choices. -/
def choice? (choices : List Text) (value : Text) : Option Text :=
  if value ∈ choices then some value else none

/-- The integer that a word is, if it is one. -/
def int? (word : Text) : Option Int :=
  (Numeral.readInt word).toOption

/-- The command for setting up a project. -/
def parseInit (words : List Text) : Option Command := do
  let rules := [valued "--service-key", { name := "--force", takesValue := false }]
  let options ← Options.parse rules false words
  some (.setUp (← options.get? "--service-key") (options.has "--force"))

/-- The command for adding an account. Exactly one of two options names the key. -/
def parseAddAccount (words : List Text) : Option Command := do
  let settings := Settings.standard
  let rules := valuedAll ["--name", "--address", "--key-hex", "--key-file", "--index",
    "--sig-algo", "--hash-algo"]
  let options ← Options.parse rules false words
  let name ← options.get? "--name"
  let address ← options.get? "--address"
  let indexes ← (options.all "--index").mapM int?
  let sigAlgos ← (options.all "--sig-algo").mapM (choice? settings.sigAlgos)
  let hashAlgos ← (options.all "--hash-algo").mapM (choice? settings.hashAlgos)
  if options.has "--key-hex" = options.has "--key-file" then none
  else
    some (.addAccount name address (options.get? "--key-hex") (options.get? "--key-file")
      (indexes.getLast?.getD settings.keyIndex) (sigAlgos.getLast?.getD settings.sigAlgo)
      (hashAlgos.getLast?.getD settings.hashAlgo))

/-- The command of the given name, from the words after the name. -/
def parse (name : Text) (words : List Text) : Option Command :=
  let options (names : List Text) := Options.parse (valuedAll names) false words
  if name = "init" then parseInit words
  else if name = "config-show" then do
    let _ ← options []
    some .showConfig
  else if name = "contracts-get" then do
    let options ← options ["--name", "--network"]
    some (.showContract (← options.get? "--name") (options.get? "--network"))
  else if name = "contracts-list" then do
    let options ← options ["--network"]
    some (.listContracts (← options.get? "--network"))
  else if name = "contracts-add" then do
    let options ← options ["--name", "--source", "--network", "--alias"]
    some (.addContract (← options.get? "--name") (← options.get? "--source")
      (options.get? "--network") (options.get? "--alias"))
  else if name = "accounts-get" then do
    let options ← options ["--name"]
    some (.showAccount (← options.get? "--name"))
  else if name = "accounts-add" then parseAddAccount words
  else if name = "networks-get" then do
    let options ← options ["--name"]
    some (.showNetwork (← options.get? "--name"))
  else if name = "deployments-get" then do
    let options ← options ["--network", "--account"]
    some (.showDeployments (← options.get? "--network") (← options.get? "--account"))
  else if name = "deployments-plan" then do
    let options ← options ["--network"]
    some (.showPlan (← options.get? "--network"))
  else if name = "args-parse" then do
    let options ← Options.parse (valuedAll ["--code", "--args-json"]) true words
    some (.showArguments (← options.get? "--code") (options.get? "--args-json")
      (options.rest.getD []))
  else if name = "authorizers" then do
    let options ← options ["--code"]
    some (.countAuthorizers (← options.get? "--code"))
  else none

end Command

/-- The invocation that the words of a command line are. -/
def Invocation.parse (words : List Text) : Option Invocation := do
  let rules := [{ name := "--config-path", short := some "-f" }, Command.valued "--log"]
  let (options, rest) ← Options.leading rules (words.length + 1) words
  let thresholds ← (options.all "--log").mapM LogThreshold.ofName?
  match rest with
  | [] => none
  | name :: words =>
    some {
      configPath := options.get? "--config-path"
      threshold := thresholds.getLast?.getD .error
      command := ← Command.parse name words }

end ContractKit
