import ContractKit.Command.Run
import ContractKit.Proofs.Project

/-!
# What commands leave behind

Three commands save a configuration (`Command.Saves`): setting up, adding a contract and adding an
account. They check less than loading does. After one of them has ended well the configuration is
loaded as it was saved exactly if it is storable and plain (`Disk.loaded_after_iff`): a source without
text, a key index below zero, a key file without name and a private key that keeps blanks make a project
that cannot be loaded.
-/

namespace ContractKit

/-! ## Putting records -/

namespace Lookup

variable {α κ : Type} [DecidableEq κ] {key : α → κ} {record : α}

theorem mem_put : ∀ {records : List α}, ∀ r ∈ put key record records, r = record ∨ r ∈ records
  | [], r, hr => Or.inl (List.mem_singleton.mp hr)
  | old :: rest, r, hr => by
    unfold put at hr
    split_ifs at hr
    · exact (List.mem_cons.mp hr).imp_right (List.mem_cons_of_mem old)
    · rcases List.mem_cons.mp hr with rfl | hr
      · exact Or.inr List.mem_cons_self
      · exact (mem_put r hr).imp_right (List.mem_cons_of_mem old)

/-- Putting a record keeps the keys distinct. -/
theorem nodup_map_put : ∀ {records : List α}, (records.map key).Nodup →
    ((put key record records).map key).Nodup
  | [], _ => List.nodup_singleton _
  | old :: rest, h => by
    obtain ⟨hold, hrest⟩ := List.nodup_cons.mp h
    unfold put
    split_ifs with heq
    · rwa [List.map_cons, ← heq]
    · refine List.nodup_cons.mpr ⟨fun hmem => ?_, nodup_map_put hrest⟩
      obtain ⟨r, hr, hkey⟩ := List.mem_map.mp hmem
      rcases mem_put r hr with rfl | hr
      · exact heq hkey.symm
      · exact hold (hkey ▸ List.mem_map_of_mem hr)

end Lookup

/-! ## Documents that are saved -/

/-- A new project is kept under the given path, with the given settings in force. -/
theorem Project.path_of_initial {serviceKey : Text} {path : Option Path} {settings : Settings}
    {project : Project} (h : initial serviceKey path settings = .ok project) :
    project.path = path ∧ project.settings = settings := by
  unfold initial at h
  split at h
  · cases h
  · rw [← Except.ok.inj h]
    exact ⟨rfl, rfl⟩

/-- A new project is proper. -/
theorem Project.isProper_of_initial {serviceKey : Text} {path : Option Path} {project : Project}
    (h : initial serviceKey path .standard = .ok project) : project.document.IsProper := by
  unfold initial at h
  split at h
  · cases h
  · next privateKey hvalid =>
    obtain rfl := Except.ok.inj h
    have hkey : AccountKey.IsProper ⟨Settings.standard.keyIndex, Settings.standard.sigAlgo,
        Settings.standard.hashAlgo, .hex privateKey⟩ :=
      .of_isValidated Settings.isValid_standard.sigAlgo_mem
        Settings.isValid_standard.hashAlgo_mem ⟨serviceKey, hvalid⟩
    have haddress : Address.IsCanonical Settings.standard.serviceAddress := ⟨by decide, by decide⟩
    have hnetworks : ((Settings.standard.defaultNetworks.map fun pair =>
        Network.mk pair.1 pair.2 []).map (·.name)).Nodup := by decide
    have hhosts : ∀ n ∈ Settings.standard.defaultNetworks.map fun pair =>
        Network.mk pair.1 pair.2 [], n.host ≠ [] := by decide
    exact {
      emulators := ⟨List.nodup_singleton _, List.forall_mem_singleton.mpr ⟨by decide, by decide⟩⟩
      networks := ⟨hnetworks, hhosts⟩
      accounts := ⟨List.nodup_singleton _, List.forall_mem_singleton.mpr ⟨haddress, hkey⟩⟩
      deployments := by simp }

/-- A new project is plain, and storable if its private key keeps no blanks. -/
theorem Project.isStorable_of_initial_iff {serviceKey privateKey : Text} {path : Option Path}
    {project : Project} (h : initial serviceKey path .standard = .ok project)
    (hvalid : PrivateKey.validate serviceKey Settings.standard.sigAlgo = .ok privateKey) :
    project.document.IsPlain ∧
      (project.document.IsStorable ↔ PrivateKey.IsCanonical privateKey) := by
  simp only [initial, hvalid] at h
  obtain rfl := Except.ok.inj h
  have hnetworks : ∀ n ∈ Settings.standard.defaultNetworks.map fun pair =>
      Network.mk pair.1 pair.2 [], n.name.IsJoined ∧ n.host.IsJoined ∧ n.key.IsJoined := by decide
  have hnonneg : 0 ≤ Settings.standard.keyIndex := by decide
  have hname : Text.IsJoined Settings.standard.serviceAccountName := by decide
  constructor
  · exact {
      emulators := List.forall_mem_singleton.mpr ⟨by decide, hname⟩
      contracts := by simp
      networks := hnetworks
      accounts := List.forall_mem_singleton.mpr ⟨hname, Settings.isShort_keyIndex,
        fun _ hfile => by cases hfile⟩
      deployments := by simp }
  · constructor
    · intro hstorable
      exact (hstorable.accounts _ (List.mem_singleton_self _)).2
    · intro hcanonical
      exact ⟨by simp, List.forall_mem_singleton.mpr ⟨hnonneg, hcanonical⟩, by simp⟩

namespace Command

/-- Whether the command saves a configuration when it ends well. -/
def isSaving : Command → Bool
  | setUp _ _ | addContract _ _ _ _ | addAccount _ _ _ _ _ _ _ => true
  | _ => false

/-- The algorithms that the command names are among the choices. -/
def IsAdmissible : Command → Prop
  | addAccount _ _ _ _ _ sigAlgo hashAlgo =>
    sigAlgo ∈ Settings.standard.sigAlgos ∧ hashAlgo ∈ Settings.standard.hashAlgos
  | _ => True

/-- `Saves disk path command document` : on the disk, the command saves the document under the
path. What is added to is the configuration that is loaded from there. -/
inductive Saves (disk : Disk) (path : Path) : Command → Document → Prop where
  | setUp {serviceKey : Text} {force : Bool} {project : Project}
      (h : Project.initial serviceKey (some path) .standard = .ok project) :
      Saves disk path (.setUp serviceKey force) project.document
  | addContract {name source : Text} {network aliasAddress : Option Text} {target : Text}
      {loaded : Document} (h : disk.loaded path = .ok loaded)
      (htarget : target = if network.getD [] = [] then Settings.standard.defaultNetwork
        else network.getD []) :
      Saves disk path (.addContract name source network aliasAddress) { loaded with
        contracts := Lookup.put Contracts.key ⟨name, source, target, aliasAddress.getD []⟩
          loaded.contracts }
  | addAccount {name address : Text} {keyHex keyFile : Option Text} {index : Int}
      {sigAlgo hashAlgo digits : Text} {material : KeyMaterial} {loaded : Document}
      (h : disk.loaded path = .ok loaded) (hdigits : Address.normalize address = .ok digits)
      (hmaterial : keyMaterial keyHex keyFile sigAlgo = .ok material) :
      Saves disk path (.addAccount name address keyHex keyFile index sigAlgo hashAlgo) { loaded with
        accounts := Lookup.put Account.name
          ⟨name, digits, ⟨index, sigAlgo, hashAlgo, material⟩⟩ loaded.accounts }

theorem isValidated_of_keyMaterial {keyHex keyFile : Option Text} {sigAlgo : Text}
    {material : KeyMaterial} (h : keyMaterial keyHex keyFile sigAlgo = .ok material) :
    ∀ privateKey, material = .hex privateKey → PrivateKey.IsValidated privateKey sigAlgo := by
  rintro privateKey rfl
  unfold keyMaterial at h
  split at h
  · cases Except.ok.inj h
  · cases Except.ok.inj h
  · next text _ =>
    split at h
    · next found hfound =>
      rw [← KeyMaterial.hex.inj (Except.ok.inj h)]
      exact ⟨text, hfound⟩
    · cases h

variable {disk : Disk} {path : Path} {command : Command} {document : Document}

/-- What commands save is proper. -/
theorem Saves.isProper (h : command.Saves disk path document) (hcommand : command.IsAdmissible) :
    document.IsProper := by
  cases h with
  | setUp h => exact Project.isProper_of_initial h
  | addContract h _ =>
    obtain ⟨hemulators, hnetworks, haccounts, hdeployments⟩ := (Disk.of_loaded h).1
    exact ⟨hemulators, hnetworks, haccounts, hdeployments⟩
  | addAccount h hdigits hmaterial =>
    obtain ⟨hemulators, hnetworks, haccounts, hdeployments⟩ := (Disk.of_loaded h).1
    refine ⟨hemulators, hnetworks, ⟨Lookup.nodup_map_put haccounts.1, fun a ha => ?_⟩, hdeployments⟩
    rcases Lookup.mem_put a ha with rfl | ha
    · exact ⟨Address.isCanonical_of_normalize hdigits, hcommand.1, hcommand.2,
        isValidated_of_keyMaterial hmaterial⟩
    · exact haccounts.2 a ha

/-! ## Commands that end well -/

open Session

variable {start stop : Stage} {printed : Text}

/-- A command that saves has left the text of what it saves in the file. -/
theorem exists_saves_of_returns (hsaving : command.isSaving = true)
    (h : (command.run path).Returns start printed stop) : ∃ document json,
      command.Saves start.2 path document ∧ document.encode .standard = .ok json ∧
        stop.2.read path = .ok (Project.asciiBytes (Project.fileText json)) := by
  unfold run at h
  cases command with
  | setUp serviceKey force =>
    simp only [runInit, returns_bind_iff, returns_perform_iff, returns_unless_iff,
      returns_require_iff, returns_adapt_iff, returns_pure_iff] at h
    obtain ⟨_, _, -, _, _, -, -, project, _, ⟨hproject, rfl⟩, _, _, hsave, -, rfl⟩ := h
    have hpath := Project.path_of_initial hproject
    obtain ⟨json, hjson, hread⟩ := Project.read_of_save hpath.1 hsave
    rw [Project.json, hpath.2] at hjson
    exact ⟨_, json, .setUp hproject, hjson, hread⟩
  | addContract name source network aliasAddress =>
    simp only [runAddContract, loadProject, returns_bind_iff, returns_unless_iff,
      returns_adapt_iff, returns_pure_iff] at h
    obtain ⟨project, middle, hload, -, -, _, _, hsave, -, rfl⟩ := h
    obtain ⟨loaded, hloaded, rfl⟩ := Project.of_returns_load hload
    obtain ⟨json, hjson, hread⟩ := Project.read_of_save rfl hsave
    exact ⟨_, json, .addContract hloaded rfl, hjson, hread⟩
  | addAccount name address keyHex keyFile index sigAlgo hashAlgo =>
    simp only [runAddAccount, loadProject, returns_bind_iff, returns_require_iff,
      returns_adapt_iff, returns_pure_iff] at h
    obtain ⟨project, middle, hload, digits, _, ⟨hdigits, rfl⟩, material, _, ⟨hmaterial, rfl⟩, _, _,
      hsave, -, rfl⟩ := h
    obtain ⟨loaded, hloaded, rfl⟩ := Project.of_returns_load hload
    obtain ⟨json, hjson, hread⟩ := Project.read_of_save rfl hsave
    exact ⟨_, json, .addAccount hloaded hdigits hmaterial, hjson, hread⟩
  | _ => cases hsaving

/-! ## Command lines -/

theorem mem_of_choice? {choices : List Text} {value choice : Text}
    (h : choice? choices value = some choice) : choice ∈ choices := by
  unfold choice? at h
  split_ifs at h with hmem
  rwa [← Option.some.inj h]

/-- What holds of all that words are read as and of a default holds of the last that is read, or else
the default. -/
theorem getLast?_getD_of_mapM {α β : Type} {read : α → Option β} {P : β → Prop} {words : List α}
    {found : List β} {default : β} (hdefault : P default)
    (hread : ∀ {word b}, read word = some b → P b) (h : words.mapM read = some found) :
    P (found.getLast?.getD default) := by
  cases hlast : found.getLast? with
  | none => exact hdefault
  | some b =>
    obtain ⟨word, -, hword⟩ := exists_right_of_forall₂ (forall₂_of_mapM_eq_some h) b
      (List.mem_of_getLast? hlast)
    exact hread hword

theorem isAdmissible_of_parseAddAccount {words : List Text}
    (h : parseAddAccount words = some command) : command.IsAdmissible := by
  simp only [parseAddAccount, Option.bind_eq_bind, Option.bind_eq_some_iff] at h
  obtain ⟨options, -, name, -, address, -, indexes, -, sigAlgos, hsigAlgos, hashAlgos, hhashAlgos,
    h⟩ := h
  split_ifs at h
  obtain rfl := Option.some.inj h
  exact ⟨getLast?_getD_of_mapM Settings.isValid_standard.sigAlgo_mem mem_of_choice? hsigAlgos,
    getLast?_getD_of_mapM Settings.isValid_standard.hashAlgo_mem mem_of_choice? hhashAlgos⟩

/-- Only one name gives a command that adds an account. -/
theorem parseAddAccount_of_parse {name : Text} {words : List Text} {account address : Text}
    {keyHex keyFile : Option Text} {index : Int} {sigAlgo hashAlgo : Text}
    (h : parse name words = some (.addAccount account address keyHex keyFile index sigAlgo hashAlgo)) :
    parseAddAccount words =
      some (.addAccount account address keyHex keyFile index sigAlgo hashAlgo) := by
  by_cases hname : name = "accounts-add"
  · rwa [hname] at h
  · -- All other names give commands of other constructors.
    unfold parse parseInit at h
    simp only [if_neg hname, ite_eq_iff, Option.bind_eq_bind, Option.bind_eq_some_iff,
      Option.some.injEq, reduceCtorEq, and_false, exists_false, or_self] at h

/-- The command of a command line names no algorithms but the choices. -/
theorem isAdmissible_of_parse {name : Text} {words : List Text}
    (h : parse name words = some command) : command.IsAdmissible := by
  cases command with
  | addAccount => exact isAdmissible_of_parseAddAccount (parseAddAccount_of_parse h)
  | _ => trivial

end Command

/-- The path of the configuration that a command line is about. -/
def Invocation.path (invocation : Invocation) : Path :=
  Command.configPath invocation.configPath

theorem Invocation.exists_parse {words : List Text} {invocation : Invocation}
    (h : parse words = some invocation) :
    ∃ name rest, Command.parse name rest = some invocation.command := by
  simp only [parse, Option.bind_eq_bind, Option.bind_eq_some_iff] at h
  obtain ⟨⟨options, rest⟩, -, thresholds, -, h⟩ := h
  cases rest with
  | nil => cases h
  | cons name words =>
    simp only [Option.bind_eq_some_iff] at h
    obtain ⟨command, hcommand, h⟩ := h
    obtain rfl := Option.some.inj h
    exact ⟨name, words, hcommand⟩

theorem Invocation.isAdmissible_of_parse {words : List Text} {invocation : Invocation}
    (h : parse words = some invocation) : invocation.command.IsAdmissible := by
  obtain ⟨_, _, hcommand⟩ := exists_parse h
  exact Command.isAdmissible_of_parse hcommand

/-- Whether a command has ended with the exit code that stands for success. -/
def Outcome.isSuccess : Outcome → Bool
  | ended exit _ _ => exit = 0
  | _ => false

theorem Outcome.isSuccess_of_iff {threshold : LogThreshold} {result : Except CommandFault Text}
    {log : List LogRecord} :
    (of threshold result log).isSuccess = true ↔ ∃ printed, result = .ok printed := by
  cases result with
  | ok printed => exact ⟨fun _ => ⟨printed, rfl⟩, fun _ => rfl⟩
  | error fault =>
    refine ⟨fun h => ?_, nofun⟩
    simp only [of] at h
    split_ifs at h
    · cases h
    · cases h

theorem Outcome.run_of_parse {σ : Type} [FileStore (StateM σ)] {words : List Text}
    {invocation : Invocation} (h : Invocation.parse words = some invocation) (s : σ) :
    (run words : StateM σ Outcome) s =
      have after := (invocation.command.run invocation.path : Session _ (StateM σ) Text) [] s
      (of invocation.threshold after.1.1 after.1.2, after.2) := by
  rw [run, h]
  rfl

namespace Disk

/-- What the user sees of a command line that is run on the disk. -/
def outcome (disk : Disk) (words : List Text) : Outcome :=
  ((Outcome.run words : Action Outcome) disk).1

/-- The disk after a command line was run on it. -/
def afterLine (disk : Disk) (words : List Text) : Disk :=
  ((Outcome.run words : Action Outcome) disk).2

/-- The disk after command lines were run on it one after the other. -/
def after (disk : Disk) (lines : List (List Text)) : Disk :=
  lines.foldl afterLine disk

theorem after_concat (disk : Disk) (lines : List (List Text)) (words : List Text) :
    disk.after (lines ++ [words]) = (disk.after lines).afterLine words := by
  rw [after, List.foldl_append]
  rfl

variable {disk : Disk} {words : List Text} {invocation : Invocation}

/-- A command line ends well when its command returns. -/
theorem returns_of_outcome (hparse : Invocation.parse words = some invocation)
    (h : (disk.outcome words).isSuccess = true) : ∃ printed notes,
      (invocation.command.run invocation.path).Returns ([], disk) printed
        (notes, disk.afterLine words) := by
  rw [outcome, Outcome.run_of_parse hparse] at h
  rw [afterLine, Outcome.run_of_parse hparse]
  obtain ⟨⟨⟨result, log⟩, after⟩, hrun⟩ : ∃ run, (invocation.command.run invocation.path :
      Session CommandFault Action Text) [] disk = run := ⟨_, rfl⟩
  rw [hrun] at h ⊢
  obtain ⟨printed, rfl⟩ := Outcome.isSuccess_of_iff.mp h
  exact ⟨printed, log, hrun⟩

/-- After any command lines, a command line that saves a configuration and ends well leaves the text
of what it saves in the file. From there the configuration is loaded, its contracts grouped by name,
exactly if all of its records are storable and plain. -/
theorem loaded_after_iff (disk : Disk) (earlier : List (List Text))
    (hparse : Invocation.parse words = some invocation)
    (hsaving : invocation.command.isSaving = true)
    (h : ((disk.after earlier).outcome words).isSuccess = true) :
    ∃ document json, invocation.command.Saves (disk.after earlier) invocation.path document ∧
      document.encode .standard = .ok json ∧
      (disk.after (earlier ++ [words])).read invocation.path =
        .ok (Project.asciiBytes (Project.fileText json)) ∧
      ((disk.after (earlier ++ [words])).loaded invocation.path = .ok document.regrouped ↔
        document.IsStorable ∧ document.IsPlain) := by
  obtain ⟨printed, notes, hreturns⟩ := returns_of_outcome hparse h
  obtain ⟨document, json, hsaves, hjson, hread⟩ :=
    Command.exists_saves_of_returns hsaving hreturns
  have hproper := hsaves.isProper (Invocation.isAdmissible_of_parse hparse)
  rw [after_concat]
  exact ⟨document, json, hsaves, hjson, hread, loaded_of_read_iff hproper hjson hread⟩

/-- A project that is set up with a key of 64 ones is loaded. -/
theorem loaded_after_init : ∃ words document,
    (empty.outcome words).isSuccess = true ∧
      (empty.after [words]).loaded ⟨[], ["flow.json"]⟩ = .ok document := by
  obtain ⟨key, hkey⟩ : ∃ key : Text,
    key = "1111111111111111111111111111111111111111111111111111111111111111" := ⟨_, rfl⟩
  have hvalid : PrivateKey.validate key Settings.standard.sigAlgo = .ok key := by
    rw [hkey]
    decide +kernel
  have hcanonical : PrivateKey.IsCanonical key := by
    rw [hkey]
    decide
  have hparse : Invocation.parse ["init", "--service-key", key] =
      some ⟨none, .error, .setUp key false⟩ := by
    rw [hkey]
    rfl
  have hsuccess : (empty.outcome ["init", "--service-key", key]).isSuccess = true := by
    rw [hkey]
    decide +kernel
  obtain ⟨document, json, hsaves, -, -, hiff⟩ := loaded_after_iff empty [] hparse rfl hsuccess
  refine ⟨_, document.regrouped, hsuccess, hiff.mpr ?_⟩
  cases hsaves with
  | setUp h =>
    obtain ⟨hplain, hstorable⟩ := Project.isStorable_of_initial_iff h hvalid
    exact ⟨hstorable.mpr hcanonical, hplain⟩

/-- An account with a key index below zero is added, and then the project is not loaded any more. -/
theorem not_loaded_after_negative_index : ∃ (disk : Disk) (words : List Text)
    (invocation : Invocation), Invocation.parse words = some invocation ∧
      invocation.command.isSaving = true ∧ (disk.outcome words).isSuccess = true ∧
        ∀ document, (disk.after [words]).loaded invocation.path ≠ .ok document := by
  refine ⟨empty.put ⟨.above 0, ["flow.json"]⟩ (.file (Project.asciiBytes "\x7b\x7d")),
    ["accounts-add", "--name", "neg", "--address", "1", "--key-file", "neg.key", "--index", "-1"],
    ⟨none, .error, .addAccount "neg" "1" none (some "neg.key") (-1) "ECDSA_P256" "SHA3_256"⟩,
    rfl, rfl, by decide +kernel, fun document h => ?_⟩
  exact absurd (isOk_of_eq_ok h) (by decide +kernel)

end Disk

end ContractKit
