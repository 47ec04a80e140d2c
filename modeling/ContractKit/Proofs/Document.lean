import ContractKit.Config.Document
import ContractKit.Proofs.Accounts
import ContractKit.Proofs.Contracts
import ContractKit.Proofs.Deployments
import ContractKit.Proofs.Networks

/-!
# Documents are read back

A document is proper (`Document.IsProper`) when all of its records are, as those of a decoded document
are. The JSON value of a proper document is decoded to the document with its contracts grouped by name
(`Document.decode_encode`) exactly when the document is storable (`Document.IsStorable`). A decoded
document has a JSON value, and fails to be storable only for a deployment without a name or a private
key that holds blanks (`Document.round_trip`).
-/

namespace ContractKit.Document

/-- All records of the document are proper, and networks, emulators and accounts have distinct
names. -/
structure IsProper (document : Document) : Prop where
  emulators : (document.emulators.map (·.name)).Nodup ∧ ∀ e ∈ document.emulators, e.IsProper
  networks : (document.networks.map (·.name)).Nodup ∧ ∀ n ∈ document.networks, n.host ≠ []
  accounts : (document.accounts.map (·.name)).Nodup ∧ ∀ a ∈ document.accounts, a.IsProper
  deployments : ∀ d ∈ document.deployments, d.IsProper

/-- A section can declare each record of the document and be read. -/
structure IsStorable (document : Document) : Prop where
  contracts : ∀ c ∈ document.contracts, c.location ≠ []
  accounts : ∀ a ∈ document.accounts, a.key.IsStorable
  deployments : ∀ d ∈ document.deployments, d.IsNamed

/-- The document with its contracts grouped by name. -/
def regrouped (document : Document) : Document :=
  { document with contracts := document.contracts.regroup }

/-! ## Sections -/

variable {document : Document}

/-- The sections of a document, with the given contracts and deployments sections. -/
def sectionMembers (document : Document) (contracts deployments : Json) : List (Text × Json) :=
  [("emulators", document.emulators.encode), ("contracts", contracts),
    ("networks", document.networks.encode), ("accounts", document.accounts.encode),
    ("deployments", deployments)]

theorem encode_eq_ok_iff {settings : Settings} {out : Json} :
    document.encode settings = .ok out ↔ ∃ contracts deployments,
      document.contracts.encode settings.defaultNetwork = .ok contracts ∧
      document.deployments.encode = .ok deployments ∧
      out = .obj ((document.sectionMembers contracts deployments).filter
        fun member => !isEmptySection member.2) := by
  unfold encode
  simp only [bind_eq_ok_iff, mapError_eq_ok_iff, Except.ok.injEq]
  constructor
  · rintro ⟨contracts, hcontracts, deployments, hdeployments, rfl⟩
    exact ⟨contracts, deployments, hcontracts, hdeployments, rfl⟩
  · rintro ⟨contracts, deployments, hcontracts, hdeployments, rfl⟩
    exact ⟨contracts, hcontracts, deployments, hdeployments, rfl⟩

/-- An empty section is left out and found as its default. -/
theorem fieldOr_filter {name : Text} {default found : Json} {members : List (Text × Json)}
    (hnames : (Entries.names members).Nodup) (hget : Entries.get? name members = some found)
    (hdefault : isEmptySection found = true → found = default) :
    Format.fieldOr name default (members.filter fun member => !isEmptySection member.2) =
      found := by
  rw [Format.fieldOr, Entries.get?_filter (fun j => !isEmptySection j) name hnames, hget,
    Option.filter_some]
  split_ifs with hempty
  · rfl
  · rw [Bool.not_eq_true', Bool.not_eq_false] at hempty
    exact (hdefault hempty).symm

theorem eq_of_isEmptySection_obj {members : List (Text × Json)}
    (h : isEmptySection (.obj members) = true) : Json.obj members = .obj [] := by
  cases members with
  | nil => rfl
  | cons _ _ => cases h

theorem eq_of_isEmptySection_arr {items : List Json}
    (h : isEmptySection (.arr items) = true) : Json.arr items = .arr [] := by
  cases items with
  | nil => rfl
  | cons _ _ => cases h

theorem decode_eq_ok_iff {members : List (Text × Json)} {settings : Settings} :
    decode (.obj members) settings = .ok document ↔
      Contracts.decode (Format.fieldOr "contracts" (.obj []) members) settings.defaultNetwork =
        .ok document.contracts ∧
      Accounts.decode (Format.fieldOr "accounts" (.obj []) members) settings =
        .ok document.accounts ∧
      Networks.decode (Format.fieldOr "networks" (.obj []) members) = .ok document.networks ∧
      Emulators.decode (Format.fieldOr "emulators" (.obj []) members) = .ok document.emulators ∧
      Deployments.decode (Format.fieldOr "deployments" (.arr []) members) =
        .ok document.deployments := by
  simp only [decode, Format.members, ok_bind, bind_eq_ok_iff, Except.ok.injEq]
  constructor
  · rintro ⟨_, hcontracts, _, haccounts, _, hnetworks, _, hemulators, _, hdeployments, rfl⟩
    exact ⟨hcontracts, haccounts, hnetworks, hemulators, hdeployments⟩
  · rintro ⟨hcontracts, haccounts, hnetworks, hemulators, hdeployments⟩
    exact ⟨_, hcontracts, _, haccounts, _, hnetworks, _, hemulators, _, hdeployments, rfl⟩

/-- Decoding what a document is encoded to decodes each of its sections. -/
theorem decode_of_encode (found : Document) {settings : Settings} {out : Json}
    (h : document.encode settings = .ok out) : ∃ contracts deployments,
      document.contracts.encode settings.defaultNetwork = .ok contracts ∧
      document.deployments.encode = .ok deployments ∧
      (decode out settings = .ok found ↔
        Contracts.decode contracts settings.defaultNetwork = .ok found.contracts ∧
        Accounts.decode document.accounts.encode settings = .ok found.accounts ∧
        Networks.decode document.networks.encode = .ok found.networks ∧
        Emulators.decode document.emulators.encode = .ok found.emulators ∧
        Deployments.decode deployments = .ok found.deployments) := by
  obtain ⟨contracts, deployments, hcontracts, hdeployments, rfl⟩ := encode_eq_ok_iff.mp h
  refine ⟨contracts, deployments, hcontracts, hdeployments, ?_⟩
  have hnames : (Entries.names (document.sectionMembers contracts deployments)).Nodup :=
    show (["emulators", "contracts", "networks", "accounts", "deployments"] : List Text).Nodup by
      decide
  obtain ⟨members, rfl, -⟩ := Contracts.encode_eq_ok_iff.mp hcontracts
  obtain ⟨items, -, rfl⟩ := Deployments.encode_eq_ok_iff.mp hdeployments
  rw [decode_eq_ok_iff, fieldOr_filter hnames rfl eq_of_isEmptySection_obj,
    fieldOr_filter hnames rfl eq_of_isEmptySection_obj,
    fieldOr_filter hnames rfl eq_of_isEmptySection_obj,
    fieldOr_filter hnames rfl eq_of_isEmptySection_obj,
    fieldOr_filter hnames rfl eq_of_isEmptySection_arr]
  exact Iff.rfl

/-! ## Round trip -/

/-- A proper, storable document is decoded from its JSON value, its contracts grouped by name. -/
theorem decode_encode {out : Json} (hproper : document.IsProper) (hstorable : document.IsStorable)
    (h : document.encode .standard = .ok out) : decode out .standard = .ok document.regrouped := by
  obtain ⟨contracts, deployments, hcontracts, hdeployments, hiff⟩ :=
    decode_of_encode document.regrouped h
  exact hiff.mpr ⟨Contracts.decode_encode hcontracts hstorable.contracts,
    Accounts.decode_encode hproper.accounts.1 hproper.accounts.2 hstorable.accounts,
    Networks.decode_encode hproper.networks.1 hproper.networks.2,
    Emulators.decode_encode hproper.emulators.1 hproper.emulators.2,
    Deployments.decode_encode hproper.deployments hstorable.deployments hdeployments⟩

/-- Only a storable document is decoded from its JSON value. -/
theorem isStorable_of_decode_encode {found : Document} {out : Json} (hproper : document.IsProper)
    (h : document.encode .standard = .ok out) (hfound : decode out .standard = .ok found) :
    document.IsStorable := by
  obtain ⟨contracts, deployments, hcontracts, hdeployments, hiff⟩ :=
    decode_of_encode found h
  obtain ⟨hc, ha, -, -, hd⟩ := hiff.mp hfound
  refine ⟨fun c hmem hlocation => ?_,
    Accounts.isStorable_of_decode_encode hproper.accounts.1 hproper.accounts.2 ha,
    Deployments.isNamed_of_decode_encode hdeployments hd⟩
  obtain ⟨e, he⟩ := Contracts.exists_error_of_decode_encode hcontracts hmem hlocation
  rw [he] at hc
  cases hc

/-! ## Decoded documents -/

/-- A deployment of the document has no network or no account. -/
def HasUnnamedDeployment (document : Document) : Prop :=
  ∃ d ∈ document.deployments, d.network = [] ∨ d.account = []

/-- A private key in the document is not made of 64 hexadecimal digits. -/
def HasBlankKey (document : Document) : Prop :=
  ∃ a ∈ document.accounts, ∃ privateKey, a.key.material = .hex privateKey ∧
    ¬ (privateKey.length = 64 ∧ ∀ c ∈ privateKey, Numeral.isHexDigit c = true)

theorem isProper_of_decode {raw : Json} (hraw : raw.HasDistinctNames)
    (h : decode raw .standard = .ok document) : document.IsProper := by
  obtain ⟨members, hmembers, -⟩ := bind_eq_ok_iff.mp h
  obtain rfl := Format.members_eq_ok_iff.mp hmembers
  obtain ⟨-, haccounts, hnetworks, hemulators, hdeployments⟩ := decode_eq_ok_iff.mp h
  have hsection : ∀ name, (Format.fieldOr name (.obj []) members).HasDistinctNames := fun _ =>
    Format.hasDistinctNames_fieldOr _ hraw .empty
  obtain ⟨hnames, hread⟩ := Accounts.of_decode Settings.isValid_standard (hsection _) haccounts
  exact {
    emulators := Emulators.of_decode (hsection _) hemulators
    networks := Networks.of_decode (hsection _) hnetworks
    accounts := ⟨hnames, fun a ha => ⟨(hread a ha).1, (hread a ha).2.1⟩⟩
    deployments := Deployments.isProper_of_decode hdeployments }

/-- The contracts of a decoded document have declarations and stand grouped by name. -/
theorem contracts_of_decode {raw : Json} (hraw : raw.HasDistinctNames)
    (h : decode raw .standard = .ok document) :
    (∃ json, document.contracts.encode Settings.standard.defaultNetwork = .ok json) ∧
      document.regrouped = document ∧ ∀ c ∈ document.contracts, c.location ≠ [] := by
  obtain ⟨members, hmembers, -⟩ := bind_eq_ok_iff.mp h
  obtain rfl := Format.members_eq_ok_iff.mp hmembers
  obtain ⟨hcontracts, -⟩ := decode_eq_ok_iff.mp h
  obtain ⟨hdeclarable, hregroup, hlocations⟩ := Contracts.of_decode
    (Format.hasDistinctNames_fieldOr _ hraw .empty) hcontracts
  refine ⟨Contracts.exists_encode_iff.mpr hdeclarable, ?_, hlocations⟩
  rw [regrouped, hregroup]

theorem exists_encode_of_decode {raw : Json} (hraw : raw.HasDistinctNames)
    (h : decode raw .standard = .ok document) : ∃ out, document.encode .standard = .ok out := by
  obtain ⟨⟨contracts, hcontracts⟩, -, -⟩ := contracts_of_decode hraw h
  obtain ⟨deployments, hdeployments⟩ :=
    Deployments.exists_encode (isProper_of_decode hraw h).deployments
  exact ⟨_, encode_eq_ok_iff.mpr ⟨contracts, deployments, hcontracts, hdeployments, rfl⟩⟩

theorem isStorable_iff_of_decode {raw : Json} (hraw : raw.HasDistinctNames)
    (h : decode raw .standard = .ok document) :
    document.IsStorable ↔ ¬ (document.HasUnnamedDeployment ∨ document.HasBlankKey) := by
  obtain ⟨-, -, hlocations⟩ := contracts_of_decode hraw h
  constructor
  · rintro hstorable (⟨d, hd, hempty⟩ | ⟨a, ha, privateKey, hmaterial, hbad⟩)
    · obtain ⟨hnetwork, haccount⟩ := hstorable.deployments d hd
      exact hempty.elim hnetwork haccount
    · have hkey := (hstorable.accounts a ha).2
      rw [hmaterial] at hkey
      exact hbad hkey
  · intro hgood
    obtain ⟨members, hmembers, -⟩ := bind_eq_ok_iff.mp h
    obtain rfl := Format.members_eq_ok_iff.mp hmembers
    obtain ⟨-, haccounts, -⟩ := decode_eq_ok_iff.mp h
    obtain ⟨-, hread⟩ := Accounts.of_decode Settings.isValid_standard
      (Format.hasDistinctNames_fieldOr _ hraw .empty) haccounts
    refine ⟨hlocations, fun a ha => (hread a ha).2.2 fun privateKey hmaterial => ?_, fun d hd => ?_⟩
    · by_contra hbad
      exact hgood (Or.inr ⟨a, ha, privateKey, hmaterial, hbad⟩)
    · exact ⟨fun hnetwork => hgood (Or.inl ⟨d, hd, Or.inl hnetwork⟩),
        fun haccount => hgood (Or.inl ⟨d, hd, Or.inr haccount⟩)⟩

/-- A decoded document has a JSON value, which decodes to the document again, unless a deployment has
no name or a private key is not hexadecimal; then it does not decode. -/
theorem round_trip {raw : Json} (hraw : raw.HasDistinctNames)
    (h : decode raw .standard = .ok document) : ∃ out, document.encode .standard = .ok out ∧
      (document.HasUnnamedDeployment ∨ document.HasBlankKey →
        ∃ e, decode out .standard = .error e) ∧
      (¬ (document.HasUnnamedDeployment ∨ document.HasBlankKey) →
        decode out .standard = .ok document) := by
  have hproper := isProper_of_decode hraw h
  have hstorable := isStorable_iff_of_decode hraw h
  obtain ⟨-, hregrouped, -⟩ := contracts_of_decode hraw h
  obtain ⟨out, hout⟩ := exists_encode_of_decode hraw h
  refine ⟨out, hout, fun hbad => ?_, fun hgood => ?_⟩
  · refine exists_error_of_forall_ne fun found hfound => ?_
    exact hstorable.mp (isStorable_of_decode_encode hproper hout hfound) hbad
  · rw [decode_encode hproper (hstorable.mpr hgood) hout, hregrouped]

/-- A deployment to an account without a name is read from the nested form only. -/
theorem round_trip_of_empty_account :
    ∃ document out, decode (.obj [("contracts", .obj [("A", .str "a.cdc")]),
        ("deployments", .obj [("testnet", .obj [([], .arr [.str "A"])])])]) .standard =
          .ok document ∧
      document.encode .standard = .ok out ∧ ∃ e, decode out .standard = .error e := by
  have hdecode : decode (.obj [("contracts", .obj [("A", .str "a.cdc")]),
      ("deployments", .obj [("testnet", .obj [([], .arr [.str "A"])])])]) .standard =
        .ok ⟨[], [⟨"A", "a.cdc", "emulator", []⟩], [], [], [⟨"testnet", [], [⟨"A", []⟩]⟩]⟩ := rfl
  have hraw : Json.HasDistinctNames (.obj [("contracts", .obj [("A", .str "a.cdc")]),
      ("deployments", .obj [("testnet", .obj [([], .arr [.str "A"])])])]) := by
    refine .obj (by decide) ?_
    simp only [List.forall_mem_cons, List.not_mem_nil, false_imp_iff, implies_true, and_true]
    refine ⟨.obj (by decide) ?_, .obj (by decide) ?_⟩
    · simpa using Json.HasDistinctNames.str _
    · simpa using Json.HasDistinctNames.obj (by decide) (by simpa using .arr (by simpa using .str _))
  obtain ⟨out, hout, hbad, -⟩ := round_trip hraw hdecode
  exact ⟨_, out, hdecode, hout, hbad (Or.inl ⟨_, List.mem_singleton_self _, Or.inr rfl⟩)⟩

end ContractKit.Document
