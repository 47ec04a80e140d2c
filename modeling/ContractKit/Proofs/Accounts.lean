import ContractKit.Config.Accounts
import ContractKit.Proofs.Format
import ContractKit.Proofs.PrivateKey

/-!
# The accounts section is read back

A proper account (`Account.IsProper`) has a canonical address, supported algorithms and, if it holds a
private key, one that was validated. Its declaration is read back exactly when its key is storable
(`AccountKey.IsStorable`): the index is a natural number, a key in the configuration consists of
hexadecimal digits and a key in a file has a location. `Accounts.readKey_declaration` says for both
kinds of declarations, a key alone and an object, what reading them comes down to.
-/

namespace ContractKit

/-- The defaults of the settings are ones that a key and an address may have. -/
structure Settings.IsValid (settings : Settings) : Prop where
  keyIndex_nonneg : 0 ≤ settings.keyIndex
  sigAlgo_mem : settings.sigAlgo ∈ settings.sigAlgos
  hashAlgo_mem : settings.hashAlgo ∈ settings.hashAlgos
  curve : (Curve.ofAlgorithm? settings.sigAlgo).isSome = true
  serviceAddress : Address.IsCanonical settings.serviceAddress

/-- A key names algorithms of the settings and holds no private key but a validated one. -/
def AccountKey.IsProperUnder (settings : Settings) (key : AccountKey) : Prop :=
  key.sigAlgo ∈ settings.sigAlgos ∧ key.hashAlgo ∈ settings.hashAlgos ∧
    ∀ privateKey, key.material = .hex privateKey → PrivateKey.IsValidated privateKey key.sigAlgo

/-- A key names supported algorithms and holds no private key but a validated one. -/
def AccountKey.IsProper (key : AccountKey) : Prop :=
  key.IsProperUnder .standard

/-- An account has a canonical address and a proper key. -/
def Account.IsProper (account : Account) : Prop :=
  Address.IsCanonical account.address ∧ account.key.IsProper

/-- A declaration can give the key: its private key consists of hexadecimal digits, or the file it
is in has a location. -/
def KeyMaterial.IsStorable : KeyMaterial → Prop
  | hex privateKey => PrivateKey.IsCanonical privateKey
  | file location => ∃ text, location = some text ∧ text ≠ []

/-- A declaration can give the key, its index included. -/
def AccountKey.IsStorable (key : AccountKey) : Prop :=
  0 ≤ key.index ∧ key.material.IsStorable

/-- A declaration can give the key if the private key it may hold consists of hexadecimal digits. -/
def AccountKey.IsNearlyStorable (key : AccountKey) : Prop :=
  (∀ privateKey, key.material = .hex privateKey → PrivateKey.IsCanonical privateKey) →
    key.IsStorable

/-! ## Proper keys -/

theorem Settings.isValid_standard : standard.IsValid where
  keyIndex_nonneg := by decide
  sigAlgo_mem := by decide
  hashAlgo_mem := by decide
  curve := by decide
  serviceAddress := ⟨by decide, by decide⟩

/-- A key that holds a validated private key is proper. -/
theorem AccountKey.IsProperUnder.of_isValidated {settings : Settings} {index : Int}
    {sigAlgo hashAlgo privateKey : Text} (hsig : sigAlgo ∈ settings.sigAlgos)
    (hhash : hashAlgo ∈ settings.hashAlgos) (h : PrivateKey.IsValidated privateKey sigAlgo) :
    IsProperUnder settings ⟨index, sigAlgo, hashAlgo, .hex privateKey⟩ := by
  refine ⟨hsig, hhash, fun found hfound => ?_⟩
  rw [← KeyMaterial.hex.inj hfound]
  exact h

namespace Accounts

variable {settings : Settings}

/-! ## Parts of an account -/

theorem readAddress_of_isCanonical {name digits : Text} (h : Address.IsCanonical digits) :
    readAddress settings name (.str digits) = .ok digits := by
  have hservice : digits ≠ "service" := by
    rintro rfl
    exact absurd h.1 (by decide)
  simp only [readAddress, Format.text_str h.ne_nil, ok_bind, if_neg hservice,
    Address.normalize_of_isCanonical h]

theorem isCanonical_of_readAddress {name digits : Text} {raw : Json} (hsettings : settings.IsValid)
    (h : readAddress settings name raw = .ok digits) : Address.IsCanonical digits := by
  obtain ⟨text, -, h⟩ := bind_eq_ok_iff.mp h
  split_ifs at h
  · rw [← Except.ok.inj h]
    exact hsettings.serviceAddress
  · split at h
    · next found hfound =>
      rw [← Except.ok.inj h]
      exact Address.isCanonical_of_normalize hfound
    · cases h

theorem readPrivateKey_eq_ok_iff {name algorithm key : Text} {raw : Json} :
    readPrivateKey name raw algorithm = .ok key ↔
      ∃ text, raw = .str text ∧ text ≠ [] ∧ PrivateKey.validate text algorithm = .ok key := by
  unfold readPrivateKey
  simp only [bind_eq_ok_iff, Format.text_eq_ok_iff]
  constructor
  · rintro ⟨text, ⟨rfl, hne⟩, h⟩
    split at h
    · next found hfound => exact ⟨text, rfl, hne, Except.ok.inj h ▸ hfound⟩
    · cases h
  · rintro ⟨text, rfl, hne, h⟩
    refine ⟨text, ⟨rfl, hne⟩, ?_⟩
    rw [h]

/-- The name of the algorithm stands for the algorithm: no other choice comes before it that has the
same name, blanks and case aside. -/
def IsChoice (choices : List Text) (algorithm : Text) : Prop :=
  choices.find? (fun choice => choice.lower = algorithm.trim.lower) = some algorithm

instance (choices : List Text) (algorithm : Text) : Decidable (IsChoice choices algorithm) := by
  unfold IsChoice
  infer_instance

theorem readAlgorithm_eq_ok_iff {name sort algorithm : Text} {choices : List Text} :
    readAlgorithm name sort choices (.str algorithm) = .ok algorithm ↔
      IsChoice choices algorithm := by
  have hdisplay : (Json.str algorithm).display = algorithm := rfl
  unfold readAlgorithm IsChoice
  rw [hdisplay]
  split
  · next found hfound => rw [hfound, Except.ok.injEq, Option.some.injEq]
  · next hnone => simp [hnone]

/-- The standard algorithms stand for themselves. -/
theorem isChoice_of_mem {algorithm : Text} {choices : List Text}
    (hchoices : choices = Settings.standard.sigAlgos ∨ choices = Settings.standard.hashAlgos)
    (h : algorithm ∈ choices) : IsChoice choices algorithm := by
  have hall : ∀ algorithm ∈ choices, IsChoice choices algorithm := by
    rcases hchoices with rfl | rfl
    · decide +kernel
    · decide +kernel
  exact hall algorithm h

theorem mem_of_readAlgorithm {name sort algorithm : Text} {choices : List Text} {raw : Json}
    (h : readAlgorithm name sort choices raw = .ok algorithm) : algorithm ∈ choices := by
  unfold readAlgorithm at h
  split at h
  · next found hfound =>
    rw [← Except.ok.inj h]
    exact List.mem_of_find?_eq_some hfound
  · cases h

theorem readIndex_eq_ok_iff {name : Text} {raw : Json} {index : Int} :
    readIndex name raw = .ok index ↔ raw = .int index ∧ 0 ≤ index := by
  unfold readIndex
  split
  · split_ifs with h
    · simp only [Except.ok.injEq, Json.int.injEq]
      refine ⟨?_, fun h => h.1⟩
      rintro rfl
      exact ⟨rfl, h⟩
    · simp only [Json.int.injEq, false_iff, not_and]
      rintro rfl
      exact h
  · next hno =>
    refine ⟨nofun, ?_⟩
    rintro ⟨rfl, -⟩
    exact absurd rfl (hno index)

theorem readIsFile_typeName (name : Text) (material : KeyMaterial) :
    readIsFile name (.str material.typeName) =
      .ok (match material with | .hex _ => false | .file _ => true) := by
  have hhex : (Json.str "hex").display.trim.lower = "hex" := by decide +kernel
  have hfile : (Json.str "file").display.trim.lower = "file" := by decide +kernel
  have hne : ("file" : Text) ≠ "hex" := by decide
  unfold readIsFile
  cases material with
  | hex privateKey => simp only [KeyMaterial.typeName, hhex, if_true]
  | file location => simp only [KeyMaterial.typeName, hfile, if_neg hne, if_true]

/-! ## Keys -/

/-- What the JSON value of the material says about the key. -/
def readMaterial (name sigAlgo : Text) : KeyMaterial → Except FormatError KeyMaterial
  | .hex privateKey => (readPrivateKey name (.str privateKey) sigAlgo).map .hex
  | .file location =>
    (Format.text (place name "key location") (location.elim .null .str)).map fun text =>
      .file (some text)

/-- Reading the object of a key reads its index, the names of its algorithms and its material. -/
theorem readKey_record (key : AccountKey) (name : Text) :
    readKey settings name key.record = (do
      let index ← readIndex name (.int key.index)
      let sigAlgo ← readAlgorithm name "signature algorithm" settings.sigAlgos (.str key.sigAlgo)
      let hashAlgo ← readAlgorithm name "hash algorithm" settings.hashAlgos (.str key.hashAlgo)
      let material ← readMaterial name sigAlgo key.material
      .ok ⟨index, sigAlgo, hashAlgo, material⟩) := by
  have htype : Format.fieldOr "type" (.str "hex") (key.description ++ [key.material.member]) =
      .str key.material.typeName := rfl
  have hindex : Format.fieldOr "index" (.int settings.keyIndex)
      (key.description ++ [key.material.member]) = .int key.index := rfl
  have hsigAlgo : Format.fieldOr "signatureAlgorithm" (.str settings.sigAlgo)
      (key.description ++ [key.material.member]) = .str key.sigAlgo := rfl
  have hhashAlgo : Format.fieldOr "hashAlgorithm" (.str settings.hashAlgo)
      (key.description ++ [key.material.member]) = .str key.hashAlgo := rfl
  simp only [AccountKey.record, readKey, Format.members, ok_bind, htype, hindex, hsigAlgo, hhashAlgo,
    readIsFile_typeName]
  refine bind_congr fun index => bind_congr fun sigAlgo => bind_congr fun hashAlgo => ?_
  cases hmaterial : key.material with
  | hex privateKey =>
    have hfound : Format.field "privateKey"
        (key.description ++ [(KeyMaterial.hex privateKey).member]) = .str privateKey := by
      rw [AccountKey.description, hmaterial]
      rfl
    simp only [hfound, readMaterial]
    cases readPrivateKey name (.str privateKey) sigAlgo <;> rfl
  | file location =>
    have hfound : Format.field "location"
        (key.description ++ [(KeyMaterial.file location).member]) = location.elim .null .str := by
      rw [AccountKey.description, hmaterial]
      cases location <;> rfl
    simp only [hfound, readMaterial, if_true]
    cases Format.text (place name "key location") (location.elim .null .str) <;> rfl

/-- A key that is read from its private key alone has the settings in force around it. -/
theorem readKey_str (name privateKey : Text) :
    readKey settings name (.str privateKey) = (do
      let material ← readMaterial name settings.sigAlgo (.hex privateKey)
      .ok ⟨settings.keyIndex, settings.sigAlgo, settings.hashAlgo, material⟩) := by
  simp only [readKey, readMaterial]
  cases readPrivateKey name (.str privateKey) settings.sigAlgo <;> rfl

theorem bare?_eq_some_iff {key : AccountKey} {privateKey : Text} :
    key.bare? = some privateKey ↔ key = ⟨Settings.standard.keyIndex, Settings.standard.sigAlgo,
      Settings.standard.hashAlgo, .hex privateKey⟩ := by
  obtain ⟨index, sigAlgo, hashAlgo, material⟩ := key
  cases material with
  | hex found =>
    simp only [AccountKey.bare?, AccountKey.mk.injEq, KeyMaterial.hex.injEq]
    split_ifs with hstandard
    · simp [hstandard]
    · simp only [false_iff, not_and]
      exact fun h1 h2 h3 _ => hstandard ⟨h1, h2, h3⟩
  | file location => simp [AccountKey.bare?]

/-- Reading the declaration of a key, the private key alone or an object, reads its index and its
material. -/
theorem readKey_declaration {key : AccountKey} (name : Text) (h : key.IsProper) :
    readKey .standard name (keyDeclaration key) = (do
      let index ← readIndex name (.int key.index)
      let material ← readMaterial name key.sigAlgo key.material
      .ok ⟨index, key.sigAlgo, key.hashAlgo, material⟩) := by
  unfold keyDeclaration
  split
  · next privateKey hbare =>
    obtain rfl := bare?_eq_some_iff.mp hbare
    exact readKey_str name privateKey
  · obtain ⟨hsig, hhash, -⟩ := h
    rw [readKey_record, readAlgorithm_eq_ok_iff.mpr (isChoice_of_mem (Or.inl rfl) hsig),
      readAlgorithm_eq_ok_iff.mpr (isChoice_of_mem (Or.inr rfl) hhash)]
    rfl

theorem readMaterial_of_isStorable {key : AccountKey} (name : Text) (h : key.IsProperUnder settings)
    (hstorable : key.material.IsStorable) :
    readMaterial name key.sigAlgo key.material = .ok key.material := by
  obtain ⟨-, -, hvalid⟩ := h
  cases hmaterial : key.material with
  | hex privateKey =>
    rw [hmaterial] at hstorable
    have hne : privateKey ≠ [] := by
      rintro rfl
      exact absurd hstorable.1 (by decide)
    refine map_eq_ok_iff.mpr ⟨privateKey, readPrivateKey_eq_ok_iff.mpr ⟨privateKey, rfl, hne, ?_⟩, rfl⟩
    exact PrivateKey.validate_of_isCanonical (hvalid privateKey hmaterial) hstorable
  | file location =>
    rw [hmaterial] at hstorable
    obtain ⟨text, rfl, hne⟩ := hstorable
    exact map_eq_ok_iff.mpr ⟨text, Format.text_str hne, rfl⟩

theorem isStorable_of_readMaterial {key : AccountKey} {name : Text} {material : KeyMaterial}
    (h : key.IsProper) (hread : readMaterial name key.sigAlgo key.material = .ok material) :
    key.material.IsStorable := by
  obtain ⟨-, -, hvalid⟩ := h
  cases hmaterial : key.material with
  | hex privateKey =>
    rw [hmaterial] at hread
    obtain ⟨found, hfound, -⟩ := map_eq_ok_iff.mp hread
    obtain ⟨text, htext, -, hagain⟩ := readPrivateKey_eq_ok_iff.mp hfound
    obtain rfl := Json.str.inj htext
    by_contra hbad
    obtain ⟨e, he⟩ := PrivateKey.exists_error_of_not_isCanonical (hvalid privateKey hmaterial) hbad
      key.sigAlgo
    rw [he] at hagain
    cases hagain
  | file location =>
    rw [hmaterial] at hread
    obtain ⟨text, htext, -⟩ := map_eq_ok_iff.mp hread
    obtain ⟨hlocation, hne⟩ := Format.text_eq_ok_iff.mp htext
    cases location with
    | none => cases hlocation
    | some found => exact ⟨found, rfl, Json.str.inj hlocation ▸ hne⟩

/-! ## Accounts -/

/-- The JSON value that declares an account. -/
def declaration (account : Account) : Json :=
  .obj [("address", .str account.address), ("key", keyDeclaration account.key)]

/-- Reading the declaration of an account reads its key. -/
theorem read_declaration_key {account : Account} (haddress : Address.IsCanonical account.address) :
    read settings account.name (declaration account) = (do
      let key ← readKey settings account.name (keyDeclaration account.key)
      .ok { account with key := key }) := by
  have hkey : Entries.get? "key" [("address", Json.str account.address),
      ("key", keyDeclaration account.key)] = some (keyDeclaration account.key) := rfl
  have hfield : Format.field "address" [("address", Json.str account.address),
      ("key", keyDeclaration account.key)] = .str account.address := rfl
  simp only [declaration, read, Format.members, ok_bind, hkey, hfield,
    readAddress_of_isCanonical haddress]

theorem read_declaration_eq {account : Account} (h : account.IsProper) :
    read .standard account.name (declaration account) = (do
      let index ← readIndex account.name (.int account.key.index)
      let material ← readMaterial account.name account.key.sigAlgo account.key.material
      .ok { account with key := { account.key with index := index, material := material } }) := by
  rw [read_declaration_key h.1, readKey_declaration account.name h.2, bind_assoc]
  refine bind_congr fun index => ?_
  rw [bind_assoc]
  rfl

/-- The declaration of a proper account is read back when its key is storable. -/
theorem read_declaration {account : Account} (h : account.IsProper)
    (hstorable : account.key.IsStorable) :
    read .standard account.name (declaration account) = .ok account := by
  rw [read_declaration_eq h, readIndex_eq_ok_iff.mpr ⟨rfl, hstorable.1⟩, ok_bind,
    readMaterial_of_isStorable account.name h.2 hstorable.2, ok_bind]

theorem isStorable_of_read_declaration {account found : Account} (h : account.IsProper)
    (hread : read .standard account.name (declaration account) = .ok found) :
    account.key.IsStorable := by
  rw [read_declaration_eq h] at hread
  obtain ⟨index, hindex, hread⟩ := bind_eq_ok_iff.mp hread
  obtain ⟨material, hmaterial, -⟩ := bind_eq_ok_iff.mp hread
  obtain ⟨heq, hnonneg⟩ := readIndex_eq_ok_iff.mp hindex
  obtain rfl := Json.int.inj heq
  exact ⟨hnonneg, isStorable_of_readMaterial h.2 hmaterial⟩

theorem isValidated_of_readPrivateKey {name algorithm key : Text} {raw : Json}
    (h : readPrivateKey name raw algorithm = .ok key) : PrivateKey.IsValidated key algorithm := by
  obtain ⟨text, -, -, hvalid⟩ := readPrivateKey_eq_ok_iff.mp h
  exact ⟨text, hvalid⟩

/-- What is read as a key is proper, and lacks at most hexadecimal digits to be storable. -/
theorem of_readKey {name : Text} {raw : Json} {key : AccountKey} (hsettings : settings.IsValid)
    (h : readKey settings name raw = .ok key) :
    key.IsProperUnder settings ∧ key.IsNearlyStorable := by
  unfold readKey at h
  split at h
  · obtain ⟨found, hfound, h⟩ := bind_eq_ok_iff.mp h
    obtain rfl := Except.ok.inj h
    exact ⟨.of_isValidated hsettings.sigAlgo_mem hsettings.hashAlgo_mem
      (isValidated_of_readPrivateKey hfound),
      fun hcanonical => ⟨hsettings.keyIndex_nonneg, hcanonical found rfl⟩⟩
  · obtain ⟨members, -, h⟩ := bind_eq_ok_iff.mp h
    obtain ⟨isFile, -, h⟩ := bind_eq_ok_iff.mp h
    obtain ⟨index, hindex, h⟩ := bind_eq_ok_iff.mp h
    obtain ⟨sigAlgo, hsigAlgo, h⟩ := bind_eq_ok_iff.mp h
    obtain ⟨hashAlgo, hhashAlgo, h⟩ := bind_eq_ok_iff.mp h
    have hsig := mem_of_readAlgorithm hsigAlgo
    have hhash := mem_of_readAlgorithm hhashAlgo
    have hnonneg := (readIndex_eq_ok_iff.mp hindex).2
    split_ifs at h
    · obtain ⟨location, hlocation, h⟩ := bind_eq_ok_iff.mp h
      obtain rfl := Except.ok.inj h
      have hne := (Format.text_eq_ok_iff.mp hlocation).2
      exact ⟨⟨hsig, hhash, by simp⟩, fun _ => ⟨hnonneg, location, rfl, hne⟩⟩
    · obtain ⟨found, hfound, h⟩ := bind_eq_ok_iff.mp h
      obtain rfl := Except.ok.inj h
      exact ⟨.of_isValidated hsig hhash (isValidated_of_readPrivateKey hfound),
        fun hcanonical => ⟨hnonneg, hcanonical found rfl⟩⟩

theorem of_read {name : Text} {raw : Json} {account : Account} (hsettings : settings.IsValid)
    (h : read settings name raw = .ok account) :
    account.name = name ∧ Address.IsCanonical account.address ∧
      account.key.IsProperUnder settings ∧ account.key.IsNearlyStorable := by
  obtain ⟨members, -, h⟩ := bind_eq_ok_iff.mp h
  split at h
  · cases h
  · obtain ⟨address, haddress, h⟩ := bind_eq_ok_iff.mp h
    obtain ⟨key, hkey, h⟩ := bind_eq_ok_iff.mp h
    obtain rfl := Except.ok.inj h
    exact ⟨rfl, isCanonical_of_readAddress hsettings haddress, of_readKey hsettings hkey⟩

/-! ## The section -/

variable {accounts : Accounts}

theorem decode_encode (hnames : (accounts.map (·.name)).Nodup)
    (hproper : ∀ account ∈ accounts, account.IsProper)
    (hstorable : ∀ account ∈ accounts, account.key.IsStorable) :
    decode (encode accounts) .standard = .ok accounts :=
  Format.read_section (read .standard) "accounts" hnames
    fun account h => read_declaration (hproper account h) (hstorable account h)

theorem isStorable_of_decode_encode {found : Accounts} (hnames : (accounts.map (·.name)).Nodup)
    (hproper : ∀ account ∈ accounts, account.IsProper)
    (h : decode (encode accounts) .standard = .ok found) :
    ∀ account ∈ accounts, account.key.IsStorable := by
  intro account haccount
  obtain ⟨_, hread⟩ := Format.exists_of_read_section (read .standard)
    hnames h account haccount
  exact isStorable_of_read_declaration (hproper account haccount) hread

theorem of_decode {raw : Json} (hsettings : settings.IsValid) (hraw : raw.HasDistinctNames)
    (h : decode raw settings = .ok accounts) :
    (accounts.map (·.name)).Nodup ∧ ∀ account ∈ accounts, Address.IsCanonical account.address ∧
      account.key.IsProperUnder settings ∧ account.key.IsNearlyStorable :=
  Format.of_read_section (read settings) (fun _ _ _ hread => of_read hsettings hread) hraw h

end Accounts

end ContractKit
