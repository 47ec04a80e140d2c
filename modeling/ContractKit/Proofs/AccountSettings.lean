import ContractKit.Proofs.Accounts

/-!
# Accounts under other settings

Which keys stand alone in a declaration is decided by the standard settings
(`AccountKey.bare?`), and what such a key has around it is taken from the settings in force when it is
read (`Accounts.readKey_str`). Under settings other than the standard ones a declaration may therefore
be read as another key. `AccountKey.IsKept` says of which keys this is not so, and
`Accounts.read_written_iff` that exactly those are read back.
-/

namespace ContractKit

/-- Under the settings the declaration of the key stands for the key: if the key is written alone, the
settings give it the same index and algorithms, and otherwise its algorithms stand for themselves. -/
structure AccountKey.IsKept (settings : Settings) (key : AccountKey) : Prop where
  defaults : ∀ privateKey, key.bare? = some privateKey → key.index = settings.keyIndex ∧
    key.sigAlgo = settings.sigAlgo ∧ key.hashAlgo = settings.hashAlgo
  choices : key.bare? = none → Accounts.IsChoice settings.sigAlgos key.sigAlgo ∧
    Accounts.IsChoice settings.hashAlgos key.hashAlgo

namespace Accounts

variable {settings : Settings}

/-! ## Keys -/

theorem readKey_str_eq_ok_iff {key : AccountKey} {privateKey : Text} (name : Text)
    (hproper : key.IsProperUnder settings) (hstorable : key.IsStorable)
    (hkey : key.material = .hex privateKey) :
    readKey settings name (.str privateKey) = .ok key ↔ key.index = settings.keyIndex ∧
      key.sigAlgo = settings.sigAlgo ∧ key.hashAlgo = settings.hashAlgo := by
  have hread := readMaterial_of_isStorable name hproper hstorable.2
  rw [readKey_str, bind_eq_ok_iff]
  constructor
  · rintro ⟨material, -, h⟩
    rw [← Except.ok.inj h]
    exact ⟨rfl, rfl, rfl⟩
  · rintro ⟨hindex, hsig, hhash⟩
    refine ⟨key.material, ?_, ?_⟩
    · rw [← hsig, ← hkey, hread]
    · rw [← hindex, ← hsig, ← hhash]

theorem readKey_record_eq_ok_iff {key : AccountKey} (name : Text)
    (hproper : key.IsProperUnder settings) (hstorable : key.IsStorable) :
    readKey settings name key.record = .ok key ↔
      IsChoice settings.sigAlgos key.sigAlgo ∧ IsChoice settings.hashAlgos key.hashAlgo := by
  have hindex : readIndex name (.int key.index) = .ok key.index :=
    readIndex_eq_ok_iff.mpr ⟨rfl, hstorable.1⟩
  have hread := readMaterial_of_isStorable name hproper hstorable.2
  rw [readKey_record, hindex, ok_bind]
  constructor
  · intro h
    obtain ⟨sigAlgo, hsig, h⟩ := bind_eq_ok_iff.mp h
    obtain ⟨hashAlgo, hhash, h⟩ := bind_eq_ok_iff.mp h
    obtain ⟨material, -, h⟩ := bind_eq_ok_iff.mp h
    have heq := Except.ok.inj h
    obtain rfl : sigAlgo = key.sigAlgo := by rw [← heq]
    obtain rfl : hashAlgo = key.hashAlgo := by rw [← heq]
    exact ⟨readAlgorithm_eq_ok_iff.mp hsig, readAlgorithm_eq_ok_iff.mp hhash⟩
  · rintro ⟨hsig, hhash⟩
    rw [readAlgorithm_eq_ok_iff.mpr hsig, ok_bind, readAlgorithm_eq_ok_iff.mpr hhash, ok_bind, hread,
      ok_bind]

/-- The declaration of a storable key is read as the key exactly if the settings keep it. -/
theorem readKey_declaration_iff {key : AccountKey} (name : Text)
    (hproper : key.IsProperUnder settings) (hstorable : key.IsStorable) :
    readKey settings name (keyDeclaration key) = .ok key ↔ key.IsKept settings := by
  unfold keyDeclaration
  cases hbare : key.bare? with
  | some privateKey =>
    have hkey : key.material = .hex privateKey := by rw [bare?_eq_some_iff.mp hbare]
    rw [readKey_str_eq_ok_iff name hproper hstorable hkey]
    exact ⟨fun h => ⟨fun _ _ => h, fun hnone => by simp [hbare] at hnone⟩,
      fun h => h.defaults privateKey hbare⟩
  | none =>
    rw [readKey_record_eq_ok_iff name hproper hstorable]
    exact ⟨fun h => ⟨fun _ hsome => by simp [hbare] at hsome, fun _ => h⟩, fun h => h.choices hbare⟩

/-! ## The section -/

theorem read_declaration_iff {account : Account} (haddress : Address.IsCanonical account.address)
    (hproper : account.key.IsProperUnder settings) (hstorable : account.key.IsStorable) :
    read settings account.name (declaration account) = .ok account ↔
      account.key.IsKept settings := by
  rw [read_declaration_key haddress, ← readKey_declaration_iff account.name hproper hstorable,
    bind_eq_ok_iff]
  constructor
  · rintro ⟨key, hread, h⟩
    rw [hread, ← Except.ok.inj h]
  · intro h
    exact ⟨account.key, h, rfl⟩

/-- Accounts that were read under settings with valid defaults, and hold their private keys as
hexadecimal digits, are read back under these settings exactly if the settings keep every key. -/
theorem read_written_iff {raw : Json} {accounts : Accounts} (hsettings : settings.IsValid)
    (hraw : raw.HasDistinctNames) (h : decode raw settings = .ok accounts)
    (hkeys : ∀ account ∈ accounts, ∀ privateKey, account.key.material = .hex privateKey →
      PrivateKey.IsCanonical privateKey) :
    decode (encode accounts) settings = .ok accounts ↔
      ∀ account ∈ accounts, account.key.IsKept settings := by
  obtain ⟨hnames, hread⟩ := of_decode hsettings hraw h
  have hsection : decode (encode accounts) settings = .ok accounts ↔ ∀ account ∈ accounts,
      read settings account.name (declaration account) = .ok account :=
    Format.read_section_iff (read settings) "accounts" hnames
  rw [hsection]
  refine forall₂_congr fun account haccount => ?_
  obtain ⟨haddress, hproper, hnearly⟩ := hread account haccount
  exact read_declaration_iff haddress hproper (hnearly (hkeys account haccount))

/-! ## Another key index -/

theorem isValid_standard_with_keyIndex {index : Int} (h : 0 ≤ index) :
    ({ Settings.standard with keyIndex := index } : Settings).IsValid :=
  { Settings.isValid_standard with keyIndex_nonneg := h }

/-- A private key: the digit one, 64 times. -/
def ones : Text :=
  List.replicate 64 '1'

/-- The account holds no other private key. -/
theorem isCanonical_of_ones {name address sigAlgo hashAlgo : Text} {index : Int} :
    ∀ account ∈ ([⟨name, address, ⟨index, sigAlgo, hashAlgo, .hex ones⟩⟩] : Accounts),
      ∀ privateKey, account.key.material = .hex privateKey → PrivateKey.IsCanonical privateKey := by
  have hones : PrivateKey.IsCanonical ones := by decide
  intro account haccount privateKey hmaterial
  rw [List.mem_singleton.mp haccount] at hmaterial
  exact KeyMaterial.hex.inj hmaterial ▸ hones

/-- Under settings with the key index 5, an account whose key was given alone is written as an object
and read back. -/
theorem read_written_of_other_index : ∃ (settings : Settings) (raw : Json) (accounts : Accounts),
    settings.IsValid ∧ raw.HasDistinctNames ∧ decode raw settings = .ok accounts ∧
      accounts.map (·.key.index) = [5] ∧ decode (encode accounts) settings = .ok accounts := by
  have hsettings := isValid_standard_with_keyIndex (show 0 ≤ (5 : Int) by decide)
  have hnames : (["address", "key"] : List Text).Nodup := by decide
  have hraw : Json.HasDistinctNames
      (.obj [("a", .obj [("address", .str "service"), ("key", .str ones)])]) :=
    .obj (List.nodup_singleton _) (List.forall_mem_singleton.mpr (.obj hnames
      (List.forall_mem_cons.mpr ⟨.str _, List.forall_mem_singleton.mpr (.str _)⟩)))
  have hdecode : decode (.obj [("a", .obj [("address", .str "service"), ("key", .str ones)])])
      { Settings.standard with keyIndex := 5 } =
        .ok [⟨"a", "f8d6e0586b0a20c7", ⟨5, "ECDSA_P256", "SHA3_256", .hex ones⟩⟩] := by
    decide +kernel
  have hsig : IsChoice Settings.standard.sigAlgos "ECDSA_P256" := by decide +kernel
  have hhash : IsChoice Settings.standard.hashAlgos "SHA3_256" := by decide +kernel
  have hother : (5 : Int) ≠ Settings.standard.keyIndex := by decide
  refine ⟨_, _, _, hsettings, hraw, hdecode, rfl,
    (read_written_iff hsettings hraw hdecode isCanonical_of_ones).mpr ?_⟩
  refine List.forall_mem_singleton.mpr ⟨fun privateKey hbare => ?_, fun _ => ⟨hsig, hhash⟩⟩
  exact absurd (congrArg AccountKey.index (bare?_eq_some_iff.mp hbare)) hother

/-- Under settings with the key index 5, an account whose key has the index 0 is written with the key
alone and read back with the index 5. -/
theorem not_read_written_of_standard_index :
    ∃ (settings : Settings) (raw : Json) (accounts found : Accounts), settings.IsValid ∧
      raw.HasDistinctNames ∧ decode raw settings = .ok accounts ∧
      (∀ account ∈ accounts, ∀ privateKey, account.key.material = .hex privateKey →
        PrivateKey.IsCanonical privateKey) ∧
      decode (encode accounts) settings = .ok found ∧ accounts.map (·.key.index) = [0] ∧
      found.map (·.key.index) = [5] := by
  have hsettings := isValid_standard_with_keyIndex (show 0 ≤ (5 : Int) by decide)
  have hnames : (["address", "key"] : List Text).Nodup := by decide
  have hkeyNames : (["index", "privateKey"] : List Text).Nodup := by decide
  have hraw : Json.HasDistinctNames (.obj [("a", .obj [("address", .str "1"),
      ("key", .obj [("index", .int 0), ("privateKey", .str ones)])])]) :=
    .obj (List.nodup_singleton _) (List.forall_mem_singleton.mpr (.obj hnames
      (List.forall_mem_cons.mpr ⟨.str _, List.forall_mem_singleton.mpr (.obj hkeyNames
        (List.forall_mem_cons.mpr ⟨.int _, List.forall_mem_singleton.mpr (.str _)⟩))⟩)))
  have hdecode : decode (.obj [("a", .obj [("address", .str "1"),
      ("key", .obj [("index", .int 0), ("privateKey", .str ones)])])])
      { Settings.standard with keyIndex := 5 } =
        .ok [⟨"a", "0000000000000001", ⟨0, "ECDSA_P256", "SHA3_256", .hex ones⟩⟩] := by
    decide +kernel
  have hagain :
      decode (encode [⟨"a", "0000000000000001", ⟨0, "ECDSA_P256", "SHA3_256", .hex ones⟩⟩])
        { Settings.standard with keyIndex := 5 } =
          .ok [⟨"a", "0000000000000001", ⟨5, "ECDSA_P256", "SHA3_256", .hex ones⟩⟩] := by
    decide +kernel
  exact ⟨_, _, _, _, hsettings, hraw, hdecode, isCanonical_of_ones, hagain, rfl, rfl⟩

end Accounts

end ContractKit
