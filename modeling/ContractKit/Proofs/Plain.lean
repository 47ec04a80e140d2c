import ContractKit.Proofs.Document
import ContractKit.Proofs.Json

/-!
# Plain documents

The texts of a plain document (`Document.IsPlain`) hold no split surrogate pairs, and its key indexes
are short. These are the documents that a text can give: the JSON value of a proper plain document is
normal (`Document.isNormal_of_encode`), and only plain documents are decoded from normal values
(`Document.isPlain_of_decode`). What a wire form takes over from the texts of its value is shown once
(`Value.Compositional.of_encode`).
-/

namespace ContractKit

open Json (IsNormal)

variable {floats : Prop}

/-! ## Values -/

namespace Value

/-- No text inside the value holds a split surrogate pair. -/
def IsPlain (v : Value) : Prop :=
  Everywhere (fun u => ∀ t ∈ u.texts, t.IsJoined) v

/-- The texts of a value that stand in its wire form as they are. -/
def writtenTexts : Value → List Text
  | string text | character text | address text => [text]
  | path domain identifier => [domain, identifier]
  | _ => []

/-- A property of JSON values that passes from ASCII strings, items and members to what is made of
them. -/
structure Compositional (N : Json → Prop) : Prop where
  null : N .null
  bool : ∀ value : Bool, N (.bool value)
  str : ∀ {t : Text}, t.IsAscii → N (.str t)
  arr : ∀ {items : List Json}, (∀ item ∈ items, N item) → N (.arr items)
  zip : ∀ (names : List Text) (values : List Json), names.length ≤ values.length →
    (names.Nodup ∧ ∀ name ∈ names, name.IsJoined) → (∀ value ∈ values, N value) →
    N (.obj (names.zip values))

theorem isAscii_name (type : WireType) : type.name.IsAscii := by
  cases type with
  | integer kind => cases kind <;> decide
  | fixed kind => cases kind <;> decide
  | _ => decide

section

variable {N : Json → Prop} (hN : Compositional N)
include hN

theorem Compositional.wireObject (type : WireType) {value : Json} (h : N value) :
    N (wireObject type value) := by
  have hvalues : ∀ j ∈ [.str type.name, value], N j := by
    simp only [List.forall_mem_cons, List.not_mem_nil, false_imp_iff, implies_true, and_true]
    exact ⟨hN.str (isAscii_name type), h⟩
  exact hN.zip ["type", "value"] _ le_rfl (by decide) hvalues

/-- The wire form of a value has the property if the texts of the value have it. -/
theorem Compositional.of_encode {v : Value}
    (hv : Everywhere (fun u => ∀ t ∈ u.writtenTexts, N (.str t)) v) :
    ∀ {data : Json}, encode v = .ok data → N data := by
  induction v using induction_on_parts with
  | h v ih =>
  intro data h
  have htexts := hv.self
  have hparts : ∀ w ∈ v.parts, ∀ {data : Json}, encode w = .ok data → N data :=
    fun w hw => ih w hw (hv.of_mem_parts hw)
  cases v with
  | void =>
    obtain rfl := Except.ok.inj h
    refine hN.zip ["type"] [.str WireType.void.name] le_rfl (by decide) ?_
    exact List.forall_mem_singleton.mpr (hN.str (by decide))
  | optional inner =>
    cases inner with
    | none =>
      obtain rfl := Except.ok.inj h
      exact hN.wireObject _ hN.null
    | some inner =>
      rw [encode] at h
      obtain ⟨item, hitem, h⟩ := bind_eq_ok_iff.mp h
      obtain rfl := Except.ok.inj h
      exact hN.wireObject _ (hparts inner (by simp [parts]) hitem)
  | bool value =>
    obtain rfl := Except.ok.inj h
    exact hN.wireObject _ (hN.bool value)
  | string text | character text | address text =>
    obtain rfl := Except.ok.inj h
    exact hN.wireObject _ (htexts text (by simp [writtenTexts]))
  | integer kind number =>
    rw [encode] at h
    split at h
    · next text htext =>
      obtain rfl := Except.ok.inj h
      obtain ⟨-, rfl⟩ := Numeral.isShort_of_print htext
      exact hN.wireObject _ (hN.str (Numeral.isAscii_ofInt number))
    · cases h
  | fixed kind raw =>
    rw [encode] at h
    split at h
    · next text htext =>
      obtain rfl := Except.ok.inj h
      obtain ⟨-, rfl⟩ := FixedPoint.print_eq_ok_iff.mp htext
      exact hN.wireObject _ (hN.str (FixedPoint.isAscii_write raw))
    · cases h
  | array values =>
    rw [encode] at h
    obtain ⟨items, hitems, h⟩ := bind_eq_ok_iff.mp h
    obtain rfl := Except.ok.inj h
    refine hN.wireObject _ (hN.arr fun item hitem => ?_)
    obtain ⟨w, hw, he⟩ := exists_right_of_forall₂ (encodeItems_eq_ok_iff.mp hitems) item hitem
    exact hparts w hw he
  | dictionary pairs =>
    rw [encode] at h
    obtain ⟨items, hitems, h⟩ := bind_eq_ok_iff.mp h
    obtain rfl := Except.ok.inj h
    refine hN.wireObject _ (hN.arr fun item hitem => ?_)
    obtain ⟨pair, hpair, key, value, hkey, hvalue, rfl⟩ :=
      exists_right_of_forall₂ (encodePairs_eq_ok_iff.mp hitems) item hitem
    have hleft := hparts pair.1 (List.mem_append_left _ (List.mem_map_of_mem hpair)) hkey
    have hright := hparts pair.2 (List.mem_append_right _ (List.mem_map_of_mem hpair)) hvalue
    refine hN.zip ["key", "value"] [key, value] le_rfl (by decide) ?_
    simpa using ⟨hleft, hright⟩
  | path domain identifier =>
    obtain rfl := Except.ok.inj h
    refine hN.wireObject _ (hN.zip ["domain", "identifier"]
      [.str domain, .str identifier] le_rfl (by decide) ?_)
    simpa using ⟨htexts domain (by simp [writtenTexts]), htexts identifier (by simp [writtenTexts])⟩
  | foreign type text => cases h

end

theorem compositional_isNormal : Compositional (IsNormal floats) :=
  ⟨.null, .bool, fun h => .str h.isJoined, .arr, .of_zip⟩

theorem isJoined_of_mem_writtenTexts {v : Value} (hv : v.IsSound)
    (hplain : ∀ t ∈ v.texts, t.IsJoined) : ∀ t ∈ v.writtenTexts, t.IsJoined := by
  cases v with
  | address text =>
    obtain ⟨digits, rfl, hdigits⟩ := hv
    refine List.forall_mem_singleton.mpr (Text.IsAscii.isJoined (Text.isAscii_concat ?_))
    simp only [List.forall_mem_cons, List.not_mem_nil, false_imp_iff, implies_true, and_true]
    exact ⟨by decide, hdigits.isAscii⟩
  | path domain identifier =>
    have hdomain : ∀ domain ∈ pathDomains, domain.IsJoined := by decide
    exact List.forall_mem_cons.mpr ⟨hdomain domain hv.1, hplain⟩
  | _ => exact hplain

/-- The wire form of a well-formed plain value is normal. -/
theorem isNormal_of_encode {v : Value} (hv : v.WellFormed) (hplain : v.IsPlain) {data : Json}
    (h : encode v = .ok data) : data.IsNormal floats :=
  compositional_isNormal.of_encode
    (fun u hu t ht => .str (isJoined_of_mem_writtenTexts (hv u hu) (hplain u hu) t ht)) h

/-- Values of normal wire forms are plain. -/
theorem isPlain_of_decode {data : Json} {v : Value} (hdata : data.IsNormal floats)
    (h : decode data = .ok v) : v.IsPlain := by
  have hN : Hereditary (IsNormal floats) := ⟨fun h _ hitem => h.of_item hitem,
    fun h _ _ hget => (h.of_mem (Format.mem_of_get? hget)).2⟩
  exact IsDecodedFrom.everywhere hN (fun _ _ _ htexts t ht => (htexts t ht).joined)
    ⟨data, hdata, h⟩

end Value

/-! ## Networks and emulators -/

namespace Network

/-- The texts of the network hold no split surrogate pairs. -/
def IsPlain (network : Network) : Prop :=
  network.name.IsJoined ∧ network.host.IsJoined ∧ network.key.IsJoined

theorem isNormal_declaration {network : Network} (h : network.IsPlain) :
    (Networks.declaration network).IsNormal floats := by
  obtain ⟨-, hhost, hkey⟩ := h
  unfold Networks.declaration
  split_ifs
  · exact .str hhost
  · refine .of_zip ["host", "key"] [.str network.host, .str network.key] le_rfl (by decide) ?_
    simpa using ⟨.str hhost, .str hkey⟩

theorem isPlain_of_read {name : Text} {raw : Json} {network : Network} (hname : name.IsJoined)
    (hraw : raw.IsNormal floats) (h : Networks.read name raw = .ok network) : network.IsPlain := by
  unfold Networks.read at h
  split at h
  · obtain ⟨host, hhost, h⟩ := bind_eq_ok_iff.mp h
    obtain rfl := Except.ok.inj h
    exact ⟨hname, Format.isJoined_of_text hraw hhost, List.isChain_nil⟩
  · obtain ⟨members, hmembers, h⟩ := bind_eq_ok_iff.mp h
    rw [Format.members_eq_ok_iff.mp hmembers] at hraw
    split at h
    · next key hkey =>
      obtain ⟨host, hhost, h⟩ := bind_eq_ok_iff.mp h
      obtain rfl := Except.ok.inj h
      have hfound := Format.isNormal_fieldOr "key" hraw (.str List.isChain_nil)
      rw [hkey] at hfound
      exact ⟨hname, Format.isJoined_of_text (Format.isNormal_field "host" hraw) hhost,
        hfound.joined⟩
    · cases h

end Network

namespace Emulator

/-- The texts of the emulator hold no split surrogate pairs. -/
def IsPlain (emulator : Emulator) : Prop :=
  emulator.name.IsJoined ∧ emulator.serviceAccount.IsJoined

theorem isShort_port {emulator : Emulator} (h : emulator.IsProper) :
    Numeral.IsShort emulator.port := by
  have hlimit : 4 < Numeral.decimalLimit := by decide
  obtain ⟨⟨hlow, hhigh⟩, -⟩ := h
  exact Numeral.isShort_of_lt hlimit (by omega)

theorem isNormal_declaration {emulator : Emulator} (hproper : emulator.IsProper)
    (h : emulator.IsPlain) : IsNormal floats (.obj [("port", .int emulator.port),
      ("serviceAccount", .str emulator.serviceAccount)]) := by
  refine .of_zip ["port", "serviceAccount"] [.int emulator.port, .str emulator.serviceAccount]
    le_rfl (by decide) ?_
  simpa using ⟨.int (isShort_port hproper), .str h.2⟩

theorem isPlain_of_read {name : Text} {raw : Json} {emulator : Emulator} (hname : name.IsJoined)
    (hraw : raw.IsNormal floats) (h : Emulators.read name raw = .ok emulator) :
    emulator.IsPlain := by
  obtain ⟨members, hmembers, h⟩ := bind_eq_ok_iff.mp h
  rw [Format.members_eq_ok_iff.mp hmembers] at hraw
  split at h
  · split_ifs at h
    obtain ⟨account, haccount, h⟩ := bind_eq_ok_iff.mp h
    obtain rfl := Except.ok.inj h
    exact ⟨hname, Format.isJoined_of_text (Format.isNormal_field "serviceAccount" hraw) haccount⟩
  · cases h

end Emulator

/-! ## Accounts -/

theorem Settings.isShort_keyIndex : Numeral.IsShort standard.keyIndex :=
  Numeral.isShort_of_lt (k := 0) (by decide) (by decide)

/-- The location of the key, if one is given, holds no split surrogate pair. -/
def KeyMaterial.IsPlain (material : KeyMaterial) : Prop :=
  ∀ location, material = .file (some location) → location.IsJoined

namespace AccountKey

/-- The index of the key is short and its location holds no split surrogate pair. -/
def IsPlain (key : AccountKey) : Prop :=
  Numeral.IsShort key.index ∧ key.material.IsPlain

theorem isNormal_record {key : AccountKey} (hproper : key.IsProper) (h : key.IsPlain) :
    key.record.IsNormal floats := by
  obtain ⟨hsigAlgo, hhashAlgo, hvalid⟩ := hproper
  obtain ⟨hshort, hlocation⟩ := h
  have hsig : ∀ t ∈ Settings.standard.sigAlgos, t.IsJoined := by decide
  have hhash : ∀ t ∈ Settings.standard.hashAlgos, t.IsJoined := by decide
  have htype : key.material.typeName.IsJoined := by
    cases key.material with
    | hex _ => exact (by decide : Text.IsJoined "hex")
    | file _ => exact (by decide : Text.IsJoined "file")
  -- The names of all kinds of keys differ only in the last member.
  have hobj : ∀ (name : Text) (value : Json), (name = "privateKey" ∨ name = "location") →
      value.IsNormal floats → IsNormal floats (.obj (key.description ++ [(name, value)])) := by
    intro name value hname hvalue
    have hnames : ∀ name : Text, name = "privateKey" ∨ name = "location" →
        (["type", "index", "signatureAlgorithm", "hashAlgorithm", name] : List Text).Nodup ∧
          ∀ n ∈ (["type", "index", "signatureAlgorithm", "hashAlgorithm", name] : List Text),
            n.IsJoined := by
      rintro _ (rfl | rfl) <;> decide
    refine .of_zip ["type", "index", "signatureAlgorithm", "hashAlgorithm", name]
      [.str key.material.typeName, .int key.index, .str key.sigAlgo, .str key.hashAlgo, value]
      le_rfl (hnames name hname) ?_
    simp only [List.forall_mem_cons, List.not_mem_nil, false_imp_iff, implies_true, and_true]
    exact ⟨.str htype, .int hshort, .str (hsig _ hsigAlgo), .str (hhash _ hhashAlgo), hvalue⟩
  unfold AccountKey.record
  cases hmaterial : key.material with
  | hex privateKey =>
    exact hobj _ _ (Or.inl rfl) (.str (hvalid privateKey hmaterial).isAscii.isJoined)
  | file found =>
    cases found with
    | none => exact hobj _ _ (Or.inr rfl) .null
    | some location => exact hobj _ _ (Or.inr rfl) (.str (hlocation location hmaterial))

theorem isNormal_declaration {key : AccountKey} (hproper : key.IsProper) (h : key.IsPlain) :
    (Accounts.keyDeclaration key).IsNormal floats := by
  unfold Accounts.keyDeclaration
  split
  · next privateKey hbare =>
    unfold AccountKey.bare? at hbare
    split at hbare
    · next found hmaterial =>
      split_ifs at hbare
      obtain rfl := Option.some.inj hbare
      exact .str (hproper.2.2 found hmaterial).isAscii.isJoined
    · cases hbare
  · exact isNormal_record hproper h

theorem isPlain_of_read {name : Text} {raw : Json} {key : AccountKey}
    (hraw : raw.IsNormal floats) (h : Accounts.readKey .standard name raw = .ok key) :
    key.IsPlain := by
  unfold Accounts.readKey at h
  split at h
  · obtain ⟨found, -, h⟩ := bind_eq_ok_iff.mp h
    obtain rfl := Except.ok.inj h
    exact ⟨Settings.isShort_keyIndex, fun _ hlocation => by cases hlocation⟩
  · obtain ⟨members, hmembers, h⟩ := bind_eq_ok_iff.mp h
    rw [Format.members_eq_ok_iff.mp hmembers] at hraw
    obtain ⟨isFile, -, h⟩ := bind_eq_ok_iff.mp h
    obtain ⟨index, hread, h⟩ := bind_eq_ok_iff.mp h
    obtain ⟨sigAlgo, -, h⟩ := bind_eq_ok_iff.mp h
    obtain ⟨hashAlgo, -, h⟩ := bind_eq_ok_iff.mp h
    have hshort := Format.isNormal_fieldOr "index" hraw (.int Settings.isShort_keyIndex)
    rw [(Accounts.readIndex_eq_ok_iff.mp hread).1] at hshort
    split_ifs at h
    · obtain ⟨location, hlocation, h⟩ := bind_eq_ok_iff.mp h
      obtain rfl := Except.ok.inj h
      have hjoined := Format.isJoined_of_text (Format.isNormal_field "location" hraw) hlocation
      refine ⟨hshort.short, fun t ht => ?_⟩
      rwa [← Option.some.inj (KeyMaterial.file.inj ht)]
    · obtain ⟨found, -, h⟩ := bind_eq_ok_iff.mp h
      obtain rfl := Except.ok.inj h
      exact ⟨hshort.short, fun _ hlocation => by cases hlocation⟩

end AccountKey

namespace Account

/-- The name and the key of the account are plain. -/
def IsPlain (account : Account) : Prop :=
  account.name.IsJoined ∧ account.key.IsPlain

theorem isNormal_declaration {account : Account} (hproper : account.IsProper)
    (h : account.IsPlain) : (Accounts.declaration account).IsNormal floats := by
  refine .of_zip ["address", "key"] [.str account.address, Accounts.keyDeclaration account.key]
    le_rfl (by decide) ?_
  simpa using ⟨.str hproper.1.isAscii.isJoined, AccountKey.isNormal_declaration hproper.2 h.2⟩

theorem isPlain_of_read {name : Text} {raw : Json} {account : Account} (hname : name.IsJoined)
    (hraw : raw.IsNormal floats) (h : Accounts.read .standard name raw = .ok account) :
    account.IsPlain := by
  obtain ⟨members, hmembers, h⟩ := bind_eq_ok_iff.mp h
  rw [Format.members_eq_ok_iff.mp hmembers] at hraw
  split at h
  · cases h
  · next found hfound =>
    obtain ⟨address, -, h⟩ := bind_eq_ok_iff.mp h
    obtain ⟨key, hkey, h⟩ := bind_eq_ok_iff.mp h
    obtain rfl := Except.ok.inj h
    exact ⟨hname, AccountKey.isPlain_of_read (hraw.of_mem (Format.mem_of_get? hfound)).2 hkey⟩

end Account

/-! ## Contracts -/

/-- The texts of the contract hold no split surrogate pairs. -/
def Contract.IsPlain (contract : Contract) : Prop :=
  contract.name.IsJoined ∧ contract.location.IsJoined ∧ contract.network.IsJoined ∧
    contract.aliasAddress.IsJoined

namespace ContractForm

/-- The texts of the declaration hold no split surrogate pairs. -/
def IsPlain (form : ContractForm) : Prop :=
  form.location.IsJoined ∧ ∀ entry ∈ form.aliases, entry.1.IsJoined ∧ entry.2.IsJoined

theorem isNormal_json {form : ContractForm} (h : form.IsPlain) (hnames : form.aliases.names.Nodup) :
    form.json.IsNormal floats := by
  obtain ⟨hlocation, haliases⟩ := h
  cases form with
  | simple location => exact .str hlocation
  | aliased source aliases =>
    have hobj : IsNormal floats
        (.obj (aliases.map fun entry => (entry.1, Json.str entry.2))) := by
      refine .obj ?_ ?_ ?_
      · rwa [Entries.names, List.map_map]
      · exact List.forall_mem_map.mpr fun entry hentry => (haliases entry hentry).1
      · exact List.forall_mem_map.mpr fun entry hentry => .str (haliases entry hentry).2
    refine .of_zip ["source", "aliases"]
      [.str source, .obj (aliases.map fun entry => (entry.1, .str entry.2))] le_rfl (by decide) ?_
    simpa using ⟨.str hlocation, hobj⟩

theorem isPlain_of_read {name : Text} {raw : Json} {form : ContractForm}
    (hraw : raw.IsNormal floats) (h : read name raw = .ok form) : form.IsPlain := by
  unfold read at h
  split at h
  · obtain ⟨location, hlocation, h⟩ := bind_eq_ok_iff.mp h
    obtain rfl := Except.ok.inj h
    exact ⟨Format.isJoined_of_text hraw hlocation, nofun⟩
  · split at h
    · cases h
    · next source hsource =>
      have hfound := Format.isNormal_fieldOr "aliases" hraw .empty
      have hnormal := (hraw.of_mem (Format.mem_of_get? hsource)).2
      obtain ⟨location, hlocation, h⟩ := bind_eq_ok_iff.mp h
      obtain ⟨members, hmembers, h⟩ := bind_eq_ok_iff.mp h
      obtain ⟨aliases, haliases, h⟩ := bind_eq_ok_iff.mp h
      obtain rfl := Except.ok.inj h
      obtain ⟨rfl, -⟩ := readAliases_eq_ok_iff.mp haliases
      rw [Format.members_eq_ok_iff.mp hmembers] at hfound
      refine ⟨Format.isJoined_of_text hnormal hlocation, fun entry hentry => ?_⟩
      obtain ⟨hnetwork, haddress⟩ := hfound.of_mem (List.mem_map_of_mem hentry)
      exact ⟨hnetwork, haddress.joined⟩
  · cases h

theorem isPlain_of_mem_expand {name default : Text} {form : ContractForm} (hname : name.IsJoined)
    (hdefault : default.IsJoined) (h : form.IsPlain) : ∀ r ∈ form.expand name default, r.IsPlain := by
  obtain ⟨hlocation, haliases⟩ := h
  match form with
  | simple location =>
    exact List.forall_mem_singleton.mpr ⟨hname, hlocation, hdefault, List.isChain_nil⟩
  | aliased source [] =>
    exact List.forall_mem_singleton.mpr ⟨hname, hlocation, hdefault, List.isChain_nil⟩
  | aliased source (entry :: entries) =>
    refine List.forall_mem_map.mpr fun e he => ?_
    exact ⟨hname, hlocation, (haliases e he).1, (haliases e he).2⟩

/-- A declaration of plain records is plain. -/
theorem isPlain_of_expand (name : Text) {default : Text} {form : ContractForm}
    (h : ∀ r ∈ form.expand name default, r.IsPlain) : form.IsPlain := by
  match form with
  | simple location => exact ⟨(h _ List.mem_cons_self).2.1, nofun⟩
  | aliased source [] => exact ⟨(h _ List.mem_cons_self).2.1, nofun⟩
  | aliased source (entry :: entries) =>
    have hrecord : ∀ e ∈ entry :: entries, Contract.IsPlain ⟨name, source, e.1, e.2⟩ :=
      fun e he => h _ (List.mem_map_of_mem he)
    exact ⟨(hrecord entry List.mem_cons_self).2.1, fun e he => (hrecord e he).2.2⟩

/-- The aliases of a declarable group have distinct names. -/
theorem names_nodup_of_isDeclarable {name default : Text} {form : ContractForm}
    (h : Contracts.IsDeclarable default (form.expand name default)) : form.aliases.names.Nodup := by
  match form with
  | simple location => exact List.nodup_nil
  | aliased source [] => exact List.nodup_nil
  | aliased source (entry :: entries) =>
    have hnetworks : ((expand name default (aliased source (entry :: entries))).map
        (·.network)).Nodup := by
      rcases h.2 with ⟨r, hr, -⟩ | ⟨-, hnodup⟩
      · rw [hr]
        exact List.nodup_singleton _
      · exact hnodup
    rwa [expand, List.map_map] at hnetworks
    simp

end ContractForm

namespace Contracts

theorem isNormal_of_encode {contracts : Contracts} {default : Text} {json : Json}
    (hplain : ∀ r ∈ contracts, r.IsPlain) (h : encode contracts default = .ok json) :
    json.IsNormal floats := by
  obtain ⟨members, rfl, hmembers⟩ := encode_eq_ok_iff.mp h
  have hnames : Entries.names members = contracts.names := by
    rw [Entries.names, ← List.forall₂_eq_eq_eq, List.forall₂_map_left_iff]
    refine flip_of_forall₂ hmembers ?_
    rintro name - _ ⟨form, -, rfl⟩
    rfl
  have hmember : ∀ member ∈ members, member.1.IsJoined ∧ member.2.IsNormal floats := by
    intro member hmem
    obtain ⟨name, hname, form, hform, rfl⟩ := exists_right_of_forall₂ hmembers member hmem
    obtain ⟨r, hr, rfl⟩ := List.mem_map.mp (List.mem_eraseDups.mp hname)
    obtain ⟨hdeclarable, hexpand, -⟩ := ContractForm.expand_of_collapse (named_ne_nil hname)
      (fun s hs => (mem_named.mp hs).2) hform
    rw [← hexpand] at hdeclarable
    have hform' : form.IsPlain := ContractForm.isPlain_of_expand r.name
      fun s hs => hplain s (mem_named.mp (hexpand ▸ hs)).1
    exact ⟨(hplain r hr).1,
      ContractForm.isNormal_json hform' (ContractForm.names_nodup_of_isDeclarable hdeclarable)⟩
  refine .obj ?_ (fun m hm => (hmember m hm).1) fun m hm => (hmember m hm).2
  rw [hnames]
  exact nodup_eraseDups _

theorem isPlain_of_decode {contracts : Contracts} {default : Text} {raw : Json}
    (hdefault : default.IsJoined) (hraw : raw.IsNormal floats)
    (h : decode raw default = .ok contracts) : ∀ r ∈ contracts, r.IsPlain := by
  obtain ⟨members, hmembers, h⟩ := bind_eq_ok_iff.mp h
  obtain rfl := Format.members_eq_ok_iff.mp hmembers
  obtain ⟨groups, hgroups, rfl⟩ := decodeMembers_eq_ok_iff.mp h
  intro r hr
  obtain ⟨group, hgroup, hr⟩ := List.mem_flatten.mp hr
  obtain ⟨member, hmem, form, hform, rfl⟩ := exists_right_of_forall₂ hgroups group hgroup
  obtain ⟨hname, hitem⟩ := hraw.of_mem hmem
  exact ContractForm.isPlain_of_mem_expand hname hdefault (ContractForm.isPlain_of_read hitem hform)
    r hr

/-- Grouping by name keeps the records. -/
theorem mem_regroup {contracts : Contracts} {r : Contract} :
    r ∈ contracts.regroup ↔ r ∈ contracts := by
  rw [regroup, List.mem_flatMap]
  constructor
  · rintro ⟨name, -, hr⟩
    exact (mem_named.mp hr).1
  · intro hr
    exact ⟨r.name, mem_names hr, mem_named.mpr ⟨hr, rfl⟩⟩

end Contracts

/-! ## Deployments -/

namespace DeploymentItem

/-- The name of the contract and the values it is given are plain. -/
def IsPlain (item : DeploymentItem) : Prop :=
  item.contract.IsJoined ∧ ∀ v ∈ item.args, v.IsPlain

theorem isNormal_of_record {item : DeploymentItem} {json : Json} (hproper : item.IsProper)
    (h : item.IsPlain) (hjson : item.record = .ok json) : json.IsNormal floats := by
  obtain ⟨args, hargs, rfl⟩ := record_eq_ok_iff.mp hjson
  have hnormal : ∀ data ∈ args, data.IsNormal floats := by
    intro data hdata
    obtain ⟨v, hv, hencode⟩ :=
      exists_right_of_forall₂ (Value.encodeItems_eq_ok_iff.mp hargs) data hdata
    obtain ⟨wire, hwire⟩ := hproper.2 v hv
    exact Value.isNormal_of_encode (Value.wellFormed_of_decode hwire) (h.2 v hv) hencode
  refine .of_zip ["name", "args"] [.str item.contract, .arr args] le_rfl (by decide) ?_
  simpa using ⟨.str h.1, .arr hnormal⟩

theorem isPlain_of_readItem {place : Text} {raw : Json} {item : DeploymentItem}
    (hraw : raw.IsNormal floats) (h : Deployments.readItem place raw = .ok item) :
    item.IsPlain := by
  unfold Deployments.readItem at h
  simp only at h
  split at h
  · obtain ⟨name, hname, h⟩ := bind_eq_ok_iff.mp h
    obtain rfl := Except.ok.inj h
    exact ⟨Format.isJoined_of_text hraw hname, by simp⟩
  · obtain ⟨members, hmembers, h⟩ := bind_eq_ok_iff.mp h
    rw [Format.members_eq_ok_iff.mp hmembers] at hraw
    obtain ⟨name, hname, h⟩ := bind_eq_ok_iff.mp h
    split at h
    · next args hargs =>
      split at h
      · next values hvalues =>
        obtain rfl := Except.ok.inj h
        have hfound := Format.isNormal_fieldOr "args" hraw .empty_arr
        rw [hargs] at hfound
        refine ⟨Format.isJoined_of_text (Format.isNormal_field "name" hraw) hname, fun v hv => ?_⟩
        obtain ⟨data, hmem, hdata⟩ :=
          exists_right_of_forall₂ (Value.decodeItems_eq_ok_iff.mp hvalues) v hv
        exact Value.isPlain_of_decode (hfound.of_item hmem) hdata
      · cases h
    · cases h

end DeploymentItem

namespace Deployment

/-- The texts of the deployment hold no split surrogate pairs. -/
def IsPlain (deployment : Deployment) : Prop :=
  deployment.network.IsJoined ∧ deployment.account.IsJoined ∧
    ∀ item ∈ deployment.contracts, item.IsPlain

theorem isNormal_of_record {deployment : Deployment} {json : Json}
    (hproper : deployment.IsProper) (h : deployment.IsPlain)
    (hjson : deployment.record = .ok json) : json.IsNormal floats := by
  obtain ⟨items, hitems, rfl⟩ := record_eq_ok_iff.mp hjson
  have hnormal : ∀ item ∈ items, item.IsNormal floats := by
    intro item hmem
    obtain ⟨contract, hcontract, hrecord⟩ := exists_right_of_forall₂ hitems item hmem
    exact DeploymentItem.isNormal_of_record (hproper contract hcontract) (h.2.2 contract hcontract)
      hrecord
  refine .of_zip ["network", "account", "contracts"]
    [.str deployment.network, .str deployment.account, .arr items] le_rfl (by decide) ?_
  simpa using ⟨.str h.1, .str h.2.1, .arr hnormal⟩

theorem isPlain_of_readItems {place : Text} {raw : Json} {items : List DeploymentItem}
    (hraw : raw.IsNormal floats) (h : Deployments.readItems place raw = .ok items) :
    ∀ item ∈ items, item.IsPlain := by
  unfold Deployments.readItems at h
  split at h
  · intro item hitem
    obtain ⟨json, hjson, hread⟩ := exists_right_of_forall₂ (mapM_eq_ok_iff.mp h) item hitem
    exact DeploymentItem.isPlain_of_readItem (hraw.of_item hjson) hread
  · cases h

theorem isPlain_of_readAt {position : Nat} {raw : Json} {deployment : Deployment}
    (hraw : raw.IsNormal floats) (h : Deployments.readAt position raw = .ok deployment) :
    deployment.IsPlain := by
  obtain ⟨members, hmembers, h⟩ := bind_eq_ok_iff.mp h
  rw [Format.members_eq_ok_iff.mp hmembers] at hraw
  obtain ⟨network, hnetwork, h⟩ := bind_eq_ok_iff.mp h
  obtain ⟨account, haccount, h⟩ := bind_eq_ok_iff.mp h
  obtain ⟨items, hitems, h⟩ := bind_eq_ok_iff.mp h
  obtain rfl := Except.ok.inj h
  have hcontracts := Format.isNormal_fieldOr "contracts" hraw .empty_arr
  exact ⟨Format.isJoined_of_text (Format.isNormal_field "network" hraw) hnetwork,
    Format.isJoined_of_text (Format.isNormal_field "account" hraw) haccount,
    isPlain_of_readItems hcontracts hitems⟩

end Deployment

namespace Deployments

theorem isNormal_of_encode {deployments : Deployments} {json : Json}
    (hproper : ∀ d ∈ deployments, d.IsProper) (hplain : ∀ d ∈ deployments, d.IsPlain)
    (h : encode deployments = .ok json) : json.IsNormal floats := by
  obtain ⟨items, hitems, rfl⟩ := encode_eq_ok_iff.mp h
  refine .arr fun item hitem => ?_
  obtain ⟨d, hd, hrecord⟩ := exists_right_of_forall₂ hitems item hitem
  exact Deployment.isNormal_of_record (hproper d hd) (hplain d hd) hrecord

theorem isPlain_of_decode {deployments : Deployments} {raw : Json} (hraw : raw.IsNormal floats)
    (h : decode raw = .ok deployments) : ∀ d ∈ deployments, d.IsPlain := by
  intro d hd
  unfold decode at h
  split at h
  · obtain ⟨item, hitem, position, hread⟩ :=
      exists_right_of_forall₂ (forall₂_of_decodeList h) d hd
    exact Deployment.isPlain_of_readAt (hraw.of_item hitem) hread
  · obtain ⟨networks, hnetworks, h⟩ := bind_eq_ok_iff.mp h
    rw [Format.members_eq_ok_iff.mp hnetworks] at hraw
    obtain ⟨groups, hgroups, h⟩ := bind_eq_ok_iff.mp h
    obtain rfl := Except.ok.inj h
    obtain ⟨group, hgroup, hd⟩ := List.mem_flatten.mp hd
    obtain ⟨⟨network, rawAccounts⟩, hmember, hread⟩ :=
      exists_right_of_forall₂ (mapM_eq_ok_iff.mp hgroups) group hgroup
    obtain ⟨hnetwork, hnormal⟩ := hraw.of_mem hmember
    obtain ⟨accounts, hmembers, haccounts⟩ := bind_eq_ok_iff.mp hread
    rw [Format.members_eq_ok_iff.mp hmembers] at hnormal
    obtain ⟨⟨account, rawItems⟩, hmember, haccount⟩ :=
      exists_right_of_forall₂ (mapM_eq_ok_iff.mp haccounts) d hd
    obtain ⟨hname, hnormal⟩ := hnormal.of_mem hmember
    obtain ⟨items, hitems, h⟩ := bind_eq_ok_iff.mp haccount
    obtain rfl := Except.ok.inj h
    exact ⟨hnetwork, hname, Deployment.isPlain_of_readItems hnormal hitems⟩

end Deployments

/-! ## Documents -/

namespace Document

/-- All records of the document are plain. -/
structure IsPlain (document : Document) : Prop where
  emulators : ∀ e ∈ document.emulators, e.IsPlain
  contracts : ∀ c ∈ document.contracts, c.IsPlain
  networks : ∀ n ∈ document.networks, n.IsPlain
  accounts : ∀ a ∈ document.accounts, a.IsPlain
  deployments : ∀ d ∈ document.deployments, d.IsPlain

variable {document : Document}

theorem isPlain_regrouped : document.regrouped.IsPlain ↔ document.IsPlain := by
  constructor
  · rintro ⟨hemulators, hcontracts, hnetworks, haccounts, hdeployments⟩
    exact ⟨hemulators, fun c hc => hcontracts c (Contracts.mem_regroup.mpr hc), hnetworks, haccounts,
      hdeployments⟩
  · rintro ⟨hemulators, hcontracts, hnetworks, haccounts, hdeployments⟩
    exact ⟨hemulators, fun c hc => hcontracts c (Contracts.mem_regroup.mp hc), hnetworks, haccounts,
      hdeployments⟩

/-- The JSON value of a proper plain document is normal. -/
theorem isNormal_of_encode {out : Json} {settings : Settings} (hproper : document.IsProper)
    (hplain : document.IsPlain) (h : document.encode settings = .ok out) : out.IsNormal floats := by
  obtain ⟨contracts, deployments, hcontracts, hdeployments, rfl⟩ := encode_eq_ok_iff.mp h
  have hemulators : document.emulators.encode.IsNormal floats :=
    Format.isNormal_section hproper.emulators.1 (fun e he => (hplain.emulators e he).1)
      fun e he => Emulator.isNormal_declaration (hproper.emulators.2 e he) (hplain.emulators e he)
  have hnetworks : document.networks.encode.IsNormal floats :=
    Format.isNormal_section hproper.networks.1 (fun n hn => (hplain.networks n hn).1)
      fun n hn => Network.isNormal_declaration (hplain.networks n hn)
  have haccounts : document.accounts.encode.IsNormal floats :=
    Format.isNormal_section hproper.accounts.1
      (fun a ha => (hplain.accounts a ha).1)
      fun a ha => Account.isNormal_declaration (hproper.accounts.2 a ha) (hplain.accounts a ha)
  have hall : IsNormal floats (.obj (document.sectionMembers contracts deployments)) := by
    refine .of_zip sections [document.emulators.encode, contracts, document.networks.encode,
      document.accounts.encode, deployments] le_rfl (by decide) ?_
    simp only [List.forall_mem_cons, List.not_mem_nil, false_imp_iff, implies_true, and_true]
    exact ⟨hemulators, Contracts.isNormal_of_encode hplain.contracts hcontracts, hnetworks,
      haccounts, Deployments.isNormal_of_encode hproper.deployments hplain.deployments hdeployments⟩
  exact hall.filter _

/-- A document that is decoded from a normal value is plain. -/
theorem isPlain_of_decode {raw : Json} (hraw : raw.IsNormal floats)
    (h : decode raw .standard = .ok document) : document.IsPlain := by
  obtain ⟨members, hmembers, -⟩ := bind_eq_ok_iff.mp h
  obtain rfl := Format.members_eq_ok_iff.mp hmembers
  obtain ⟨hcontracts, haccounts, hnetworks, hemulators, hdeployments⟩ := decode_eq_ok_iff.mp h
  have hsection : ∀ name, (Format.fieldOr name (.obj []) members).IsNormal floats := fun name =>
    Format.isNormal_fieldOr name hraw .empty
  exact {
    emulators := Format.forall_of_read_section Emulators.read (hsection _)
      Emulator.isPlain_of_read hemulators
    contracts := Contracts.isPlain_of_decode (by decide) (hsection _) hcontracts
    networks := Format.forall_of_read_section Networks.read (hsection _)
      Network.isPlain_of_read hnetworks
    accounts := Format.forall_of_read_section (Accounts.read .standard) (hsection _)
      Account.isPlain_of_read haccounts
    deployments := Deployments.isPlain_of_decode
      (Format.isNormal_fieldOr _ hraw .empty_arr) hdeployments }

end Document

end ContractKit
