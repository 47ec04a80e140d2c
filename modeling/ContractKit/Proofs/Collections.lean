import ContractKit.Config.Lookup
import ContractKit.Proofs.Accounts
import ContractKit.Proofs.Contracts
import ContractKit.Proofs.Networks

/-!
# Records are an ordered map

Records that are put one after the other among the records of a section form a map in the order of
insertion (`Lookup.IsOrderedMap`): each key has one record, which is the one written last under it and
stands where the key came up first. The sections of accounts and networks that are written from such
records have one member for each of them (`Lookup.isOrderedMap_putAll`).
-/

namespace ContractKit

/-! ## Putting records one after the other -/

namespace Lookup

variable {α κ : Type} [DecidableEq κ] {key : α → κ}

/-- The records after others were put among them one after the other. -/
def putAll (key : α → κ) (puts records : List α) : List α :=
  puts.foldl (fun records record => put key record records) records

theorem find?_put (key : α → κ) (record : α) (k : κ) : ∀ records : List α,
    (put key record records).find? (fun r => key r = k) =
      if key record = k then some record else records.find? fun r => key r = k
  | [] => by by_cases hk : key record = k <;> simp [put, hk]
  | old :: rest => by
    have ih := find?_put key record k rest
    unfold put
    split_ifs with hold hk hk
    · simp [hk]
    · simp [hold, hk]
    · have hne : key old ≠ k := fun heq => hold (heq.trans hk.symm)
      simp [hne, ih, hk]
    · rw [List.find?_cons, ih, if_neg hk, List.find?_cons]

theorem map_key_put (key : α → κ) (record : α) : ∀ records : List α,
    (put key record records).map key =
      if key record ∈ records.map key then records.map key
      else records.map key ++ [key record]
  | [] => rfl
  | old :: rest => by
    have ih := map_key_put key record rest
    by_cases hold : key old = key record
    · simp [put, hold]
    · have hne : key record ≠ key old := fun heq => hold heq.symm
      rw [put, if_neg hold, List.map_cons, ih]
      by_cases hmem : key record ∈ rest.map key <;> simp [hmem, hne]

/-- An item at the end of a list is left out if it came up before. -/
theorem eraseDups_concat {as : List κ} (a : κ) :
    (as ++ [a]).eraseDups = if a ∈ as then as.eraseDups else as.eraseDups ++ [a] := by
  rw [List.eraseDups_append]
  split_ifs with ha
  · have hnone : [a].removeAll as = [] := by simp [List.removeAll, ha]
    rw [hnone, List.eraseDups_nil, List.append_nil]
  · have hkept : [a].removeAll as = [a] := by simp [List.removeAll, ha]
    rw [hkept, eraseDups_of_nodup (List.nodup_singleton a)]

/-- The records hold what was written: the keys in the order in which they came up first, and under
each key what was written last. -/
structure Holds (key : α → κ) (written records : List α) : Prop where
  keys : records.map key = (written.map key).eraseDups
  found : ∀ k, records.find? (fun r => key r = k) = written.reverse.find? fun r => key r = k

variable {written records : List α}

/-- Under distinct keys the first record of a key is the last one. -/
theorem find?_reverse_of_nodup (k : κ) : ∀ {records : List α}, (records.map key).Nodup →
    records.reverse.find? (fun r => key r = k) = records.find? fun r => key r = k
  | [], _ => rfl
  | r :: rest, h => by
    obtain ⟨hr, hrest⟩ := List.nodup_cons.mp h
    rw [List.reverse_cons, List.find?_append, find?_reverse_of_nodup k hrest]
    by_cases hk : key r = k
    · have hnone : (rest.find? fun s => key s = k) = none := by
        rw [List.find?_eq_none]
        intro s hs hsk
        exact hr (List.mem_map.mpr ⟨s, hs, (of_decide_eq_true hsk).trans hk.symm⟩)
      simp [hnone, hk]
    · simp [hk]

theorem first_eq_ok_iff {p : α → Bool} {e : LookupError} {records : List α} {record : α} :
    first p e records = .ok record ↔ records.find? p = some record := by
  unfold first
  cases records.find? p <;> simp

theorem exists_first_iff {p : α → Bool} {e : LookupError} {records : List α} :
    (∃ record, first p e records = .ok record) ↔ ∃ record ∈ records, p record = true := by
  simp only [first_eq_ok_iff]
  rw [← Option.isSome_iff_exists, List.find?_isSome]

/-- Under distinct keys a key belongs to one record. -/
theorem find?_eq_some_iff_of_nodup {k : κ} {record : α} (h : (records.map key).Nodup) :
    records.find? (fun r => key r = k) = some record ↔ record ∈ records ∧ key record = k := by
  constructor
  · intro hfound
    exact ⟨List.mem_of_find?_eq_some hfound, by simpa using List.find?_some hfound⟩
  · rintro ⟨hmem, rfl⟩
    obtain ⟨found, hfound⟩ : ∃ found, records.find? (fun r => key r = key record) = some found := by
      rw [← Option.isSome_iff_exists, List.find?_isSome]
      exact ⟨record, hmem, decide_eq_true rfl⟩
    have hkey : key found = key record := by simpa using List.find?_some hfound
    rw [hfound, List.inj_on_of_nodup_map h (List.mem_of_find?_eq_some hfound) hmem hkey]

theorem Holds.of_nodup (h : (records.map key).Nodup) : Holds key records records :=
  ⟨(eraseDups_of_nodup h).symm, fun k => (find?_reverse_of_nodup k h).symm⟩

/-- A record that is put is written last. -/
theorem Holds.put (h : Holds key written records) (record : α) :
    Holds key (written ++ [record]) (put key record records) := by
  refine ⟨?_, fun k => ?_⟩
  · have hmem : key record ∈ records.map key ↔ key record ∈ written.map key := by
      rw [h.keys, List.mem_eraseDups]
    rw [map_key_put, List.map_append, List.map_singleton, eraseDups_concat, ← h.keys]
    simp only [hmem]
  · rw [find?_put, h.found, List.reverse_append, List.reverse_singleton, List.singleton_append,
      List.find?_cons]
    by_cases hk : key record = k <;> simp [hk]

/-- Records that are put one after the other are written after those that were there. -/
theorem Holds.putAll (h : Holds key written records) (puts : List α) :
    Holds key (written ++ puts) (putAll key puts records) := by
  induction puts generalizing written records with
  | nil => rwa [List.append_nil]
  | cons record puts ih =>
    have hrest := ih (h.put record)
    rwa [List.append_assoc] at hrest

/-! ## Ordered maps -/

/-- Of records that were written one after the other, `record` is the last one under the key `k`. -/
def IsLast (key : α → κ) (written : List α) (k : κ) (record : α) : Prop :=
  ∃ earlier later, written = earlier ++ record :: later ∧ key record = k ∧ ∀ r ∈ later, key r ≠ k

/-- Records are what records written one after the other leave of an ordered map, in which `find`
looks for a key and fails with the error `missing`. -/
structure IsOrderedMap (key : α → κ) (find : List α → κ → Except LookupError α)
    (missing : κ → LookupError) (written records : List α) : Prop where
  /-- No two records have the same key. -/
  distinct : (records.map key).Nodup
  /-- The keys stand in the order in which they came up first. -/
  order : records.map key = (written.map key).eraseDups
  /-- What is found under a key is what was written last under it. -/
  found : ∀ k record, find records k = .ok record ↔ IsLast key written k record
  /-- Nothing is found under a key that was never written. -/
  notFound : ∀ k, (∀ r ∈ written, key r ≠ k) → find records k = .error (missing k)

theorem find?_reverse_eq_some_iff {k : κ} {record : α} :
    written.reverse.find? (fun r => key r = k) = some record ↔ IsLast key written k record := by
  rw [List.find?_eq_some_iff_append]
  constructor
  · rintro ⟨hk, later, earlier, hsplit, hlater⟩
    refine ⟨earlier.reverse, later.reverse, ?_, of_decide_eq_true hk, fun r hr => ?_⟩
    · simpa using congrArg List.reverse hsplit
    · simpa using hlater r (List.mem_reverse.mp hr)
  · rintro ⟨earlier, later, rfl, hk, hlater⟩
    refine ⟨decide_eq_true hk, later.reverse, earlier.reverse, by simp, fun r hr => ?_⟩
    simpa using hlater r (List.mem_reverse.mp hr)

/-- Records that hold what was written are an ordered map for the search by key. -/
theorem Holds.isOrderedMap {find : List α → κ → Except LookupError α} {missing : κ → LookupError}
    (h : Holds key written records)
    (hfind : ∀ records k, find records k = first (fun r => key r = k) (missing k) records) :
    IsOrderedMap key find missing written records := by
  refine ⟨?_, h.keys, fun k record => ?_, fun k hk => ?_⟩
  · rw [h.keys]
    exact nodup_eraseDups _
  · rw [hfind, first, h.found, ← find?_reverse_eq_some_iff]
    cases written.reverse.find? fun r => key r = k with
    | none => simp
    | some found => simp
  · have hnone : (written.reverse.find? fun r => key r = k) = none := by
      simpa using hk
    rw [hfind, first, h.found, hnone]

end Lookup

/-! ## Keys of decoded records -/

theorem Contracts.nodup_key_of_named {contracts : Contracts}
    (h : ∀ name, ((contracts.named name).map (·.network)).Nodup) :
    (contracts.map key).Nodup := by
  induction contracts with
  | nil => exact List.nodup_nil
  | cons r rest ih =>
    refine List.nodup_cons.mpr ⟨fun hmem => ?_, ih fun name => ?_⟩
    · obtain ⟨s, hs, hkey⟩ := List.mem_map.mp hmem
      obtain ⟨hname, hnetwork⟩ := Prod.mk.inj hkey
      have hgroup := h r.name
      rw [named, List.filter_cons_of_pos (by simp), List.map_cons, List.nodup_cons] at hgroup
      exact hgroup.1 (List.mem_map.mpr ⟨s, mem_named.mpr ⟨hs, hname⟩, hnetwork⟩)
    · exact (h name).sublist (((List.sublist_cons_self r rest).filter _).map _)

/-- A section declares no contract twice on one network. -/
theorem Contracts.nodup_key_of_decode {raw : Json} {default : Text} {contracts : Contracts}
    (hraw : raw.HasDistinctNames) (h : decode raw default = .ok contracts) :
    (contracts.map key).Nodup := by
  obtain ⟨hdeclarable, -, -⟩ := of_decode hraw h
  refine nodup_key_of_named fun name => ?_
  rcases (hdeclarable name).2 with ⟨r, hgroup, -⟩ | ⟨-, hnetworks⟩
  · rw [hgroup]
    exact List.nodup_singleton _
  · exact hnetworks

theorem Accounts.name_of_read {settings : Settings} {name : Text} {raw : Json} {account : Account}
    (h : read settings name raw = .ok account) : account.name = name := by
  obtain ⟨members, -, h⟩ := bind_eq_ok_iff.mp h
  split at h
  · cases h
  · obtain ⟨address, -, h⟩ := bind_eq_ok_iff.mp h
    obtain ⟨key, -, h⟩ := bind_eq_ok_iff.mp h
    rw [← Except.ok.inj h]

/-- A section declares no account twice, whatever the settings. -/
theorem Accounts.nodup_name_of_decode {settings : Settings} {raw : Json} {accounts : Accounts}
    (hraw : raw.HasDistinctNames) (h : decode raw settings = .ok accounts) :
    (accounts.map (·.name)).Nodup :=
  (Format.of_read_section (P := fun _ => True) (read settings)
    (fun _ _ _ hread => ⟨name_of_read hread, trivial⟩) hraw h).1

/-! ## Collections -/

namespace Lookup

variable {rawContracts rawAccounts rawNetworks : Json} {default : Text} {settings : Settings}
  {contracts : Contracts} {accounts : Accounts} {networks : Networks}

/-- The record of a name on a network, both given as a key. -/
def byKey (contracts : Contracts) (k : Text × Text) : Except LookupError Contract :=
  contracts.byNameAndNetwork k.1 k.2

/-- The records of sections with others put among them are ordered maps, and the accounts and networks
are written with one member for each record, in order. -/
theorem isOrderedMap_putAll (hrawContracts : rawContracts.HasDistinctNames)
    (hrawAccounts : rawAccounts.HasDistinctNames) (hrawNetworks : rawNetworks.HasDistinctNames)
    (hcontracts : Contracts.decode rawContracts default = .ok contracts)
    (haccounts : Accounts.decode rawAccounts settings = .ok accounts)
    (hnetworks : Networks.decode rawNetworks = .ok networks)
    (newContracts : List Contract) (newAccounts : List Account) (newNetworks : List Network) :
    IsOrderedMap Contracts.key byKey (fun k => .contractOnNetwork k.1 k.2)
        (contracts ++ newContracts) (putAll Contracts.key newContracts contracts) ∧
      IsOrderedMap Account.name Accounts.byName .account
        (accounts ++ newAccounts) (putAll Account.name newAccounts accounts) ∧
      Accounts.encode (putAll Account.name newAccounts accounts) =
        .obj ((putAll Account.name newAccounts accounts).map fun account => (account.name,
          .obj [("address", .str account.address), ("key", Accounts.keyDeclaration account.key)])) ∧
      IsOrderedMap Network.name Networks.byName .network
        (networks ++ newNetworks) (putAll Network.name newNetworks networks) ∧
      Networks.encode (putAll Network.name newNetworks networks) =
        .obj ((putAll Network.name newNetworks networks).map fun network =>
          (network.name, Networks.declaration network)) := by
  have hmapContracts : IsOrderedMap Contracts.key byKey (fun k => .contractOnNetwork k.1 k.2)
      (contracts ++ newContracts) (putAll Contracts.key newContracts contracts) :=
    ((Holds.of_nodup (Contracts.nodup_key_of_decode hrawContracts hcontracts)).putAll
      newContracts).isOrderedMap fun records k => by
        simp only [byKey, Contracts.byNameAndNetwork, Contracts.key, Prod.ext_iff]
  have hmapAccounts : IsOrderedMap Account.name Accounts.byName .account
      (accounts ++ newAccounts) (putAll Account.name newAccounts accounts) :=
    ((Holds.of_nodup (Accounts.nodup_name_of_decode hrawAccounts haccounts)).putAll
      newAccounts).isOrderedMap fun _ _ => rfl
  have hmapNetworks : IsOrderedMap Network.name Networks.byName .network
      (networks ++ newNetworks) (putAll Network.name newNetworks networks) :=
    ((Holds.of_nodup (Networks.of_decode hrawNetworks hnetworks).1).putAll
      newNetworks).isOrderedMap fun _ _ => rfl
  exact ⟨hmapContracts, hmapAccounts, Format.object_declarations hmapAccounts.distinct,
    hmapNetworks, Format.object_declarations hmapNetworks.distinct⟩

/-- The contract `A` on testnet, the account `a` and the network `n` are replaced where they stand, and the
new records come after them. -/
theorem isOrderedMap_putAll_of_replaced :
    let rawContracts : Json := .obj [("A",
      .obj [("source", .str "a.cdc"), ("aliases", .obj [("testnet", .str "0x01")])])]
    let rawAccounts : Json := .obj [("a", .obj [("address", .str "1"),
      ("key", .obj [("type", .str "file"), ("location", .str "a.key")])])]
    let rawNetworks : Json := .obj [("n", .str "host")]
    let key (location : Text) : AccountKey := ⟨0, "ECDSA_P256", "SHA3_256", .file (some location)⟩
    ∃ (contracts : Contracts) (accounts : Accounts) (networks : Networks),
      Contracts.decode rawContracts "emulator" = .ok contracts ∧
      Accounts.decode rawAccounts .standard = .ok accounts ∧
      Networks.decode rawNetworks = .ok networks ∧
      let contracts : Contracts := putAll Contracts.key
        [⟨"A", "b.cdc", "emulator", []⟩, ⟨"A", "b.cdc", "testnet", "0x02"⟩] contracts
      let accounts : Accounts := putAll Account.name
        [⟨"b", "0000000000000002", key "b.key"⟩, ⟨"a", "0000000000000003", key "c.key"⟩] accounts
      let networks : Networks := putAll Network.name [⟨"n", "other", "0x1"⟩] networks
      contracts.map Contracts.key = ([("A", "testnet"), ("A", "emulator")] : List (Text × Text)) ∧
      contracts.byNameAndNetwork "A" "testnet" = .ok ⟨"A", "b.cdc", "testnet", "0x02"⟩ ∧
      contracts.byNameAndNetwork "B" "testnet" = .error (.contractOnNetwork "B" "testnet") ∧
      accounts.map (·.name) = ["a", "b"] ∧
      (∃ members, accounts.encode = .obj members ∧ Entries.names members = ["a", "b"]) ∧
      networks.map (·.name) = ["n"] ∧ networks.byName "n" = .ok ⟨"n", "other", "0x1"⟩ := by
  intro rawContracts rawAccounts rawNetworks key
  have hdistinctC : rawContracts.HasDistinctNames := by
    refine .obj (by decide) (List.forall_mem_singleton.mpr (.obj (by decide) ?_))
    simp only [List.forall_mem_cons, List.not_mem_nil, false_imp_iff, implies_true, and_true]
    exact ⟨.str _, .obj (by decide) (List.forall_mem_singleton.mpr (.str _))⟩
  have hdistinctA : rawAccounts.HasDistinctNames := by
    refine .obj (by decide) (List.forall_mem_singleton.mpr (.obj (by decide) ?_))
    simp only [List.forall_mem_cons, List.not_mem_nil, false_imp_iff, implies_true, and_true]
    refine ⟨.str _, .obj (by decide) ?_⟩
    simpa using ⟨.str _, .str _⟩
  have hdistinctN : rawNetworks.HasDistinctNames :=
    .obj (by decide) (List.forall_mem_singleton.mpr (.str _))
  have hcontracts : Contracts.decode rawContracts "emulator" =
      .ok [⟨"A", "a.cdc", "testnet", "0x01"⟩] := rfl
  have haccounts : Accounts.decode rawAccounts .standard =
      .ok [⟨"a", "0000000000000001", key "a.key"⟩] := rfl
  have hnetworks : Networks.decode rawNetworks = .ok [⟨"n", "host", []⟩] := rfl
  obtain ⟨hc, ha, hencode, hn, -⟩ := isOrderedMap_putAll hdistinctC hdistinctA hdistinctN hcontracts
    haccounts hnetworks [⟨"A", "b.cdc", "emulator", []⟩, ⟨"A", "b.cdc", "testnet", "0x02"⟩]
    [⟨"b", "0000000000000002", key "b.key"⟩, ⟨"a", "0000000000000003", key "c.key"⟩]
    [⟨"n", "other", "0x1"⟩]
  refine ⟨_, _, _, hcontracts, haccounts, hnetworks, hc.order.trans (by decide),
    (hc.found ("A", "testnet") _).mpr ?_, hc.notFound ("B", "testnet") (by decide),
    ha.order.trans (by decide), ⟨_, hencode, ?_⟩, hn.order.trans (by decide),
    (hn.found "n" _).mpr ?_⟩
  · exact ⟨[⟨"A", "a.cdc", "testnet", "0x01"⟩, ⟨"A", "b.cdc", "emulator", []⟩], [], rfl, rfl, by simp⟩
  · rw [Entries.names, List.map_map]
    exact ha.order.trans (by decide)
  · exact ⟨[⟨"n", "host", []⟩], [], rfl, rfl, by simp⟩

end Lookup

end ContractKit
