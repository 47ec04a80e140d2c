import ContractKit.Config.Deployments
import ContractKit.Proofs.Format
import ContractKit.Proofs.Wire

/-!
# The deployments section is read back

The contracts of a proper deployment (`Deployment.IsProper`) have names, and arguments that come from
wire forms. So they are written, and they are read back as they are (`Deployments.decode_encode`) if all
deployments have a network and an account (`Deployment.IsNamed`), which the nested form of the section
does not ask for.
-/

namespace ContractKit

/-- The contract has a name, and its arguments are values of wire forms. -/
def DeploymentItem.IsProper (item : DeploymentItem) : Prop :=
  item.contract ≠ [] ∧ ∀ v ∈ item.args, v.IsDecoded

/-- All contracts of the deployment have names and arguments of wire forms. -/
def Deployment.IsProper (deployment : Deployment) : Prop :=
  ∀ item ∈ deployment.contracts, item.IsProper

/-- The network and the account of the deployment have names. -/
def Deployment.IsNamed (deployment : Deployment) : Prop :=
  deployment.network ≠ [] ∧ deployment.account ≠ []

/-- A value of a wire form is written to a wire form of it. -/
theorem Value.IsDecoded.exists_encode {v : Value} (h : v.IsDecoded) :
    ∃ data, encode v = .ok data ∧ decode data = .ok v := by
  obtain ⟨data, hdata⟩ := h
  have hv := wellFormed_of_decode hdata
  obtain ⟨written, hwritten⟩ := exists_encode_of_isWritable hv (isWritable_of_decode hdata)
  exact ⟨written, hwritten, decode_encode hv hwritten⟩

/-! ## Contracts to deploy -/

namespace DeploymentItem

theorem record_eq_ok_iff {item : DeploymentItem} {json : Json} :
    item.record = .ok json ↔ ∃ args, Value.encodeItems item.args = .ok args ∧
      json = .obj [("name", .str item.contract), ("args", .arr args)] := by
  unfold record
  simp only [bind_eq_ok_iff, Except.ok.injEq]
  exact exists_congr fun args => and_congr_right fun _ => eq_comm

theorem exists_record {item : DeploymentItem} (h : item.IsProper) :
    ∃ json, item.record = .ok json := by
  have hencode : ∀ v ∈ item.args, ∃ data, Value.encode v = .ok data := by
    intro v hv
    obtain ⟨data, hdata, -⟩ := (h.2 v hv).exists_encode
    exact ⟨data, hdata⟩
  obtain ⟨args, hargs⟩ := exists_forall₂ hencode
  exact ⟨_, record_eq_ok_iff.mpr ⟨args, Value.encodeItems_eq_ok_iff.mpr hargs, rfl⟩⟩

theorem readItem_record {item : DeploymentItem} {json : Json} (place : Text) (h : item.IsProper)
    (hjson : item.record = .ok json) : Deployments.readItem place json = .ok item := by
  obtain ⟨args, hargs, rfl⟩ := record_eq_ok_iff.mp hjson
  have hback : Value.decodeItems args = .ok item.args := by
    rw [Value.decodeItems_eq_ok_iff]
    refine flip_of_forall₂ (Value.encodeItems_eq_ok_iff.mp hargs) fun v hv data hdata => ?_
    obtain ⟨data', hdata', hv'⟩ := (h.2 v hv).exists_encode
    obtain rfl := Except.ok.inj (hdata.symm.trans hdata')
    exact hv'
  have hname : Format.field "name" [("name", Json.str item.contract), ("args", .arr args)] =
      .str item.contract := rfl
  have hfound : Format.fieldOr "args" (.arr []) [("name", Json.str item.contract),
      ("args", .arr args)] = .arr args := rfl
  simp only [Deployments.readItem, Format.members, ok_bind, hname, hfound, Format.text_str h.1,
    hback]

theorem isProper_of_readItem {place : Text} {raw : Json} {item : DeploymentItem}
    (h : Deployments.readItem place raw = .ok item) : item.IsProper := by
  unfold Deployments.readItem at h
  simp only at h
  split at h
  · obtain ⟨name, hname, h⟩ := bind_eq_ok_iff.mp h
    obtain rfl := Except.ok.inj h
    exact ⟨(Format.text_eq_ok_iff.mp hname).2, by simp⟩
  · obtain ⟨members, -, h⟩ := bind_eq_ok_iff.mp h
    obtain ⟨name, hname, h⟩ := bind_eq_ok_iff.mp h
    split at h
    · split at h
      · next values hvalues =>
        obtain rfl := Except.ok.inj h
        refine ⟨(Format.text_eq_ok_iff.mp hname).2, fun v hv => ?_⟩
        obtain ⟨data, -, hdata⟩ :=
          exists_right_of_forall₂ (Value.decodeItems_eq_ok_iff.mp hvalues) v hv
        exact ⟨data, hdata⟩
      · cases h
    · cases h

end DeploymentItem

/-! ## Deployments -/

namespace Deployment

theorem record_eq_ok_iff {deployment : Deployment} {json : Json} :
    deployment.record = .ok json ↔ ∃ items,
      List.Forall₂ (fun item json => DeploymentItem.record item = .ok json) deployment.contracts
        items ∧
      json = .obj [("network", .str deployment.network), ("account", .str deployment.account),
        ("contracts", .arr items)] := by
  unfold record
  simp only [bind_eq_ok_iff, mapM_eq_ok_iff, Except.ok.injEq]
  exact exists_congr fun items => and_congr_right fun _ => eq_comm

theorem exists_record {deployment : Deployment} (h : deployment.IsProper) :
    ∃ json, deployment.record = .ok json := by
  obtain ⟨items, hitems⟩ := exists_forall₂ fun item hitem =>
    DeploymentItem.exists_record (h item hitem)
  exact ⟨_, record_eq_ok_iff.mpr ⟨items, hitems, rfl⟩⟩

theorem readAt_record {deployment : Deployment} {json : Json} (position : Nat)
    (h : deployment.IsProper) (hnamed : deployment.IsNamed) (hjson : deployment.record = .ok json) :
    Deployments.readAt position json = .ok deployment := by
  obtain ⟨items, hitems, rfl⟩ := record_eq_ok_iff.mp hjson
  have hback : ∀ place, Deployments.readItems place (.arr items) = .ok deployment.contracts := by
    intro place
    rw [Deployments.readItems, mapM_eq_ok_iff]
    exact flip_of_forall₂ hitems fun item hitem _ hrecord =>
      DeploymentItem.readItem_record place (h item hitem) hrecord
  have hnetwork : Format.field "network" [("network", Json.str deployment.network),
      ("account", .str deployment.account), ("contracts", .arr items)] =
        .str deployment.network := rfl
  have haccount : Format.field "account" [("network", Json.str deployment.network),
      ("account", .str deployment.account), ("contracts", .arr items)] =
        .str deployment.account := rfl
  have hcontracts : Format.fieldOr "contracts" (.arr []) [("network", Json.str deployment.network),
      ("account", .str deployment.account), ("contracts", .arr items)] = .arr items := rfl
  simp only [Deployments.readAt, Format.members, ok_bind, hnetwork, haccount, hcontracts,
    Format.text_str hnamed.1, Format.text_str hnamed.2, hback]

theorem isProper_of_readItems {place : Text} {raw : Json} {items : List DeploymentItem}
    (h : Deployments.readItems place raw = .ok items) : ∀ item ∈ items, item.IsProper := by
  unfold Deployments.readItems at h
  split at h
  · intro item hitem
    obtain ⟨json, -, hread⟩ := exists_right_of_forall₂ (mapM_eq_ok_iff.mp h) item hitem
    exact DeploymentItem.isProper_of_readItem hread
  · cases h

/-- A deployment is read from the list form under its own network and account, which are not empty. -/
theorem of_readAt {position : Nat} {raw : Json} {deployment : Deployment}
    (h : Deployments.readAt position raw = .ok deployment) :
    deployment.IsProper ∧ deployment.IsNamed ∧ ∃ members, raw = .obj members ∧
      Format.field "network" members = .str deployment.network ∧
      Format.field "account" members = .str deployment.account := by
  obtain ⟨members, hmembers, h⟩ := bind_eq_ok_iff.mp h
  obtain ⟨network, hnetwork, h⟩ := bind_eq_ok_iff.mp h
  obtain ⟨account, haccount, h⟩ := bind_eq_ok_iff.mp h
  obtain ⟨items, hitems, h⟩ := bind_eq_ok_iff.mp h
  obtain rfl := Except.ok.inj h
  obtain ⟨hnetwork, hnetwork'⟩ := Format.text_eq_ok_iff.mp hnetwork
  obtain ⟨haccount, haccount'⟩ := Format.text_eq_ok_iff.mp haccount
  exact ⟨isProper_of_readItems hitems, ⟨hnetwork', haccount'⟩, members,
    Format.members_eq_ok_iff.mp hmembers, hnetwork, haccount⟩

theorem isNamed_of_readAt_record {position : Nat} {json : Json} {deployment found : Deployment}
    (hjson : deployment.record = .ok json)
    (h : Deployments.readAt position json = .ok found) : deployment.IsNamed := by
  obtain ⟨items, -, rfl⟩ := record_eq_ok_iff.mp hjson
  obtain ⟨-, hnamed, members, hmembers, hnetwork, haccount⟩ := of_readAt h
  obtain rfl := Json.obj.inj hmembers
  have hnetwork : deployment.network = found.network := Json.str.inj hnetwork
  have haccount : deployment.account = found.account := Json.str.inj haccount
  rwa [IsNamed, hnetwork, haccount]

end Deployment

/-! ## The section -/

namespace Deployments

theorem encode_eq_ok_iff {deployments : Deployments} {json : Json} :
    encode deployments = .ok json ↔ ∃ items,
      List.Forall₂ (fun deployment json => Deployment.record deployment = .ok json) deployments
        items ∧ json = .arr items := by
  unfold encode
  simp only [bind_eq_ok_iff, mapM_eq_ok_iff, Except.ok.injEq]
  exact exists_congr fun items => and_congr_right fun _ => eq_comm

theorem exists_encode {deployments : Deployments} (h : ∀ d ∈ deployments, d.IsProper) :
    ∃ json, encode deployments = .ok json := by
  obtain ⟨items, hitems⟩ := exists_forall₂ fun d hd => Deployment.exists_record (h d hd)
  exact ⟨_, encode_eq_ok_iff.mpr ⟨items, hitems, rfl⟩⟩

/-- A list of deployments is read item by item, each at some position. -/
theorem forall₂_of_decodeList {items : List Json} : ∀ {position : Nat} {deployments : Deployments},
    decodeList position items = .ok deployments →
      List.Forall₂ (fun item d => ∃ position, readAt position item = .ok d) items deployments := by
  induction items with
  | nil =>
    intro position deployments h
    rw [← Except.ok.inj h]
    exact .nil
  | cons item rest ih =>
    intro position deployments h
    obtain ⟨deployment, hdeployment, h⟩ := bind_eq_ok_iff.mp h
    obtain ⟨others, hothers, h⟩ := bind_eq_ok_iff.mp h
    rw [← Except.ok.inj h]
    exact .cons ⟨position, hdeployment⟩ (ih hothers)

theorem decodeList_eq_ok {items : List Json} {deployments : Deployments}
    (h : List.Forall₂ (fun item d => ∀ position, readAt position item = .ok d) items deployments)
    (position : Nat) : decodeList position items = .ok deployments := by
  induction h generalizing position with
  | nil => rfl
  | cons hitem _ ih => rw [decodeList, hitem position, ok_bind, ih (position + 1), ok_bind]

theorem decode_encode {deployments : Deployments} {json : Json}
    (h : ∀ d ∈ deployments, d.IsProper) (hnamed : ∀ d ∈ deployments, d.IsNamed)
    (hjson : encode deployments = .ok json) : decode json = .ok deployments := by
  obtain ⟨items, hitems, rfl⟩ := encode_eq_ok_iff.mp hjson
  refine decodeList_eq_ok (flip_of_forall₂ hitems fun d hd item hitem position => ?_) 0
  exact Deployment.readAt_record position (h d hd) (hnamed d hd) hitem

theorem isNamed_of_decode_encode {deployments found : Deployments} {json : Json}
    (hjson : encode deployments = .ok json) (h : decode json = .ok found) :
    ∀ d ∈ deployments, d.IsNamed := by
  obtain ⟨items, hitems, rfl⟩ := encode_eq_ok_iff.mp hjson
  intro d hd
  obtain ⟨item, hitem, hrecord⟩ := exists_left_of_forall₂ hitems d hd
  obtain ⟨_, -, position, hread⟩ := exists_left_of_forall₂ (forall₂_of_decodeList h) item hitem
  exact Deployment.isNamed_of_readAt_record hrecord hread

theorem isProper_of_decode {raw : Json} {deployments : Deployments}
    (h : decode raw = .ok deployments) : ∀ d ∈ deployments, d.IsProper := by
  intro d hd
  unfold decode at h
  split at h
  · obtain ⟨_, -, position, hread⟩ := exists_right_of_forall₂ (forall₂_of_decodeList h) d hd
    exact (Deployment.of_readAt hread).1
  · obtain ⟨networks, -, h⟩ := bind_eq_ok_iff.mp h
    obtain ⟨groups, hgroups, h⟩ := bind_eq_ok_iff.mp h
    obtain rfl := Except.ok.inj h
    obtain ⟨group, hgroup, hd⟩ := List.mem_flatten.mp hd
    obtain ⟨member, -, hread⟩ := exists_right_of_forall₂ (mapM_eq_ok_iff.mp hgroups) group hgroup
    obtain ⟨accounts, -, haccounts⟩ := bind_eq_ok_iff.mp hread
    obtain ⟨account, -, haccount⟩ := exists_right_of_forall₂ (mapM_eq_ok_iff.mp haccounts) d hd
    obtain ⟨items, hitems, h⟩ := bind_eq_ok_iff.mp haccount
    obtain rfl := Except.ok.inj h
    exact Deployment.isProper_of_readItems hitems

end Deployments

end ContractKit
