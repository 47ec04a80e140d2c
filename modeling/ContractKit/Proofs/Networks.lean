import ContractKit.Config.Networks
import ContractKit.Proofs.Format

/-!
# The networks and emulators sections are read back

What decoding accepts as a network has a host, and as an emulator a port number and a service account.
Sections of such records under distinct names decode to them (`Networks.decode_encode`,
`Emulators.decode_encode`).
-/

namespace ContractKit

/-! ## Networks -/

namespace Networks

theorem name_of_read {name : Text} {raw : Json} {network : Network}
    (h : read name raw = .ok network) : network.name = name ∧ network.host ≠ [] := by
  unfold read at h
  split at h
  · obtain ⟨host, hhost, h⟩ := bind_eq_ok_iff.mp h
    obtain rfl := Except.ok.inj h
    exact ⟨rfl, (Format.text_eq_ok_iff.mp hhost).2⟩
  · obtain ⟨members, -, h⟩ := bind_eq_ok_iff.mp h
    split at h
    · obtain ⟨host, hhost, h⟩ := bind_eq_ok_iff.mp h
      obtain rfl := Except.ok.inj h
      exact ⟨rfl, (Format.text_eq_ok_iff.mp hhost).2⟩
    · cases h

theorem read_declaration {network : Network} (h : network.host ≠ []) :
    read network.name (declaration network) = .ok network := by
  unfold declaration
  split_ifs with hkey
  · simp only [read, Format.text_str h, ok_bind, ← hkey]
  · have hfound : Format.fieldOr "key" (.str [])
        [("host", Json.str network.host), ("key", .str network.key)] = .str network.key := rfl
    have hhost : Format.field "host"
        [("host", Json.str network.host), ("key", .str network.key)] = .str network.host := rfl
    simp only [read, Format.members, ok_bind, hfound, hhost, Format.text_str h]

theorem decode_encode {networks : Networks} (hnames : (networks.map (·.name)).Nodup)
    (hhosts : ∀ network ∈ networks, network.host ≠ []) :
    decode (encode networks) = .ok networks :=
  Format.read_section read "networks" hnames fun network h =>
    read_declaration (hhosts network h)

theorem of_decode {raw : Json} {networks : Networks} (hraw : raw.HasDistinctNames)
    (h : decode raw = .ok networks) :
    (networks.map (·.name)).Nodup ∧ ∀ network ∈ networks, network.host ≠ [] :=
  Format.of_read_section read (fun _ _ _ hread => name_of_read hread) hraw h

end Networks

/-! ## Emulators -/

/-- The port is a port number and a service account is named. -/
def Emulator.IsProper (emulator : Emulator) : Prop :=
  (0 < emulator.port ∧ emulator.port < 65536) ∧ emulator.serviceAccount ≠ []

namespace Emulators

theorem name_of_read {name : Text} {raw : Json} {emulator : Emulator}
    (h : read name raw = .ok emulator) : emulator.name = name ∧ emulator.IsProper := by
  obtain ⟨members, -, h⟩ := bind_eq_ok_iff.mp h
  split at h
  · split_ifs at h with hport
    obtain ⟨account, haccount, h⟩ := bind_eq_ok_iff.mp h
    obtain rfl := Except.ok.inj h
    exact ⟨rfl, hport, (Format.text_eq_ok_iff.mp haccount).2⟩
  · cases h

theorem read_declaration {emulator : Emulator} (h : emulator.IsProper) :
    read emulator.name (.obj [("port", .int emulator.port),
      ("serviceAccount", .str emulator.serviceAccount)]) = .ok emulator := by
  obtain ⟨hport, haccount⟩ := h
  have hfound : Format.field "port" [("port", Json.int emulator.port),
      ("serviceAccount", .str emulator.serviceAccount)] = .int emulator.port := rfl
  have hservice : Format.field "serviceAccount" [("port", Json.int emulator.port),
      ("serviceAccount", .str emulator.serviceAccount)] = .str emulator.serviceAccount := rfl
  simp only [read, Format.members, ok_bind, hfound, hservice, if_pos hport,
    Format.text_str haccount]

theorem decode_encode {emulators : Emulators} (hnames : (emulators.map (·.name)).Nodup)
    (hproper : ∀ emulator ∈ emulators, emulator.IsProper) :
    decode (encode emulators) = .ok emulators :=
  Format.read_section read "emulators" hnames fun emulator h =>
    read_declaration (hproper emulator h)

theorem of_decode {raw : Json} {emulators : Emulators} (hraw : raw.HasDistinctNames)
    (h : decode raw = .ok emulators) :
    (emulators.map (·.name)).Nodup ∧ ∀ emulator ∈ emulators, emulator.IsProper :=
  Format.of_read_section read (fun _ _ _ hread => name_of_read hread) hraw h

end Emulators

end ContractKit
