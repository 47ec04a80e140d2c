import ContractKit.Text.CodePoint

/-!
# Settings

The names and defaults that decoding a configuration and setting up a project depend on.
-/

namespace ContractKit

/-- The settings in force. -/
structure Settings where
  /-- The file a project is kept in unless another one is named. -/
  fileName : Text
  /-- The network of contracts that name none. -/
  defaultNetwork : Text
  /-- Name and host of the networks of a new project. -/
  defaultNetworks : List (Text × Text)
  /-- The name of the emulator that is used unless another one is named. -/
  emulatorName : Text
  /-- The port of the emulator of a new project. -/
  emulatorPort : Int
  /-- The name of the service account of a new project. -/
  serviceAccountName : Text
  /-- The address that `service` stands for. -/
  serviceAddress : Text
  /-- The index of a key that gives none. -/
  keyIndex : Int
  /-- The signature algorithm of a key that names none. -/
  sigAlgo : Text
  /-- The hash algorithm of a key that names none. -/
  hashAlgo : Text
  /-- The signature algorithms a key may name. -/
  sigAlgos : List Text
  /-- The hash algorithms a key may name. -/
  hashAlgos : List Text
deriving DecidableEq

/-- The settings unless others are given. -/
def Settings.standard : Settings where
  fileName := "flow.json"
  defaultNetwork := "emulator"
  defaultNetworks := [
    ("emulator", "127.0.0.1:3569"),
    ("testnet", "access.devnet.nodes.onflow.org:9000"),
    ("mainnet", "access.mainnet.nodes.onflow.org:9000")]
  emulatorName := "default"
  emulatorPort := 3569
  serviceAccountName := "emulator-account"
  serviceAddress := "f8d6e0586b0a20c7"
  keyIndex := 0
  sigAlgo := "ECDSA_P256"
  hashAlgo := "SHA3_256"
  sigAlgos := ["ECDSA_P256", "ECDSA_secp256k1"]
  hashAlgos := ["SHA3_256", "SHA2_256"]

end ContractKit
