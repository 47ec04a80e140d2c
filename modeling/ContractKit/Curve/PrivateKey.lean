import ContractKit.Curve.Point
import ContractKit.Text.Lowercase

/-!
# Private keys

The two signature curves, private keys as hexadecimal text, and the public key of a private key: the
coordinates of a multiple of the generator, 32 bytes each.
-/

namespace ContractKit

namespace Curve

/-- The curve P-256. -/
def p256 : Curve where
  p := 0xFFFFFFFF00000001000000000000000000000000FFFFFFFFFFFFFFFFFFFFFFFF
  n := 0xFFFFFFFF00000000FFFFFFFFFFFFFFFFBCE6FAADA7179E84F3B9CAC2FC632551
  a := 0xFFFFFFFF00000001000000000000000000000000FFFFFFFFFFFFFFFFFFFFFFFC
  b := 0x5AC635D8AA3A93E7B3EBBD55769886BC651D06B0CC53B0F63BCE3C3E27D2604B
  gx := 0x6B17D1F2E12C4247F8BCE6E563A440F277037D812DEB33A0F4A13945D898C296
  gy := 0x4FE342E2FE1A7F9B8EE7EB4A7C0F9E162BCE33576B315ECECBB6406837BF51F5

/-- The curve secp256k1. -/
def secp256k1 : Curve where
  p := 0xFFFFFFFFFFFFFFFFFFFFFFFFFFFFFFFFFFFFFFFFFFFFFFFFFFFFFFFEFFFFFC2F
  n := 0xFFFFFFFFFFFFFFFFFFFFFFFFFFFFFFFEBAAEDCE6AF48A03BBFD25E8CD0364141
  a := 0
  b := 7
  gx := 55066263022277343669578718895168534326250603453777594175500187360389116729240
  gy := 32670510020758816978083085130507043184471273380659243275938904335757337482424

/-- The curve of a signature algorithm. -/
def ofAlgorithm? (algorithm : Text) : Option Curve :=
  if algorithm = "ECDSA_P256" then some p256
  else if algorithm = "ECDSA_secp256k1" then some secp256k1
  else none

end Curve

/-- Why a text is no private key, or why a key has no public key. -/
inductive KeyError where
  /-- No curve belongs to the algorithm. -/
  | unsupportedAlgorithm (algorithm : Text)
  /-- The text has the wrong length. -/
  | wrongLength
  /-- The text is not hexadecimal. -/
  | notHex
  /-- The text is no single number. -/
  | numeral (e : NumeralError)
  /-- The number is no key for the algorithm. -/
  | outOfRange (algorithm : Text)
  /-- The point arithmetic fails. -/
  | curve (e : CurveError)
  /-- The public key would be the point at infinity. -/
  | noPublicKey
deriving DecidableEq

namespace PrivateKey

/-- The number of hexadecimal digits of a key. -/
def width : Nat := 64

end PrivateKey

/-- The wording of an error. -/
def KeyError.message : KeyError → Text
  | .unsupportedAlgorithm algorithm => .concat ["Unsupported signature algorithm: ", algorithm]
  | .wrongLength =>
    .concat ["Private key must be ", Numeral.ofNat 10 PrivateKey.width, " hex characters"]
  | .notHex => "Private key must be hex encoded"
  | .numeral e => e.message
  | .outOfRange algorithm => .concat ["Invalid private key for ", algorithm]
  | .curve e => e.message
  | .noPublicKey => "Could not derive public key"

namespace PrivateKey

/-- Pairs of hexadecimal digits, with ASCII blanks around pairs. -/
def isHexPairs : Text → Bool
  | [] => true
  | [c] => c.isAsciiBlank
  | c :: d :: rest =>
    if c.isAsciiBlank then isHexPairs (d :: rest)
    else Numeral.isHexDigit c && Numeral.isHexDigit d && isHexPairs rest

/-- The curve of an algorithm, or the error that there is none. -/
def curveFor (algorithm : Text) : Except KeyError Curve :=
  match Curve.ofAlgorithm? algorithm with
  | some curve => .ok curve
  | none => .error (.unsupportedAlgorithm algorithm)

/-- A key without blanks around it, in lower case and without the `0x` it may start with. -/
def bare (text : Text) : Text :=
  let lowered := text.trim.lower
  (Text.dropStart? "0x" lowered).getD lowered

/-- The bare key, checked for its length and for hexadecimal digits. -/
def normalize (text : Text) : Except KeyError Text :=
  let key := bare text
  if key.length ≠ width then .error .wrongLength
  else if isHexPairs key then .ok key
  else .error .notHex

/-- The number of a normalized key: blanks around it are dropped, blanks inside it are refused. -/
def number (key : Text) : Except KeyError Nat :=
  match key.trim.mapM Numeral.hexValue? with
  | some (d :: ds) => .ok (Numeral.value 16 (d :: ds))
  | _ => .error (.numeral (.malformed 16 key))

/-- The normalized key, checked to be a key of the algorithm: between one and the order of the
generator, the latter excluded. -/
def validate (text algorithm : Text) : Except KeyError Text := do
  let curve ← curveFor algorithm
  let key ← normalize text
  let k ← number key
  if 1 ≤ k ∧ k < curve.n then .ok key else .error (.outOfRange algorithm)

/-! ## Public keys -/

/-- The last `count` bytes of a number, the most significant first. -/
def bytes : Nat → Nat → List UInt8
  | 0, _ => []
  | count + 1, n => bytes count (n / 256) ++ [.ofNat n]

/-- The two hexadecimal digits of each byte. -/
def hex (data : List UInt8) : Text :=
  data.flatMap fun byte => Numeral.hexadecimal 2 byte.toNat

/-- The public key: the coordinates of the point, 32 bytes each. -/
def publicKey (text algorithm : Text) : Except KeyError (List UInt8) := do
  let curve ← curveFor algorithm
  let key ← validate text algorithm
  let k ← number key
  match curve.multiply k curve.generator with
  | .error e => .error (.curve e)
  | .ok .infinity => .error .noPublicKey
  | .ok (.affine x y) => .ok (bytes 32 x.toNat ++ bytes 32 y.toNat)

end PrivateKey

end ContractKit
