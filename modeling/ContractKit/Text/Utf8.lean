import ContractKit.Number.Numeral

/-!
# UTF-8

Decoding and encoding of UTF-8. A decoding error names the bytes it is about: those of the longest
start of a character that the bytes allow, or the one byte no character starts with.
-/

namespace ContractKit.Utf8

/-- What is wrong with the bytes at which decoding stopped. -/
inductive Fault where
  /-- No character starts with this byte. -/
  | badStart
  /-- The next byte cannot go on with the character. -/
  | badContinuation
  /-- The bytes end inside a character. -/
  | truncated
deriving DecidableEq

/-- Why bytes are no UTF-8: the first byte concerned, its position, the number of bytes
concerned and what is wrong with them. -/
structure DecodeError where
  /-- The first byte concerned. -/
  byte : UInt8
  /-- Where it stands. -/
  position : Nat
  /-- How many bytes are concerned. -/
  count : Nat
  /-- What is wrong. -/
  fault : Fault
deriving DecidableEq

/-- The wording of a fault. -/
def Fault.message : Fault → Text
  | .badStart => "invalid start byte"
  | .badContinuation => "invalid continuation byte"
  | .truncated => "unexpected end of data"

/-- The wording of a decoding error. -/
def DecodeError.message (e : DecodeError) : Text :=
  if e.count = 1 then
    .concat ["'utf-8' codec can't decode byte 0x", Numeral.hexadecimal 2 e.byte.toNat,
      " in position ", Numeral.ofNat 10 e.position, ": ", e.fault.message]
  else
    .concat ["'utf-8' codec can't decode bytes in position ", Numeral.ofNat 10 e.position, "-",
      Numeral.ofNat 10 (e.position + e.count - 1), ": ", e.fault.message]

/-- For the first byte of a longer character: the bits it contributes and, for each byte that must
follow, the least and the greatest one allowed. -/
def lead? (byte : Nat) : Option (Nat × List (Nat × Nat)) :=
  let any := (0x80, 0xbf)
  if 0xc2 ≤ byte ∧ byte ≤ 0xdf then some (byte - 0xc0, [any])
  else if byte = 0xe0 then some (0, [(0xa0, 0xbf), any])
  else if byte = 0xed then some (0xd, [(0x80, 0x9f), any])
  else if 0xe1 ≤ byte ∧ byte ≤ 0xef then some (byte - 0xe0, [any, any])
  else if byte = 0xf0 then some (0, [(0x90, 0xbf), any, any])
  else if byte = 0xf4 then some (4, [(0x80, 0x8f), any, any])
  else if 0xf1 ≤ byte ∧ byte ≤ 0xf3 then some (byte - 0xf0, [any, any, any])
  else none

/-- Reads the bytes that go on with a character of which `count` bytes, holding the bits `bits`,
have been read. An error gives the number of bytes read and the fault. -/
def continuation (count bits : Nat) :
    List (Nat × Nat) → List UInt8 → Except (Nat × Fault) (Nat × List UInt8)
  | [], rest => .ok (bits, rest)
  | _ :: _, [] => .error (count, .truncated)
  | (lo, hi) :: ranges, byte :: rest =>
    if lo ≤ byte.toNat ∧ byte.toNat ≤ hi then
      continuation (count + 1) (bits * 64 + (byte.toNat - 0x80)) ranges rest
    else .error (count, .badContinuation)

/-- What is left after the continuation bytes is no longer than what was there before. -/
theorem continuation_length {ranges : List (Nat × Nat)} :
    ∀ {count bits : Nat} {bytes : List UInt8} {r : Nat × List UInt8},
      continuation count bits ranges bytes = .ok r → r.2.length ≤ bytes.length := by
  induction ranges with
  | nil =>
    intro count bits bytes r h
    simp only [continuation, Except.ok.injEq] at h
    simp [← h]
  | cons range ranges ih =>
    intro count bits bytes r h
    cases bytes with
    | nil => simp [continuation] at h
    | cons byte rest =>
      simp only [continuation] at h
      split at h
      · have := ih h
        simp only [List.length_cons]
        omega
      · simp at h

/-- Decodes `bytes`, which follow `position` bytes already decoded. -/
def decodeFrom (position : Nat) (bytes : List UInt8) : Except DecodeError Text :=
  match bytes with
  | [] => .ok []
  | byte :: rest =>
    if byte.toNat < 0x80 then
      (decodeFrom (position + 1) rest).map (.ofNat byte.toNat :: ·)
    else
      match lead? byte.toNat with
      | none => .error ⟨byte, position, 1, .badStart⟩
      | some (bits, ranges) =>
        match _h : continuation 1 bits ranges rest with
        | .error (count, fault) => .error ⟨byte, position, count, fault⟩
        | .ok (number, after) =>
          (decodeFrom (position + 1 + ranges.length) after).map (.ofNat number :: ·)
termination_by bytes.length
decreasing_by
  · simp
  · have h : after.length ≤ rest.length := continuation_length _h
    simp only [List.length_cons]
    omega

/-- The text the bytes encode. -/
def decode (bytes : List UInt8) : Except DecodeError Text :=
  decodeFrom 0 bytes

/-- The bytes of one code point; a lone surrogate has none. -/
def encodePoint (c : CodePoint) : Option (List UInt8) :=
  let tail (shift : Nat) : UInt8 := .ofNat (0x80 + c.val >>> shift % 64)
  if c.val < 0x80 then some [.ofNat c.val]
  else if c.val < 0x800 then some [.ofNat (0xc0 + c.val >>> 6), tail 0]
  else if c.isSurrogate then none
  else if c.val < 0x10000 then some [.ofNat (0xe0 + c.val >>> 12), tail 6, tail 0]
  else some [.ofNat (0xf0 + c.val >>> 18), tail 12, tail 6, tail 0]

/-- The bytes of a text without surrogates. -/
def encode? (t : Text) : Option (List UInt8) :=
  (t.mapM encodePoint).map List.flatten

end ContractKit.Utf8
