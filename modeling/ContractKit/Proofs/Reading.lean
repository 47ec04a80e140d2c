import ContractKit.Proofs.Result
import Mathlib.Data.List.Infix

/-!
# Reading from the front

Readers take something from the front of a sequence and hand on what is left of it. `ReadsFrom` says
this of the result of a reader, and of an error that the sequence is to blame for it: what it takes
to blame a sequence (`Blame`) passes from the end of a sequence to the whole, so that the readers of
parts can be put together (`ReadsFrom.andThen`).
-/

namespace ContractKit

/-- What it means that an error comes from a sequence. An error that comes from the end of a sequence
comes from the sequence. -/
structure Blame (σ ε : Type) where
  /-- The error comes from the sequence. -/
  On : List σ → ε → Prop
  of_suffix : ∀ {s t : List σ} {e : ε}, On t e → t <:+ s → On s e

/-- The result of reading at the front of `s`: a success leaves an end of `s`, and an error comes from
`s`. -/
structure ReadsFrom {σ ε α : Type} (blame : Blame σ ε) (left : α → List σ) (s : List σ)
    (result : Except ε α) : Prop where
  suffix : ∀ a, result = .ok a → left a <:+ s
  blamed : ∀ e, result = .error e → blame.On s e

namespace ReadsFrom

variable {σ ε α β : Type} {blame : Blame σ ε} {left : α → List σ} {s t : List σ}

theorem of_suffix {result : Except ε α} (h : ReadsFrom blame left t result) (hst : t <:+ s) :
    ReadsFrom blame left s result where
  suffix a heq := (h.suffix a heq).trans hst
  blamed e heq := blame.of_suffix (h.blamed e heq) hst

theorem ok {a : α} (h : left a <:+ s) : ReadsFrom blame left s (.ok a) where
  suffix _ heq := Except.ok.inj heq ▸ h
  blamed _ heq := by cases heq

theorem error {e : ε} (h : blame.On s e) : ReadsFrom blame left s (.error e) where
  suffix _ heq := by cases heq
  blamed _ heq := Except.error.inj heq ▸ h

theorem bind {x : Except ε β} {f : β → Except ε α} (hblamed : ∀ e, x = .error e → blame.On s e)
    (hnext : ∀ b, x = .ok b → ReadsFrom blame left s (f b)) : ReadsFrom blame left s (x >>= f) := by
  cases x with
  | error e => exact .error (hblamed e rfl)
  | ok b => exact hnext b rfl

/-- Reading on after a success. -/
theorem andThen {left' : β → List σ} {x : Except ε β} {f : β → Except ε α}
    (h : ReadsFrom blame left' s x) (hnext : ∀ b, ReadsFrom blame left (left' b) (f b)) :
    ReadsFrom blame left s (x >>= f) :=
  bind h.blamed fun b hb => (hnext b).of_suffix (h.suffix b hb)

theorem map {left' : β → List σ} {x : Except ε β} {f : β → α} (h : ReadsFrom blame left' s x)
    (hf : ∀ b, left (f b) = left' b) : ReadsFrom blame left s (x.map f) := by
  rw [← bind_ok_eq_map]
  exact h.andThen fun b => .ok (hf b ▸ List.suffix_rfl)

end ReadsFrom

end ContractKit
