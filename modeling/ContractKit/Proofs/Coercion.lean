import ContractKit.Argument.Coercion
import ContractKit.Proofs.WideEscape

/-!
# How coercing arguments ends

`Argument.coerceAll_outcome` lists the ways: the counts differ, or every word gives the value of its
parameter, or the first word that gives none decides. That word is no value of its parameter's type,
which the error names if it can be written, or it overflows, and then it has an escape of more than 31
bits in it.
-/

namespace ContractKit.Argument

/-- The quotation marks and the `0x` that are added to a word belong to no escape. -/
theorem hasWideEscape_of_prepare {raw : Text} {leaf : Ty}
    (h : Literal.HasWideEscape (prepare raw leaf)) : Literal.HasWideEscape raw := by
  unfold prepare at h
  split_ifs at h
  · exact h
  · have hquoted : Text.concat ["\"", raw, "\""] = ('"' : CodePoint) :: (raw ++ [('"' : CodePoint)]) :=
      rfl
    rw [hquoted] at h
    exact (h.of_cons (by decide)).of_concat (by decide)
  · exact h
  · have hprefixed : Text.concat ["0x", raw] = ('0' : CodePoint) :: ('x' : CodePoint) :: raw := by
      simp [Text.concat, Text.ofString]
    rw [hprefixed] at h
    exact (h.of_cons (by decide)).of_cons (by decide)
  · exact h

/-- A word that gives no value is no value of the type, unless it overflows. -/
theorem coerce_eq_error {parameter : Parameter} {raw : Text} {e : CoercionError}
    (h : coerce parameter raw = .error e) :
    e = mismatch parameter ∨ e = .codePointOverflow ∧ Literal.HasWideEscape raw := by
  unfold coerce at h
  simp only at h
  split at h
  · cases h
  · next hoverflow =>
    exact .inr ⟨(Except.error.inj h).symm,
      hasWideEscape_of_prepare (Literal.hasWideEscape_of_parse hoverflow)⟩
  split_ifs at h
  · exact .inl (Except.error.inj h).symm
  split at h
  · cases h
  · next hoverflow =>
    exact .inr ⟨(Except.error.inj h).symm, Literal.hasWideEscape_of_parse hoverflow⟩
  · exact .inl (Except.error.inj h).symm

theorem mismatch_cases (parameter : Parameter) :
    parameter.type.leaf.isWritable = true ∧
        mismatch parameter = .typeMismatch parameter.identifier parameter.type.leaf ∨
      parameter.type.leaf.isWritable = false ∧ mismatch parameter = .numeral .tooManyDigits := by
  unfold mismatch
  cases parameter.type.leaf.isWritable
  · exact .inr ⟨rfl, rfl⟩
  · exact .inl ⟨rfl, rfl⟩

theorem coerceAll_of_length_ne {parameters : List Parameter} {raws : List Text}
    (h : raws.length ≠ parameters.length) :
    coerceAll parameters raws = .error (.countMismatch raws.length parameters.length) :=
  if_neg h

theorem coerceAll_of_length_eq {parameters : List Parameter} {raws : List Text}
    (h : raws.length = parameters.length) :
    coerceAll parameters raws = (parameters.zip raws).mapM fun (p, raw) => coerce p raw :=
  if_pos h

/-- Words are refused for their count exactly when it is not the one of the parameters. Otherwise all
of them give the values of their parameters, or the first word that gives none is refused for its
type, unless it overflows in an escape, or the type has an array length that cannot be written. -/
theorem coerceAll_outcome (parameters : List Parameter) (raws : List Text) :
    (raws.length ≠ parameters.length →
      coerceAll parameters raws = .error (.countMismatch raws.length parameters.length)) ∧
    (raws.length = parameters.length →
      (∃ values, coerceAll parameters raws = .ok values ∧
        List.Forall₂ (fun (p, raw) value => coerce p raw = .ok value) (parameters.zip raws) values) ∨
      ∃ before p raw after e, parameters.zip raws = before ++ (p, raw) :: after ∧
        (∀ word ∈ before, ∃ value, coerce word.1 word.2 = .ok value) ∧
        coerce p raw = .error e ∧ coerceAll parameters raws = .error e ∧
        (p.type.leaf.isWritable = true ∧ e = .typeMismatch p.identifier p.type.leaf ∨
          p.type.leaf.isWritable = false ∧ e = .numeral .tooManyDigits ∨
          e = .codePointOverflow ∧ Literal.HasWideEscape raw)) := by
  refine ⟨coerceAll_of_length_ne, fun hlength => ?_⟩
  cases hall : coerceAll parameters raws with
  | ok values =>
    rw [coerceAll_of_length_eq hlength] at hall
    exact .inl ⟨values, rfl, mapM_eq_ok_iff.mp hall⟩
  | error e =>
    rw [coerceAll_of_length_eq hlength] at hall
    obtain ⟨before, ⟨p, raw⟩, after, hsplit, hbefore, hfails⟩ := mapM_eq_error_iff.mp hall
    refine .inr ⟨before, p, raw, after, e, hsplit, hbefore, hfails, rfl, ?_⟩
    rcases coerce_eq_error hfails with rfl | hoverflow
    · exact (mismatch_cases p).imp_right .inl
    · exact .inr (.inr hoverflow)

/-- The word `\u{ffffffff}` for a string is refused neither for the count nor for its type. -/
theorem not_typeMismatch_of_wide_escape :
    let result := coerceAll [⟨[], "s", .simple .string, "String"⟩] ["\\u\x7bffffffff\x7d"]
    (∀ values, result ≠ .ok values) ∧ (∀ got want, result ≠ .error (.countMismatch got want)) ∧
      ∀ identifier type, result ≠ .error (.typeMismatch identifier type) := by
  have hoverflow : coerceAll [⟨[], "s", .simple .string, "String"⟩] ["\\u\x7bffffffff\x7d"] =
      .error .codePointOverflow := by
    cbv
  simp [hoverflow]

end ContractKit.Argument
