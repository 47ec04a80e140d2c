import ContractKit.Proofs.Literal
import ContractKit.Proofs.Reading
import ContractKit.Proofs.Text
import Mathlib.Data.List.TakeWhile

/-!
# Escapes of more than 31 bits

An escape in a string literal may name a number that is no code point. Most of these are refused like
any other text that is no literal; one of more than 31 bits is an error of its own
(`LiteralError.codePointOverflow`). `Literal.hasWideEscape_of_parse` says that only a text with such an
escape in it gives this error.

Every reader of literals takes its literal from the front of the text and hands on what is left
(`ReadsFrom`), so an escape in the rest is one of the whole text.
-/

namespace ContractKit.Literal

/-- Somewhere in the text an escape names a number of more than 31 bits. -/
def HasWideEscape (s : Text) : Prop :=
  ∃ before digits after : Text,
    s = before ++ ('\\' : CodePoint) :: ('u' : CodePoint) :: ('\x7b' : CodePoint) ::
      (digits ++ ('\x7d' : CodePoint) :: after) ∧
      digits.length ≤ 8 ∧ (∀ d ∈ digits, Numeral.isHexDigit d = true) ∧
      0x80000000 ≤ Numeral.value 16 (digits.filterMap Numeral.hexValue?)

theorem HasWideEscape.of_suffix {s t : Text} (h : HasWideEscape t) (hst : t <:+ s) :
    HasWideEscape s := by
  obtain ⟨before, digits, after, rfl, hdigits⟩ := h
  obtain ⟨front, rfl⟩ := hst
  exact ⟨front ++ before, digits, after, by rw [List.append_assoc], hdigits⟩

/-- A character in front of the text belongs to no escape unless it is a backslash. -/
theorem HasWideEscape.of_cons {c : CodePoint} {s : Text} (h : HasWideEscape (c :: s))
    (hc : c ≠ '\\') : HasWideEscape s := by
  obtain ⟨before, digits, after, heq, hdigits⟩ := h
  cases before with
  | nil => exact absurd (List.cons.inj heq).1 hc
  | cons b before => exact ⟨before, digits, after, (List.cons.inj heq).2, hdigits⟩

/-- A character behind the text belongs to no escape unless it is a closing brace. -/
theorem HasWideEscape.of_concat {c : CodePoint} {s : Text} (h : HasWideEscape (s ++ [c]))
    (hc : c ≠ '\x7d') : HasWideEscape s := by
  obtain ⟨before, digits, after, heq, hdigits⟩ := h
  induction after using List.reverseRecOn with
  | nil =>
    have hlast := congrArg List.getLast? heq
    simp only [List.getLast?_append, List.getLast?_cons, Option.some_or] at hlast
    exact absurd (by simpa using hlast) hc
  | append_singleton after d _ =>
    refine ⟨before, digits, after, ?_, hdigits⟩
    have heq' : s ++ [c] = (before ++ ('\\' : CodePoint) :: ('u' : CodePoint) ::
        ('\x7b' : CodePoint) :: (digits ++ ('\x7d' : CodePoint) :: after)) ++ [d] := by
      rw [heq]
      simp
    exact (List.append_inj' heq' rfl).1

/-! ## Reading from the front -/

/-- An error for more than 31 bits comes from an escape in the text. -/
def overflow : Blame CodePoint LiteralError where
  On s e := e = .codePointOverflow → HasWideEscape s
  of_suffix h hst he := (h he).of_suffix hst

theorem overflow_on_of_ne {s : Text} {e : LiteralError} (h : e ≠ .codePointOverflow) :
    overflow.On s e :=
  fun he => absurd he h

theorem skip_suffix (s : Text) : skip s <:+ s :=
  List.dropWhile_suffix _

theorem readsFrom_expect (c : CodePoint) (s : Text) : ReadsFrom overflow id s (expect c s) := by
  refine ⟨fun rest h => ?_, fun e h => overflow_on_of_ne ?_⟩
  · exact (List.suffix_cons c rest).trans (skip_of_expect h ▸ skip_suffix s)
  · unfold expect at h
    split at h
    · rw [← Except.error.inj h]
      simp
    · split_ifs at h
      rw [← Except.error.inj h]
      simp

/-! ## Strings -/

theorem le_value_of_codePoint {digits : Text} (h : codePoint digits = .error .codePointOverflow) :
    0x80000000 ≤ Numeral.value 16 (digits.filterMap Numeral.hexValue?) := by
  unfold codePoint at h
  simp only at h
  split_ifs at h with _ hsmall
  · cases h
  · exact Nat.not_lt.mp hsmall

/-- The escape that is read behind its backslash is the wide one. -/
theorem hasWideEscape_of_escape {s : Text} (h : escape s = .error .codePointOverflow) :
    HasWideEscape ('\\' :: s) := by
  unfold escape at h
  split at h
  · cases h
  next c rest =>
  split at h
  · cases h
  split_ifs at h with hu
  swap
  · cases h
  unfold unicodeEscape at h
  split at h
  · cases h
  next brace tail =>
  split at h
  · cases h
  next close after hclose =>
  split_ifs at h with hform
  swap
  · cases h
  obtain ⟨rfl, rfl, -, hlength⟩ := hform
  obtain rfl := hu
  refine ⟨[], tail.takeWhile Numeral.isHexDigit, after, ?_, hlength,
    fun d hd => List.mem_takeWhile_imp hd, le_value_of_codePoint ?_⟩
  · rw [← hclose, List.takeWhile_append_dropWhile, List.nil_append]
  · cases hcode : codePoint (tail.takeWhile Numeral.isHexDigit) with
    | ok d => simp [hcode, Except.map] at h
    | error e =>
      rw [hcode] at h
      obtain rfl := Except.error.inj h
      rfl

theorem escape_suffix {s rest : Text} {c : CodePoint} (h : escape s = .ok (c, rest)) :
    rest <:+ s := by
  unfold escape at h
  split at h
  · cases h
  split at h
  · rw [← (Prod.mk.inj (Except.ok.inj h)).2]
    exact List.suffix_cons _ _
  split_ifs at h
  refine List.IsSuffix.trans ?_ (List.suffix_cons _ _)
  unfold unicodeEscape at h
  split at h
  · cases h
  next brace tail =>
  split at h
  · cases h
  next close after hclose =>
  split_ifs at h
  obtain ⟨_, -, heq⟩ := map_eq_ok_iff.mp h
  rw [← (Prod.mk.inj heq).2]
  exact (List.suffix_cons close after).trans
    ((hclose ▸ List.dropWhile_suffix _).trans (List.suffix_cons brace tail))

theorem readsFrom_stringBody (s : Text) : ReadsFrom overflow Prod.snd s (stringBody s) := by
  fun_induction stringBody s with
  | case1 => exact .error nofun
  | case2 rest => exact .ok (List.suffix_cons _ _)
  | case3 rest _ => exact .error nofun
  | case4 rest e he =>
    refine .error fun h => hasWideEscape_of_escape ?_
    rw [he, h]
  | case5 rest d after he _ _ ih =>
    exact .of_suffix (ih.map fun _ => rfl) ((escape_suffix he).trans (List.suffix_cons _ _))
  | case6 c rest _ _ _ ih => exact .of_suffix (ih.map fun _ => rfl) (List.suffix_cons _ _)

theorem readsFrom_string (s : Text) : ReadsFrom overflow Prod.snd s (string s) := by
  unfold string
  split
  · split_ifs
    · exact (readsFrom_stringBody _).of_suffix (List.suffix_cons _ _)
    · exact .error nofun
  · exact .error nofun

/-! ## Words and paths -/

theorem readsFrom_word (s : Text) : ReadsFrom overflow Prod.snd s (word s) := by
  refine ⟨fun (found, rest) h => ⟨found, (of_word h).1.symm⟩, fun e h => overflow_on_of_ne ?_⟩
  unfold word at h
  split at h
  split at h
  · rw [← Except.error.inj h]
    simp
  · cases h

theorem ofLength_ne_overflow (size : Nat) (values : List Value) :
    ofLength size values ≠ .error .codePointOverflow := by
  unfold ofLength
  split_ifs
  · simp
  · split <;> simp

/-- Reading a word and saying what it denotes. -/
theorem readsFrom_word_bind {denote : Text → Except LiteralError Value} (s : Text)
    (h : ∀ found, denote found ≠ .error .codePointOverflow) :
    ReadsFrom overflow Prod.snd s (word s >>= fun (found, rest) => do .ok (← denote found, rest)) :=
  (readsFrom_word s).andThen fun (found, _) =>
    .bind (fun _ he hwide => absurd (hwide ▸ he) (h found)) fun _ _ => .ok List.suffix_rfl

theorem bool_ne_overflow (found : Text) : bool found ≠ .error .codePointOverflow := by
  unfold bool
  split_ifs <;> simp

theorem integer_ne_overflow (kind : IntegerKind) (found : Text) :
    integer kind found ≠ .error .codePointOverflow := by
  unfold integer
  simp only
  split
  · split
    · simp
    · split <;> simp
  · simp

theorem fixedPoint_ne_overflow (kind : FixedKind) (found : Text) :
    fixedPoint kind found ≠ .error .codePointOverflow := by
  unfold fixedPoint
  split_ifs
  · split <;> simp
  · simp

theorem address_ne_overflow (found : Text) : address found ≠ .error .codePointOverflow := by
  unfold address
  split
  · split_ifs
    · split <;> simp
    · simp
  · simp

theorem dropStart?_suffix {start s rest : Text} (h : Text.dropStart? start s = some rest) :
    rest <:+ s :=
  ⟨start, (Text.dropStart?_eq_some_iff.mp h).symm⟩

theorem identifier_suffix (s : Text) : (identifier s).2 <:+ s := by
  unfold identifier
  split
  · split_ifs
    · exact (List.dropWhile_suffix _).trans (List.suffix_cons _ _)
    · exact List.suffix_rfl
  · exact List.suffix_rfl

theorem readsFrom_path (kind : PathKind) (s : Text) : ReadsFrom overflow Prod.snd s (path kind s) := by
  unfold path
  split
  · exact .error nofun
  next afterSlash hslash =>
  simp only
  split_ifs
  swap
  · exact .error nofun
  split
  · exact .error nofun
  next afterDomain hdomain =>
  have hle : afterDomain <:+ s := (dropStart?_suffix hdomain).trans
    ((identifier_suffix afterSlash).trans (dropStart?_suffix hslash))
  split
  · exact .error nofun
  · next name rest _ hname =>
    exact .ok (((congrArg Prod.snd hname) ▸ identifier_suffix afterDomain).trans hle)

theorem readsFrom_simple (type : SimpleType) (s : Text) : ReadsFrom overflow Prod.snd s (simple type s) := by
  cases type with
  | string => exact (readsFrom_string s).map fun _ => rfl
  | character =>
    refine (readsFrom_string s).andThen fun (t, rest) => ?_
    simp only
    split_ifs
    · exact .ok List.suffix_rfl
    · exact .error nofun
  | bool => exact readsFrom_word_bind s bool_ne_overflow
  | integer kind => exact readsFrom_word_bind s (integer_ne_overflow kind)
  | fixed kind => exact readsFrom_word_bind s (fixedPoint_ne_overflow kind)
  | path kind => exact readsFrom_path kind s
  | unwritten kind => exact .error nofun

/-! ## Sequences -/

section

variable {α : Type} {close : CodePoint} {item : Text → Except LiteralError (α × Text)}

theorem readsFrom_items (hitem : ∀ s, ReadsFrom overflow Prod.snd s (item s)) :
    ∀ (fuel : Nat) (s : Text), ReadsFrom overflow Prod.snd s (items close item fuel s)
  | 0, s => .error nofun
  | fuel + 1, s => by
    refine (hitem s).andThen fun (first, rest) => ?_
    simp only
    split_ifs
    · have hcomma : skip ((skip rest).drop 1) <:+ rest :=
        (skip_suffix _).trans ((List.drop_suffix _ _).trans (skip_suffix rest))
      exact .ok ((List.drop_suffix _ _).trans hcomma)
    · have hcomma : skip ((skip rest).drop 1) <:+ rest :=
        (skip_suffix _).trans ((List.drop_suffix _ _).trans (skip_suffix rest))
      exact .of_suffix ((readsFrom_items hitem fuel _).andThen fun _ => .ok List.suffix_rfl) hcomma
    · exact .of_suffix ((readsFrom_expect close _).andThen fun _ => .ok List.suffix_rfl)
        (skip_suffix rest)

theorem readsFrom_sequence (hitem : ∀ s, ReadsFrom overflow Prod.snd s (item s)) (s : Text) :
    ReadsFrom overflow Prod.snd s (sequence close item s) := by
  unfold sequence
  simp only
  split_ifs
  · exact .ok ((List.drop_suffix _ _).trans (skip_suffix s))
  · exact (readsFrom_items hitem _ _).of_suffix (skip_suffix s)

end

/-! ## Values -/

theorem readsFrom_read (type : Ty) : ∀ s, ReadsFrom overflow Prod.snd s (read type s) := by
  induction type with
  | optional inner ih =>
    intro s
    rw [read]
    simp only
    split_ifs
    · exact .ok ((List.drop_suffix _ _).trans (skip_suffix s))
    · exact .of_suffix ((ih _).map fun _ => rfl) (skip_suffix s)
  | address =>
    intro s
    rw [read]
    exact (readsFrom_word_bind _ address_ne_overflow).of_suffix (skip_suffix s)
  | simple type =>
    intro s
    rw [read]
    exact (readsFrom_simple type _).of_suffix (skip_suffix s)
  | array element ih =>
    intro s
    rw [read]
    exact (readsFrom_expect '[' s).andThen fun rest =>
      (readsFrom_sequence ih rest).andThen fun _ => .ok List.suffix_rfl
  | constant element size ih =>
    intro s
    rw [read]
    refine (readsFrom_expect '[' s).andThen fun rest =>
      (readsFrom_sequence ih rest).andThen fun found => ?_
    simp only [← bind_ok_eq_map]
    exact .bind (fun e he hwide => absurd (hwide ▸ he) (ofLength_ne_overflow size found.1))
      fun _ _ => .ok List.suffix_rfl
  | dictionary key value ihkey ihvalue =>
    intro s
    rw [read]
    refine (readsFrom_expect '\x7b' s).andThen fun rest =>
      (readsFrom_sequence (fun t => ?_) rest).andThen fun _ => .ok List.suffix_rfl
    exact (ihkey t).andThen fun found => (readsFrom_expect ':' found.2).andThen
      fun afterColon => (ihvalue afterColon).andThen fun _ => .ok List.suffix_rfl
  | nominal name => exact fun s => .error (overflow_on_of_ne (by simp))

/-- Only a text with an escape of more than 31 bits in it overflows. -/
theorem hasWideEscape_of_parse {text : Text} {type : Ty}
    (h : parse text type = .error .codePointOverflow) : HasWideEscape text := by
  unfold parse at h
  split at h
  · next e he =>
    exact (readsFrom_read type text).blamed e he (Except.error.inj h)
  · split at h
    · cases h
    · cases h

end ContractKit.Literal
