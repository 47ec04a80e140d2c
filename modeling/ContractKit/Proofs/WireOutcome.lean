import ContractKit.Proofs.Reading
import ContractKit.Proofs.WireText

/-!
# How reading values from JSON ends

Any JSON value at all is read as a well-formed value or refused, and the error is one of reading: it
lies in the value itself or in a part of it (`Value.of_decode_eq_error`), and errors of writing never
come up (`Value.isRefusal_of_decode`). `Value.decode_outcome` says this, and how the text of a list of
values is read: item by item, up to the first one that is refused and whose position is reported.

A text is refused before any item is looked at if it is no JSON, and also for a whole number with too
many digits (`Value.decodeList_of_not_isShort`). The reader of JSON finds nothing else to refuse
(`Json.parse_eq_error`): its readers of values, items and members leave an end of the text, or a long
run of digits in the text is to blame (`Json.readsFrom_read`).
-/

namespace ContractKit

namespace Json

/-! ## Texts that are no JSON -/

/-- More digits stand in a row than a whole number may have. -/
def HasLongRun (s : Text) : Prop :=
  ∃ digits, digits <:+: s ∧ (∀ c ∈ digits, c.isAsciiDigit = true) ∧
    Numeral.decimalLimit < digits.length

/-- A text that cannot be read breaks the grammar, or digits in it are too many. -/
def longRun : Blame CodePoint ReadError where
  On s e := e = .malformed ∨ e = .numeral .tooManyDigits ∧ HasLongRun s
  of_suffix := by
    rintro s t e (h | ⟨h, digits, hinfix, hdigits⟩) hst
    · exact .inl h
    · exact .inr ⟨h, digits, hinfix.trans hst.isInfix, hdigits⟩

theorem eq_malformed_of_readString {s : Text} {e : ReadError} (h : readString s = .error e) :
    e = .malformed := by
  fun_induction readString s with
  | case1 => exact (Except.error.inj h).symm
  | case2 => cases h
  | case3 => exact (Except.error.inj h).symm
  | case4 rest _ d after _ ih =>
    exact ih (map_eq_error_iff.mp h)
  | case5 => exact (Except.error.inj h).symm
  | case6 c rest _ _ _ ih => exact ih (map_eq_error_iff.mp h)

theorem readsFrom_readString (s : Text) : ReadsFrom longRun Prod.snd s (readString s) where
  suffix _ h := readString_suffix h
  blamed _ h := .inl (eq_malformed_of_readString h)

theorem hasLongRun_of_readWhole {s rest : Text} {whole : List Nat}
    (h : readWhole s = some (whole, rest)) (hlong : Numeral.decimalLimit < whole.length) :
    HasLongRun s := by
  unfold readWhole at h
  split at h
  · cases h
  · obtain ⟨rfl, -⟩ := Prod.mk.inj (Option.some.inj h)
    exact absurd hlong (by decide)
  · obtain ⟨rfl, -⟩ := Prod.mk.inj (Option.some.inj h)
    refine ⟨s.takeWhile CodePoint.isAsciiDigit, (List.takeWhile_prefix _).isInfix,
      fun c hc => List.mem_takeWhile_imp hc, ?_⟩
    rwa [List.length_map] at hlong

/-- Only whole numbers are refused for the length of their digits. -/
theorem readsFrom_readNumber (negative : Bool) (s : Text) :
    ReadsFrom longRun Prod.snd s (readNumber negative s) where
  suffix _ h := (isNormal_of_readNumber h).2
  blamed e h := by
    unfold readNumber at h
    split at h
    · exact .inl (Except.error.inj h).symm
    next whole _ hwhole =>
    split at h
    split at h
    split_ifs at h with _ hlong
    exact .inr ⟨(Except.error.inj h).symm, hasLongRun_of_readWhole hwhole hlong⟩

section

variable {fuel : Nat} (ihvalue : ∀ s, ReadsFrom longRun Prod.snd s (readValue fuel s))
  (ihitems : ∀ s, ReadsFrom longRun Prod.snd s (readItems fuel s))
  (ihmembers : ∀ s, ReadsFrom longRun Prod.snd s (readMembers fuel s))

include ihitems ihmembers in
theorem readsFrom_readValue_succ (s : Text) :
    ReadsFrom longRun Prod.snd s (readValue (fuel + 1) s) := by
  cases s with
  | nil => exact .error (.inl rfl)
  | cons c rest =>
    have hrest : rest <:+ c :: rest := List.suffix_cons c rest
    have hskip : skipBlanks rest <:+ c :: rest := (skipBlanks_suffix rest).trans hrest
    rw [readValue]
    split_ifs with hquote hbracket hbrace
    · exact .of_suffix ((readsFrom_readString rest).map fun _ => rfl) hrest
    · split
      · exact .error (.inl rfl)
      · next d after hafter =>
        rw [hafter] at hskip
        split_ifs
        · exact .ok ((List.suffix_cons d after).trans hskip)
        · exact .of_suffix ((ihitems _).map fun _ => rfl) hskip
    · split
      · exact .error (.inl rfl)
      · next d after hafter =>
        rw [hafter] at hskip
        split_ifs
        · exact .ok ((List.suffix_cons d after).trans hskip)
        · exact .of_suffix ((ihmembers _).map fun _ => rfl) hskip
    · split
      · next found hword => exact .ok (isNormal_of_readWord hword).2
      · exact (readsFrom_readNumber true rest).of_suffix hrest
    · split
      · next found hword => exact .ok (isNormal_of_readWord hword).2
      · exact readsFrom_readNumber false (c :: rest)

include ihvalue ihitems in
theorem readsFrom_readItems_succ (s : Text) :
    ReadsFrom longRun Prod.snd s (readItems (fuel + 1) s) := by
  rw [readItems]
  refine (ihvalue s).andThen fun found => .of_suffix ?_ (skipBlanks_suffix found.2)
  simp only
  split
  · exact .error (.inl rfl)
  · next d after hafter =>
    rw [hafter]
    have hnext : skipBlanks after <:+ d :: after :=
      (skipBlanks_suffix after).trans (List.suffix_cons d after)
    split_ifs
    · exact .ok (List.suffix_cons d after)
    · exact .of_suffix ((ihitems _).andThen fun _ => .ok List.suffix_rfl) hnext
    · exact .error (.inl rfl)

include ihvalue ihmembers in
theorem readsFrom_readMembers_succ (s : Text) :
    ReadsFrom longRun Prod.snd s (readMembers (fuel + 1) s) := by
  cases s with
  | nil => exact .error (.inl rfl)
  | cons c s =>
    rw [readMembers]
    split_ifs
    swap
    · exact .error (.inl rfl)
    refine .of_suffix ?_ (List.suffix_cons c s)
    refine (readsFrom_readString s).andThen fun found => .of_suffix ?_ (skipBlanks_suffix found.2)
    simp only
    split
    · exact .error (.inl rfl)
    next colon rest hcolon =>
    rw [hcolon]
    split_ifs
    swap
    · exact .error (.inl rfl)
    refine .of_suffix ?_ ((skipBlanks_suffix rest).trans (List.suffix_cons colon rest))
    refine (ihvalue _).andThen fun found => .of_suffix ?_ (skipBlanks_suffix found.2)
    split
    · exact .error (.inl rfl)
    next d after hafter =>
    rw [hafter]
    have hnext : skipBlanks after <:+ d :: after :=
      (skipBlanks_suffix after).trans (List.suffix_cons d after)
    split_ifs
    · exact .ok (List.suffix_cons d after)
    · exact .of_suffix ((ihmembers _).andThen fun _ => .ok List.suffix_rfl) hnext
    · exact .error (.inl rfl)

end

/-- Values, items and members leave an end of the text, or the text is to blame. -/
theorem readsFrom_read (fuel : Nat) :
    (∀ s, ReadsFrom longRun Prod.snd s (readValue fuel s)) ∧
    (∀ s, ReadsFrom longRun Prod.snd s (readItems fuel s)) ∧
    ∀ s, ReadsFrom longRun Prod.snd s (readMembers fuel s) := by
  induction fuel with
  | zero =>
    refine ⟨fun s => ?_, fun s => ?_, fun s => ?_⟩
    · rw [readValue]; exact .error (.inl rfl)
    · rw [readItems]; exact .error (.inl rfl)
    · rw [readMembers]; exact .error (.inl rfl)
  | succ fuel ih =>
    obtain ⟨ihvalue, ihitems, ihmembers⟩ := ih
    exact ⟨readsFrom_readValue_succ ihitems ihmembers, readsFrom_readItems_succ ihvalue ihitems,
      readsFrom_readMembers_succ ihvalue ihmembers⟩

/-- A text that holds no value breaks the grammar, or digits in it are too many. -/
theorem parse_eq_error {text : Text} {e : ReadError} (h : parse text = .error e) :
    e = .malformed ∨ e = .numeral .tooManyDigits ∧ HasLongRun text := by
  unfold parse at h
  split at h
  · next hread =>
    obtain rfl := Except.error.inj h
    exact longRun.of_suffix (((readsFrom_read _).1 _).blamed _ hread) (skipBlanks_suffix text)
  · split_ifs at h
    exact .inl (Except.error.inj h).symm

/-- Whole numbers of too many digits are refused. -/
theorem readNumber_of_not_isShort {n : Nat} (hlong : ¬ Numeral.IsShort n) (negative : Bool) {rest : Text}
    (h : Ends rest) :
    readNumber negative (Numeral.ofNat 10 n ++ rest) = .error (.numeral .tooManyDigits) := by
  rw [readNumber, readWhole_append h]
  simp only [readFraction_of_ends h, readExponent_of_ends h, List.isEmpty_nil, and_self, if_true]
  exact if_pos (Nat.not_le.mp hlong)

/-- A list that starts with such a number cannot be read. -/
theorem parse_of_not_isShort {n : Nat} (hlong : ¬ Numeral.IsShort n) {rest : Text} (h : Ends rest) :
    parse (('[' : CodePoint) :: (Numeral.ofNat 10 n ++ rest)) = .error (.numeral .tooManyDigits) := by
  have hread := readNumber_of_not_isShort hlong false h
  obtain ⟨c, t, hstart, hblank, hclose⟩ := (starts_ofNat n).append rest
  obtain ⟨d, t', hdigits, hd⟩ := Numeral.exists_cons_ofNat n
  rw [hdigits, List.cons_append] at hread hstart
  obtain ⟨rfl, rfl⟩ := List.cons.inj hstart
  have hopen : isBlank '[' = false := by decide
  rw [parse, skipBlanks_cons hopen, hdigits, List.cons_append, readValue, if_neg (by decide), if_pos rfl,
    skipBlanks_cons hblank]
  simp only [if_neg hclose]
  rw [show 2 * (('[' : CodePoint) :: d :: (t' ++ rest)).length + 1 =
    (2 * (t' ++ rest).length + 3) + 1 + 1 by simp only [List.length_cons]; omega, readItems, readValue_digit hd, hread]
  rfl

end Json

/-! ## Refused values -/

/-- The error is one of reading. That a number is too long is on its own an error of writing; as the
reason why a number cannot be read it stands inside another error. -/
def WireError.IsRefusal : WireError → Prop
  | .numeral _ => False
  | _ => True

namespace Value

theorem isRefusal_of_decodeText {type : WireType} {text : Text} {e : WireError}
    (h : decodeText type text = .error e) : e.IsRefusal := by
  cases type with
  | string => cases h
  | character =>
    rw [decodeText] at h
    split_ifs at h
    exact Except.error.inj h ▸ trivial
  | address =>
    rw [decodeText] at h
    split at h
    · cases h
    · exact Except.error.inj h ▸ trivial
  | integer kind =>
    rw [decodeText, decodeInteger] at h
    split_ifs at h
    · split at h
      · exact Except.error.inj h ▸ trivial
      · split at h
        · exact Except.error.inj h ▸ trivial
        · cases h
    · exact Except.error.inj h ▸ trivial
  | fixed kind =>
    rw [decodeText] at h
    split at h
    · cases h
    · exact Except.error.inj h ▸ trivial
  | void | optional | bool | array | dictionary | path => exact Except.error.inj h ▸ trivial

theorem isRefusal_of_decodePath {domain identifier : Option Json} {e : WireError}
    (h : decodePath domain identifier = .error e) : e.IsRefusal := by
  unfold decodePath at h
  split at h
  · split_ifs at h
    exact Except.error.inj h ▸ trivial
  · exact Except.error.inj h ▸ trivial

theorem of_decodePairs_eq_error {items : List Json} {e : WireError} (h : decodePairs items = .error e) :
    e = .badPair ∨ ∃ members name part, .obj members ∈ items ∧
      Entries.get? name members = some part ∧ decode part = .error e := by
  induction items with
  | nil =>
    rw [decodePairs] at h
    cases h
  | cons item rest ih =>
    unfold decodePairs at h
    split at h
    · cases h
    · next members others heq =>
      obtain ⟨rfl, rfl⟩ := List.cons.inj heq
      split at h
      · next key value hkey hvalue =>
        rcases bind_eq_error_iff.mp h with hleft | ⟨_, -, h⟩
        · exact .inr ⟨members, _, key, List.mem_cons_self, hkey, hleft⟩
        rcases bind_eq_error_iff.mp h with hright | ⟨_, -, h⟩
        · exact .inr ⟨members, _, value, List.mem_cons_self, hvalue, hright⟩
        rcases bind_eq_error_iff.mp h with hrest | ⟨_, -, h⟩
        · obtain hbad | ⟨found, name, part, hfound, hpart⟩ := ih hrest
          · exact .inl hbad
          · exact .inr ⟨found, name, part, List.mem_cons_of_mem _ hfound, hpart⟩
        · cases h
      · exact .inl (Except.error.inj h).symm
    · exact .inl (Except.error.inj h).symm

/-- What keeps a value of a known type from being read lies in itself or in a part of it. -/
theorem of_decodeAs_eq_error {type : WireType} {raw : Json} {e : WireError}
    (h : decodeAs type raw = .error e) :
    e.IsRefusal ∨ ∃ part, sizeOf part ≤ sizeOf raw ∧ decode part = .error e := by
  unfold decodeAs at h
  split at h
  · cases h
  · split at h
    · cases h
    · rcases bind_eq_error_iff.mp h with hinner | ⟨_, -, h⟩
      · exact .inr ⟨raw, le_rfl, hinner⟩
      · cases h
  · split at h
    · cases h
    · exact .inl (Except.error.inj h ▸ trivial)
  · split at h
    · next items =>
      rcases bind_eq_error_iff.mp h with hitems | ⟨_, -, h⟩
      · rw [decodeItems_eq] at hitems
        obtain ⟨item, hitem, herror⟩ := exists_mem_of_mapM_eq_error hitems
        have := List.sizeOf_lt_of_mem hitem
        exact .inr ⟨item, by simp only [Json.arr.sizeOf_spec]; omega, herror⟩
      · cases h
    · exact .inl (Except.error.inj h ▸ trivial)
  · split at h
    · next items =>
      rcases bind_eq_error_iff.mp h with hpairs | ⟨_, -, h⟩
      · obtain rfl | ⟨members, name, part, hmembers, hpart, herror⟩ := of_decodePairs_eq_error hpairs
        · exact .inl trivial
        have := List.sizeOf_lt_of_mem hmembers
        have := sizeOf_get? hpart
        refine .inr ⟨part, ?_, herror⟩
        simp only [Json.arr.sizeOf_spec, Json.obj.sizeOf_spec] at *
        omega
      · cases h
    · exact .inl (Except.error.inj h ▸ trivial)
  · split at h
    · exact .inl (isRefusal_of_decodePath h)
    · exact .inl (Except.error.inj h ▸ trivial)
  · split at h
    · exact .inl (isRefusal_of_decodeText h)
    · exact .inl (Except.error.inj h ▸ trivial)

/-- What keeps an object from being read lies in itself or in a smaller part of it. -/
theorem of_decode_eq_error {data : Json} {e : WireError} (h : decode data = .error e) :
    e.IsRefusal ∨ ∃ part, sizeOf part < sizeOf data ∧ decode part = .error e := by
  unfold decode at h
  split at h
  · next members =>
    split at h
    · split_ifs at h
      · exact .inl (Except.error.inj h ▸ trivial)
      split at h
      · exact .inl (Except.error.inj h ▸ trivial)
      next raw hraw =>
      split at h
      · exact .inl (Except.error.inj h ▸ trivial)
      · obtain hrefusal | ⟨part, hpart, herror⟩ := of_decodeAs_eq_error h
        · exact .inl hrefusal
        have := sizeOf_get? hraw
        exact .inr ⟨part, by simp only [Json.obj.sizeOf_spec]; omega, herror⟩
    · exact .inl (Except.error.inj h ▸ trivial)
  · exact .inl (Except.error.inj h ▸ trivial)

/-- What is no value is refused, however deep the part lies that keeps it from being read. -/
theorem isRefusal_of_decode {data : Json} {e : WireError} (h : decode data = .error e) :
    e.IsRefusal := by
  induction hsize : sizeOf data using Nat.strong_induction_on generalizing data with
  | h n ih =>
    subst hsize
    obtain hrefusal | ⟨part, hpart, herror⟩ := of_decode_eq_error h
    · exact hrefusal
    · exact ih _ hpart herror rfl

/-! ## Lists of values -/

/-- The first item that cannot be read decides about the list. -/
theorem of_decodeFrom_eq_error {items : List Json} : ∀ {position : Nat} {e : ArgumentsError},
    decodeFrom position items = .error e → ∃ before item after fault,
      items = before ++ item :: after ∧ (∀ other ∈ before, ∃ v, decode other = .ok v) ∧
      decode item = .error fault ∧ e = .item (position + before.length) fault := by
  induction items with
  | nil =>
    intro position e h
    cases h
  | cons item rest ih =>
    intro position e h
    rw [decodeFrom] at h
    split at h
    · next fault hfault =>
      exact ⟨[], item, rest, fault, rfl, List.forall_mem_nil _, hfault, (Except.error.inj h).symm⟩
    · next v hv =>
      obtain ⟨before, other, after, fault, rfl, hbefore, hfault, rfl⟩ := ih (map_eq_error_iff.mp h)
      refine ⟨item :: before, other, after, fault, rfl,
        List.forall_mem_cons.mpr ⟨⟨v, hv⟩, hbefore⟩, hfault, ?_⟩
      rw [List.length_cons, Nat.add_assoc, Nat.add_comm 1]

/-- A list is read as the values of its items in order if all of them are read. Otherwise the first item
that is refused is reported, with its position in front. -/
theorem decodeList_of_items {text : Text} {items : List Json}
    (h : Json.parse text = .ok (.arr items)) :
    (∃ values, decodeList text = .ok values ∧
      List.Forall₂ (fun item v => decode item = .ok v) items values) ∨
    ∃ before item after e, items = before ++ item :: after ∧
      (∀ other ∈ before, ∃ v, decode other = .ok v) ∧ decode item = .error e ∧
      decodeList text = .error (.item before.length e) ∧
      (ArgumentsError.item before.length e).message =
        .concat ["argument ", Numeral.ofNat 10 before.length, ": ", e.message] := by
  have hlist : decodeList text = decodeFrom 0 items := by rw [decodeList, h]
  rw [hlist]
  cases hitems : decodeFrom 0 items with
  | ok values => exact .inl ⟨values, rfl, decodeFrom_eq_ok_iff.mp hitems⟩
  | error e =>
    obtain ⟨before, item, after, fault, rfl, hbefore, hfault, rfl⟩ := of_decodeFrom_eq_error hitems
    rw [Nat.zero_add]
    exact .inr ⟨before, item, after, fault, rfl, hbefore, hfault, rfl, rfl⟩

/-- A JSON value is read as a well-formed value or refused. A text that holds a list is read item by
item, up to the first one that is refused. Other texts are refused as a whole: for holding something
else, for being no JSON, or for too many digits in a row, and only the last leaves a list unread. -/
theorem decode_outcome (data : Json) (text : Text) :
    ((∃ v, decode data = .ok v ∧ v.WellFormed) ∨ ∃ e, decode data = .error e ∧ e.IsRefusal) ∧
    ((∃ items, Json.parse text = .ok (.arr items) ∧
        ((∃ values, decodeList text = .ok values ∧
            List.Forall₂ (fun item v => decode item = .ok v) items values) ∨
          ∃ before item after e, items = before ++ item :: after ∧
            (∀ other ∈ before, ∃ v, decode other = .ok v) ∧ decode item = .error e ∧
            decodeList text = .error (.item before.length e) ∧
            (ArgumentsError.item before.length e).message =
              .concat ["argument ", Numeral.ofNat 10 before.length, ": ", e.message])) ∨
      (∃ other, Json.parse text = .ok other ∧ (∀ items, other ≠ .arr items) ∧
        decodeList text = .error .notList) ∨
      (Json.parse text = .error .malformed ∧ decodeList text = .error .notJson) ∨
      Json.HasLongRun text ∧ Json.parse text = .error (.numeral .tooManyDigits) ∧
        decodeList text = .error (.numeral .tooManyDigits)) := by
  constructor
  · cases h : decode data with
    | ok v => exact .inl ⟨v, rfl, wellFormed_of_decode h⟩
    | error e => exact .inr ⟨e, rfl, isRefusal_of_decode h⟩
  · cases hparse : Json.parse text with
    | error e =>
      rcases Json.parse_eq_error hparse with rfl | ⟨rfl, hlong⟩
      · exact .inr (.inr (.inl ⟨rfl, by rw [decodeList, hparse]⟩))
      · exact .inr (.inr (.inr ⟨hlong, rfl, by rw [decodeList, hparse]⟩))
    | ok found =>
      cases found with
      | arr items => exact .inl ⟨items, rfl, decodeList_of_items hparse⟩
      | _ => exact .inr (.inl ⟨_, rfl, nofun, by rw [decodeList, hparse]⟩)

/-- A list of one whole number is refused for its digits if these are too many. -/
theorem decodeList_of_not_isShort {n : Nat} (hlong : ¬ Numeral.IsShort n) :
    decodeList (Json.arr [.int n]).compact = .error (.numeral .tooManyDigits) := by
  have htext : (Json.arr [.int n]).compact =
      ('[' : CodePoint) :: (Numeral.ofNat 10 n ++ [(']' : CodePoint)]) := by
    have hnumber : Numeral.ofInt n = Numeral.ofNat 10 n := if_neg (by omega)
    simp only [Json.compact, Json.compactItems, Json.scalarText, hnumber]
    rfl
  rw [decodeList, htext, Json.parse_of_not_isShort hlong (Json.ends_cons [] (by decide))]

/-- A list of one whole number with 4301 digits is not refused for its first item, which is no object. -/
theorem decodeList_long_number :
    let text := (Json.arr [.int (10 ^ Numeral.decimalLimit : Nat)]).compact
    (∀ values, decodeList text ≠ .ok values) ∧
      ∀ position e, decodeList text ≠ .error (.item position e) := by
  intro text
  rw [show decodeList text = _ from
    decodeList_of_not_isShort (Numeral.not_isShort_of_le le_rfl)]
  exact ⟨nofun, nofun⟩

end Value

end ContractKit
