import ContractKit.Proofs.Accounts
import ContractKit.Proofs.OptionalArgument
import ContractKit.Proofs.Wire

/-!
# Addresses on every path

An address is the number that one to sixteen hexadecimal digits of either case denote, and it is kept
as sixteen digits in lower case (`Address.fill`). A word for an address parameter, a value on the wire
and an account differ in what may stand around the digits: `Argument.IsAddressWord` says which words
denote an address, `Address.Holds` which texts. `Argument.address_agreement` says that all of them keep
the same digits of a word, and that texts are kept alike exactly when they denote the same number.
-/

namespace ContractKit

namespace Address

/-! ## Numbers -/

/-- The number that the digits denote. -/
def number (digits : Text) : Nat :=
  Numeral.value 16 (digits.filterMap Numeral.hexValue?)

/-- The text is an address, and the number is the one its digits denote. -/
def Denotes (text : Text) (n : Nat) : Prop :=
  ∃ digits, IsDigits digits ∧ Holds text digits ∧ number digits = n

theorem number_fill {digits : Text} (h : IsDigits digits) : number (fill digits) = number digits := by
  rw [number, number, ← (lower_digits h.2.2).2.2, fill, Text.padLeft, List.filterMap_append,
    List.filterMap_replicate_of_some (show Numeral.hexValue? '0' = some 0 by decide),
    Numeral.value_replicate_zero_append]

/-- The digits of a number are the characters of numbers under sixteen. -/
theorem exists_map_digitChar {digits : Text} (h : ∀ c ∈ digits, isDigit c = true) :
    ∃ ds : List Nat, (∀ d ∈ ds, d < 16) ∧ digits = ds.map Numeral.digitChar := by
  induction digits with
  | nil => exact ⟨[], nofun, rfl⟩
  | cons c digits ih =>
    obtain ⟨ds, hds, rfl⟩ := ih fun d hd => h d (List.mem_cons_of_mem c hd)
    obtain ⟨d, hd, rfl⟩ := CodePoint.of_isAddressDigit (P := fun c => ∃ d < 16, c = Numeral.digitChar d)
      (by decide) (by decide) (h c List.mem_cons_self)
    exact ⟨d :: ds, List.forall_mem_cons.mpr ⟨hd, hds⟩, rfl⟩

/-- Sixteen digits are determined by the number they denote. -/
theorem eq_of_number_eq {digits others : Text} (hdigits : IsCanonical digits)
    (hothers : IsCanonical others) (h : number digits = number others) : digits = others := by
  obtain ⟨ds, hds, rfl⟩ := exists_map_digitChar hdigits.2
  obtain ⟨es, hes, rfl⟩ := exists_map_digitChar hothers.2
  have hlength : ds.length = es.length := by
    simpa using hdigits.1.trans hothers.1.symm
  rw [number, number, Literal.filterMap_digitChar hds, Literal.filterMap_digitChar hes,
    Numeral.value_eq_ofDigits, Numeral.value_eq_ofDigits] at h
  have hreverse : ds.reverse = es.reverse := Nat.ofDigits_inj_of_len_eq (by omega) (by simpa using hlength)
    (fun d hd => hds d (List.mem_reverse.mp hd)) (fun d hd => hes d (List.mem_reverse.mp hd)) h
  rw [List.reverse_inj.mp hreverse]

/-- The digits that are kept of a text denote the number that the text denotes. -/
theorem normalize_of_denotes {text : Text} {n : Nat} (h : Denotes text n) :
    ∃ found, normalize text = .ok found ∧ number found = n := by
  obtain ⟨digits, hdigits, hholds, rfl⟩ := h
  exact ⟨fill digits, normalize_eq_ok_iff.mpr ⟨digits, hdigits, hholds, rfl⟩, number_fill hdigits⟩

theorem exists_normalize_iff {text : Text} :
    (∃ found, normalize text = .ok found) ↔ ∃ n, Denotes text n := by
  constructor
  · rintro ⟨found, h⟩
    obtain ⟨digits, hdigits, hholds, -⟩ := normalize_eq_ok_iff.mp h
    exact ⟨number digits, digits, hdigits, hholds, rfl⟩
  · rintro ⟨n, h⟩
    obtain ⟨found, hfound, -⟩ := normalize_of_denotes h
    exact ⟨found, hfound⟩

/-- Two addresses are kept alike exactly when they denote the same number. -/
theorem normalize_eq_iff {text other : Text} {m n : Nat} (htext : Denotes text m)
    (hother : Denotes other n) : normalize text = normalize other ↔ m = n := by
  obtain ⟨found, hfound, rfl⟩ := normalize_of_denotes htext
  obtain ⟨kept, hkept, rfl⟩ := normalize_of_denotes hother
  rw [hfound, hkept, Except.ok.injEq]
  exact ⟨congrArg number,
    eq_of_number_eq (isCanonical_of_normalize hfound) (isCanonical_of_normalize hkept)⟩

/-- What is kept is kept as it is. -/
theorem normalize_normalize (text : Text) : normalize text >>= normalize = normalize text := by
  cases h : normalize text with
  | ok found => exact normalize_of_isCanonical (isCanonical_of_normalize h)
  | error e => rfl

end Address

/-! ## Words for address parameters -/

namespace Literal

/-- A text is trimmed to something that ends in digits if only blanks stand around it. -/
theorem trim_eq_append_iff {text start digits : Text} (hdigits : Address.IsDigits digits) :
    text.trim = start ++ digits ↔
      ∃ blanks, skip text = start ++ digits ++ blanks ∧ ∀ c ∈ blanks, c.isBlank = true := by
  refine Text.trim_eq_iff fun c hc => ?_
  rw [List.getLast?_append_of_ne_nil _ hdigits.1] at hc
  exact CodePoint.isBlank_of_isHexDigit (hdigits.2.2 c (List.mem_of_mem_getLast? hc))

/-- The literals of addresses: `0x`, one to sixteen digits, and blanks around them. -/
theorem parse_address_eq_ok_iff {text : Text} {v : Value} : parse text .address = .ok v ↔
    ∃ digits, Address.IsDigits digits ∧ text.trim = "0x" ++ digits ∧
      v = .address (.concat ["0x", Address.fill digits]) := by
  rw [parse_eq_ok_iff]
  constructor
  · rintro ⟨rest, hread, hrest⟩
    obtain ⟨found, hskip, -, hvalue⟩ := exists_of_word_bind hread
    obtain ⟨digits, rfl, hne, hhex⟩ := exists_digits_of_address hvalue
    obtain ⟨hdigits, rfl⟩ := (address_prefixed hne hhex).mp hvalue
    exact ⟨digits, hdigits,
      (trim_eq_append_iff hdigits).mpr ⟨rest, hskip, skip_eq_nil_iff.mp hrest⟩, rfl⟩
  · rintro ⟨digits, hdigits, htrim, rfl⟩
    obtain ⟨blanks, hskip, hblanks⟩ := (trim_eq_append_iff hdigits).mp htrim
    refine ⟨blanks, ?_, skip_eq_nil_iff.mpr hblanks⟩
    have hfound := word_prefixed hdigits.2.2 (ends_of_forall_isBlank hblanks).endsWord
    simp only [read, hskip, hfound, ok_bind,
      (address_prefixed hdigits.1 hdigits.2.2).mpr ⟨hdigits, rfl⟩]

end Literal

namespace Argument

/-- The word consists of the digits and blanks behind them, or of `0x` and the digits with blanks on
both sides. -/
def IsAddressWord (raw digits : Text) : Prop :=
  Address.IsDigits digits ∧
    ((∃ blanks, raw = digits ++ blanks ∧ ∀ c ∈ blanks, c.isBlank = true) ∨
      raw.trim = "0x" ++ digits)

/-- A word of digits alone has no `0x` in it, so that one is put in front. -/
theorem not_contains_of_digits {digits blanks : Text} (hdigits : Address.IsDigits digits)
    (hblanks : ∀ c ∈ blanks, c.isBlank = true) : ¬ Text.contains (digits ++ blanks) "0x" = true := by
  rw [Text.contains_iff]
  intro hinfix
  have hx : ('x' : CodePoint) ∈ digits ++ blanks := hinfix.subset (by decide)
  rcases List.mem_append.mp hx with hx | hx
  · exact absurd (hdigits.2.2 _ hx) (by decide)
  · exact absurd (hblanks _ hx) (by decide)

theorem parse_prepare_address_iff {raw : Text} {v : Value} :
    Literal.parse (prepare raw .address) .address = .ok v ↔
      ∃ digits, IsAddressWord raw digits ∧ v = .address (.concat ["0x", Address.fill digits]) := by
  have hprepare : prepare raw .address =
      if Text.contains raw "0x" then raw else "0x" ++ raw := by
    simp [prepare, Ty.isTextual, Text.concat]
  rw [hprepare, Literal.parse_address_eq_ok_iff]
  refine exists_congr fun digits => ?_
  rw [IsAddressWord, and_assoc]
  refine and_congr_right fun hdigits => and_congr_left fun _ => ?_
  split_ifs with hcontains
  · refine ⟨.inr, ?_⟩
    rintro (⟨blanks, rfl, hblanks⟩ | htrim)
    · exact absurd hcontains (not_contains_of_digits hdigits hblanks)
    · exact htrim
  · rw [Literal.trim_eq_append_iff hdigits]
    have hskip : Literal.skip ("0x" ++ raw) = "0x" ++ raw := Literal.skip_cons (by decide) _
    simp only [hskip, List.append_assoc, List.append_cancel_left_eq]
    refine ⟨.inl, ?_⟩
    rintro (hword | htrim)
    · exact hword
    · exact absurd (Text.contains_iff.mpr ((htrim ▸ List.prefix_append _ _).isInfix.trans
        (Text.trim_infix raw))) hcontains

theorem holds_of_isAddressWord {raw digits : Text} (h : IsAddressWord raw digits) :
    Address.Holds raw digits := by
  obtain ⟨hdigits, ⟨blanks, rfl, hblanks⟩ | htrim⟩ := h
  · refine ⟨[], by decide, (Literal.trim_eq_append_iff hdigits).mpr ⟨blanks, ?_, hblanks⟩⟩
    obtain ⟨c, digits, rfl⟩ := List.exists_cons_of_ne_nil hdigits.1
    exact Literal.skip_cons (CodePoint.isBlank_of_isHexDigit (hdigits.2.2 c List.mem_cons_self)) _
  · exact ⟨"0x", by decide, htrim⟩

theorem normalize_of_isAddressWord {raw digits : Text} (h : IsAddressWord raw digits) :
    Address.normalize raw = .ok (Address.fill digits) :=
  Address.normalize_eq_ok_iff.mpr ⟨digits, h.1, holds_of_isAddressWord h, rfl⟩

/-- The first reading decides about a word for an address parameter. -/
theorem coerce_of_address {parameter : Parameter} (htype : parameter.type = .address) {raw : Text}
    {v : Value} :
    coerce parameter raw = .ok v ↔ Literal.parse (prepare raw .address) .address = .ok v := by
  unfold coerce
  simp only [htype, show Ty.leaf .address = .address from rfl, if_true]
  split
  · next hfirst => simp [hfirst]
  · next hfirst => simp [hfirst]
  · next hfirst => simp [hfirst]

end Argument

/-! ## Addresses on the wire and in accounts -/

theorem Value.decode_address {raw digits : Text} (h : Address.normalize raw = .ok digits)
    {members : List (Text × Json)} (hname : Entries.get? "type" members = some (.str "Address"))
    (hraw : Entries.get? "value" members = some (.str raw)) :
    decode (.obj members) = .ok (.address (.concat ["0x", digits])) := by
  have htype : WireType.address ≠ .void := by decide
  rw [decode_of_members htype hname hraw, decodeAs_str (by decide), decodeText, h]

namespace Accounts

theorem readAddress_of_normalize (settings : Settings) (name : Text) {raw digits : Text}
    (hservice : raw ≠ "service") (h : Address.normalize raw = .ok digits) :
    readAddress settings name (.str raw) = .ok digits := by
  have hne : raw ≠ [] := by
    rintro rfl
    cases (show Address.normalize [] = .error (.address []) from rfl).symm.trans h
  simp only [readAddress, Format.text_str hne, ok_bind, if_neg hservice, h]

/-- An account has the digits of its address text. -/
theorem read_of_address {settings : Settings} {digits : Text} {raw key : Json} (name : Text)
    (h : readAddress settings name raw = .ok digits) {members : List (Text × Json)}
    (hraw : Entries.get? "address" members = some raw) (hkey : Entries.get? "key" members = some key) :
    read settings name (.obj members) =
      (readKey settings name key).map (⟨name, digits, ·⟩) := by
  have hfield : Format.field "address" members = raw := by
    rw [Format.field, hraw]
    rfl
  simp only [read, Format.members, ok_bind, hkey, hfield, h, bind_ok_eq_map]

end Accounts

namespace Argument

/-- A word for an address parameter is one of digits with blanks behind them, or of `0x` and digits
with blanks on both sides, and gives the digits as they are kept. A value on the wire and an account
keep the same digits of the word. Keeping them again changes nothing, and texts whose digits are kept
alike are those that denote the same number. -/
theorem address_agreement {parameter : Parameter} (htype : parameter.type = .address) (raw : Text) :
    (∀ v, coerce parameter raw = .ok v ↔
      ∃ digits, IsAddressWord raw digits ∧ v = .address (.concat ["0x", Address.fill digits])) ∧
    (∀ digits, IsAddressWord raw digits →
      (∀ members, Entries.get? "type" members = some (.str "Address") →
        Entries.get? "value" members = some (.str raw) →
        Value.decode (.obj members) = .ok (.address (.concat ["0x", Address.fill digits]))) ∧
      ∀ settings name,
        Accounts.readAddress settings name (.str raw) = .ok (Address.fill digits) ∧
        ∀ members key, Entries.get? "address" members = some (.str raw) →
          Entries.get? "key" members = some key →
          Accounts.read settings name (.obj members) =
            (Accounts.readKey settings name key).map (⟨name, Address.fill digits, ·⟩)) ∧
    Address.normalize raw >>= Address.normalize = Address.normalize raw ∧
    ((∃ digits, Address.normalize raw = .ok digits) ↔ ∃ n, Address.Denotes raw n) ∧
    ∀ other m n, Address.Denotes raw m → Address.Denotes other n →
      (Address.normalize raw = Address.normalize other ↔ m = n) := by
  refine ⟨fun v => (coerce_of_address htype).trans parse_prepare_address_iff, fun digits hword => ?_,
    Address.normalize_normalize raw, Address.exists_normalize_iff,
    fun other m n => Address.normalize_eq_iff⟩
  have hnormal := normalize_of_isAddressWord hword
  have hservice : raw ≠ "service" := by
    rintro rfl
    have hrefused : Address.normalize "service" = .error (.address "service") := by decide +kernel
    cases hrefused.symm.trans hnormal
  refine ⟨fun members => Value.decode_address hnormal, fun settings name => ?_⟩
  have haddress := Accounts.readAddress_of_normalize settings name hservice hnormal
  exact ⟨haddress, fun members key => Accounts.read_of_address name haddress⟩

/-- Three digits with a line break behind them are kept on all paths as `0X01AF` is. -/
theorem address_agreement_short_word :
    let parameter : Parameter := ⟨[], "to", .address, "Address"⟩
    let word : Text := "1aF\n"
    let value : Value := .address "0x00000000000001af"
    IsAddressWord word "1aF" ∧ coerce parameter word = .ok value ∧
      Value.decode (Value.wireObject .address (.str word)) = .ok value ∧
      Accounts.readAddress .standard "bank" (.str word) = .ok "00000000000001af" ∧
      Accounts.read .standard "bank" (.obj [("address", .str word), ("key", .str "0x1")]) =
        (Accounts.readKey .standard "bank" (.str "0x1")).map (⟨"bank", "00000000000001af", ·⟩) ∧
      Address.Denotes word 431 ∧ Address.Denotes " 0X01AF" 431 ∧
      Address.normalize word = Address.normalize " 0X01AF" := by
  intro parameter word value
  have hfill : Address.fill "1aF" = "00000000000001af" := by decide +kernel
  have hword : IsAddressWord word "1aF" :=
    ⟨by decide, .inl ⟨"\n", by decide, by decide⟩⟩
  have hdenotes : Address.Denotes word 431 :=
    ⟨"1aF", hword.1, holds_of_isAddressWord hword, by decide +kernel⟩
  have hother : Address.Denotes " 0X01AF" 431 :=
    ⟨"01AF", by decide, ⟨"0X", by decide, by decide +kernel⟩, by decide +kernel⟩
  have htype : parameter.type = .address := rfl
  obtain ⟨hcoerce, hpaths, -, -, hnumber⟩ := address_agreement htype word
  obtain ⟨hwire, haccount⟩ := hpaths "1aF" hword
  obtain ⟨haddress, hread⟩ := haccount .standard "bank"
  rw [hfill] at haddress
  refine ⟨hword, (hcoerce value).mpr ⟨"1aF", hword, ?_⟩, ?_, haddress, ?_, hdenotes, hother,
    (hnumber _ _ _ hdenotes hother).mpr rfl⟩
  · rw [hfill]
    rfl
  · rw [Value.wireObject, hwire _ rfl rfl, hfill]
    rfl
  · rw [hread _ _ rfl rfl, hfill]

end Argument

end ContractKit
