import ContractKit.Proofs.Literal

/-!
# The wire form gives the value back

The wire form of a well-formed value is decoded to the value (`Value.decode_encode`). A well-formed
value lacks a wire form only because of an integer inside it that is too long to be written
(`Value.hasLongInteger_of_encode`), and whatever is decoded has one. `Value.wire_round_trip` puts this
together for the values of literals and of wire forms.
-/

namespace ContractKit

/-- The types whose wire value is a string. -/
def WireType.IsText (type : WireType) : Prop :=
  type ∉ [void, optional, bool, array, dictionary, path]

instance (type : WireType) : Decidable type.IsText := by
  unfold WireType.IsText
  infer_instance

namespace Value

/-! ## Integers as text -/

theorem isIntegerText_ofInt (n : Int) : isIntegerText (Numeral.ofInt n) = true := by
  have hne := Numeral.ofNat_ne_nil 10 n.natAbs
  have hall : (Numeral.ofNat 10 n.natAbs).all CodePoint.isAsciiDigit = true :=
    List.all_eq_true.mpr Numeral.isAsciiDigit_of_mem_ofNat
  unfold Numeral.ofInt isIntegerText
  split_ifs
  · rw [Numeral.dropStart?_minus_cons]
    simp only [Option.getD_some, hall, hne, ne_eq, not_false_eq_true, decide_true, Bool.and_self]
  · rw [Numeral.dropStart?_minus_ofNat]
    simp only [Option.getD_none, hall, hne, ne_eq, not_false_eq_true, decide_true, Bool.and_self]

/-- The decimal numeral of an integer gives the integer back. -/
theorem readIntegerText_ofInt {n : Int} (h : Numeral.IsShort n) :
    readIntegerText (Numeral.ofInt n) = .ok n := by
  have hread : Numeral.readDecimal (Numeral.ofNat 10 n.natAbs) = .ok n.natAbs :=
    Numeral.readDecimal_ofNat h
  unfold Numeral.ofInt readIntegerText
  split_ifs with hneg
  · simp only [Numeral.dropStart?_minus_cons, hread, ok_bind, pure, Except.pure, Except.map]
    congr 1
    omega
  · simp only [Numeral.dropStart?_minus_ofNat, hread, ok_bind, pure, Except.pure, Except.map]
    congr 1
    omega

theorem decodeInteger_ofInt {kind : IntegerKind} {n : Int} (hshort : Numeral.IsShort n)
    (hrange : kind.InRange n) : decodeInteger kind (Numeral.ofInt n) = .ok (.integer kind n) := by
  rw [decodeInteger, if_pos (isIntegerText_ofInt n), readIntegerText_ofInt hshort]
  simp only [IntegerKind.check_of_inRange hrange]

/-! ## What encoding returns -/

theorem encodeItems_eq (values : List Value) : encodeItems values = values.mapM encode := by
  induction values with
  | nil => rfl
  | cons value rest ih =>
    rw [encodeItems, List.mapM_cons, ih]
    rfl

/-- The JSON value of a pair of a dictionary. -/
def EncodesPair (pair : Value × Value) (item : Json) : Prop :=
  ∃ key value, encode pair.1 = .ok key ∧ encode pair.2 = .ok value ∧
    item = .obj [("key", key), ("value", value)]

/-- What encodes a pair of a dictionary. -/
def encodePair (pair : Value × Value) : Except WireError Json := do
  let key ← encode pair.1
  let value ← encode pair.2
  .ok (.obj [("key", key), ("value", value)])

theorem encodePairs_eq (pairs : List (Value × Value)) :
    encodePairs pairs = pairs.mapM encodePair := by
  induction pairs with
  | nil => rfl
  | cons pair rest ih =>
    obtain ⟨left, right⟩ := pair
    simp only [encodePairs, encodePair, List.mapM_cons, ih, bind_assoc]
    rfl

theorem encodePair_eq_ok_iff {pair : Value × Value} {item : Json} :
    encodePair pair = .ok item ↔ EncodesPair pair item := by
  simp only [encodePair, EncodesPair, bind_eq_ok_iff, Except.ok.injEq]
  constructor
  · rintro ⟨key, hkey, value, hvalue, rfl⟩
    exact ⟨key, value, hkey, hvalue, rfl⟩
  · rintro ⟨key, value, hkey, hvalue, rfl⟩
    exact ⟨key, hkey, value, hvalue, rfl⟩

theorem encodePair_eq_error {pair : Value × Value} {e : WireError}
    (h : encodePair pair = .error e) : encode pair.1 = .error e ∨ encode pair.2 = .error e := by
  rcases bind_eq_error_iff.mp h with h | ⟨key, -, h⟩
  · exact .inl h
  rcases bind_eq_error_iff.mp h with h | ⟨value, -, h⟩
  · exact .inr h
  · cases h

theorem encodeItems_eq_ok_iff {values : List Value} {items : List Json} :
    encodeItems values = .ok items ↔
      List.Forall₂ (fun value item => encode value = .ok item) values items := by
  rw [encodeItems_eq, mapM_eq_ok_iff]

theorem encodePairs_eq_ok_iff {pairs : List (Value × Value)} {items : List Json} :
    encodePairs pairs = .ok items ↔ List.Forall₂ EncodesPair pairs items := by
  simp only [encodePairs_eq, mapM_eq_ok_iff, encodePair_eq_ok_iff]

theorem exists_error_of_encodeItems {values : List Value} {e : WireError}
    (h : encodeItems values = .error e) : ∃ value ∈ values, encode value = .error e :=
  exists_mem_of_mapM_eq_error (encodeItems_eq values ▸ h)

theorem exists_error_of_encodePairs {pairs : List (Value × Value)} {e : WireError}
    (h : encodePairs pairs = .error e) :
    ∃ pair ∈ pairs, encode pair.1 = .error e ∨ encode pair.2 = .error e := by
  rw [encodePairs_eq] at h
  obtain ⟨pair, hpair, h⟩ := exists_mem_of_mapM_eq_error h
  exact ⟨pair, hpair, encodePair_eq_error h⟩

/-! ## Round trip -/

theorem ofName?_name (type : WireType) : WireType.ofName? type.name = some type := by
  cases type with
  | integer kind => cases kind <;> rfl
  | fixed kind => cases kind <;> rfl
  | _ => rfl

theorem name_ne_nil (type : WireType) : type.name ≠ [] := by
  intro h
  have := ofName?_name type
  rw [h] at this
  cases this

/-- Only the type and the value of an object count. -/
theorem decode_of_members {type : WireType} (htype : type ≠ .void) {members : List (Text × Json)}
    {raw : Json} (hname : Entries.get? "type" members = some (.str type.name))
    (hraw : Entries.get? "value" members = some raw) :
    decode (.obj members) = decodeAs type raw := by
  have hvoid : type.name ≠ WireType.void.name := by
    intro h
    have := ofName?_name type
    rw [h, ofName?_name] at this
    exact htype (Option.some.inj this).symm
  unfold decode
  simp only [hname, if_neg (name_ne_nil type), if_neg hvoid]
  split
  · next h => cases h.symm.trans hraw
  · next found h =>
    obtain rfl := Option.some.inj (h.symm.trans hraw)
    rw [ofName?_name]

theorem decode_wireObject {type : WireType} (htype : type ≠ .void) (value : Json) :
    decode (wireObject type value) = decodeAs type value :=
  decode_of_members htype rfl rfl

theorem decodeAs_str {type : WireType} (htype : type.IsText) (text : Text) :
    decodeAs type (.str text) = decodeText type text := by
  cases type with
  | void | optional | bool | array | dictionary | path => exact absurd htype (by decide)
  | _ => rw [decodeAs] <;> simp

theorem decode_wireObject_str {type : WireType} (htype : type.IsText) (text : Text) :
    decode (wireObject type (.str text)) = decodeText type text := by
  have hvoid : type ≠ .void := by
    rintro rfl
    exact absurd htype (by decide)
  rw [decode_wireObject hvoid, decodeAs_str htype]

/-- The wire form of a well-formed value gives the value back. -/
theorem decode_encode {v : Value} (hv : v.WellFormed) :
    ∀ {data : Json}, encode v = .ok data → decode data = .ok v := by
  induction v using induction_on_parts with
  | h v ih =>
  intro data h
  have hself := hv.self
  have hparts : ∀ w ∈ v.parts, ∀ {data : Json}, encode w = .ok data → decode data = .ok w :=
    fun w hw => ih w hw (hv.of_mem_parts hw)
  cases v with
  | void =>
    obtain rfl := Except.ok.inj h
    unfold decode
    rfl
  | optional inner =>
    cases inner with
    | none =>
      obtain rfl := Except.ok.inj h
      rw [decode_wireObject (by decide), decodeAs]
    | some inner =>
      rw [encode] at h
      obtain ⟨item, hitem, h⟩ := bind_eq_ok_iff.mp h
      obtain rfl := Except.ok.inj h
      have hinner := hparts inner (by simp [parts]) hitem
      rw [decode_wireObject (by decide), decodeAs]
      · rw [hinner]
        rfl
      · rintro rfl
        unfold decode at hinner
        cases hinner
  | bool value =>
    obtain rfl := Except.ok.inj h
    rw [decode_wireObject (by decide), decodeAs]
  | string text =>
    obtain rfl := Except.ok.inj h
    rw [decode_wireObject_str (by decide), decodeText]
  | character text =>
    obtain rfl := Except.ok.inj h
    rw [decode_wireObject_str (by decide), decodeText]
    exact if_pos hself
  | address text =>
    obtain rfl := Except.ok.inj h
    obtain ⟨digits, rfl, hdigits⟩ := hself
    rw [decode_wireObject_str (by decide)]
    simp only [decodeText, Address.normalize_prefixed hdigits]
  | integer kind number =>
    rw [encode] at h
    split at h
    · next text htext =>
      obtain rfl := Except.ok.inj h
      obtain ⟨hshort, rfl⟩ := Numeral.isShort_of_print htext
      rw [decode_wireObject_str (by simp [WireType.IsText]), decodeText]
      exact decodeInteger_ofInt hshort hself
    · cases h
  | fixed kind raw =>
    simp only [encode, FixedPoint.print_of_inRange hself] at h
    obtain rfl := Except.ok.inj h
    rw [decode_wireObject_str (by simp [WireType.IsText])]
    simp only [decodeText, FixedPoint.read_write hself]
  | array values =>
    rw [encode] at h
    obtain ⟨items, hitems, h⟩ := bind_eq_ok_iff.mp h
    obtain rfl := Except.ok.inj h
    have hback : decodeItems items = .ok values := by
      rw [decodeItems_eq_ok_iff]
      exact flip_of_forall₂ (encodeItems_eq_ok_iff.mp hitems) fun w hw _ he => hparts w hw he
    rw [decode_wireObject (by decide), decodeAs, hback]
    rfl
  | dictionary pairs =>
    rw [encode] at h
    obtain ⟨items, hitems, h⟩ := bind_eq_ok_iff.mp h
    obtain rfl := Except.ok.inj h
    have hback : decodePairs items = .ok pairs := by
      rw [decodePairs_eq_ok_iff]
      refine flip_of_forall₂ (encodePairs_eq_ok_iff.mp hitems) ?_
      rintro pair hpair _ ⟨key, value, hkey, hvalue, rfl⟩
      have hleft : pair.1 ∈ (dictionary pairs).parts :=
        List.mem_append_left _ (List.mem_map_of_mem hpair)
      have hright : pair.2 ∈ (dictionary pairs).parts :=
        List.mem_append_right _ (List.mem_map_of_mem hpair)
      exact ⟨_, key, value, rfl, rfl, rfl, hparts _ hleft hkey, hparts _ hright hvalue⟩
    rw [decode_wireObject (by decide), decodeAs, hback]
    rfl
  | path domain identifier =>
    obtain rfl := Except.ok.inj h
    rw [decode_wireObject (by decide), decodeAs]
    exact if_pos hself
  | foreign type text => exact hself.elim

/-! ## Values without wire form -/

/-- A value holds an integer of a type without bounds that has more digits than a decimal numeral. -/
def HasLongInteger (v : Value) : Prop :=
  ∃ kind number, Inside (.integer kind number) v ∧ (kind = .int ∨ kind = .uint) ∧
    Numeral.decimalLimit < (Numeral.digits 10 number.natAbs).length

theorem HasLongInteger.of_mem_parts {v w : Value} (hw : w ∈ v.parts) (h : w.HasLongInteger) :
    v.HasLongInteger := by
  obtain ⟨kind, number, hinside, hlong⟩ := h
  exact ⟨kind, number, .part hw hinside, hlong⟩

/-- A well-formed value lacks a wire form because of an integer inside it. -/
theorem hasLongInteger_of_encode {v : Value} (hv : v.WellFormed) {e : WireError}
    (h : encode v = .error e) : e = .numeral .tooManyDigits ∧ v.HasLongInteger := by
  induction v using induction_on_parts with
  | h v ih =>
  have hpart : ∀ w ∈ v.parts, encode w = .error e →
      e = .numeral .tooManyDigits ∧ v.HasLongInteger := by
    intro w hw he
    obtain ⟨heq, hlong⟩ := ih w hw (hv.of_mem_parts hw) he
    exact ⟨heq, hlong.of_mem_parts hw⟩
  cases v with
  | optional inner =>
    cases inner with
    | none => cases h
    | some inner =>
      rw [encode] at h
      rcases bind_eq_error_iff.mp h with h | ⟨item, -, h⟩
      · exact hpart inner (by simp [parts]) h
      · cases h
  | integer kind number =>
    rw [encode] at h
    split at h
    · cases h
    · next e' he =>
      obtain rfl := Except.error.inj h
      obtain ⟨hlong, rfl⟩ := Numeral.eq_tooManyDigits_of_print he
      exact ⟨rfl, kind, number, .refl _, IntegerKind.isUnbounded_of_not_isShort hv.self hlong,
        Nat.lt_of_not_le hlong⟩
  | array values =>
    rw [encode] at h
    rcases bind_eq_error_iff.mp h with h | ⟨items, -, h⟩
    · obtain ⟨w, hw, he⟩ := exists_error_of_encodeItems h
      exact hpart w hw he
    · cases h
  | dictionary pairs =>
    rw [encode] at h
    rcases bind_eq_error_iff.mp h with h | ⟨items, -, h⟩
    · obtain ⟨pair, hpair, he | he⟩ := exists_error_of_encodePairs h
      · exact hpart pair.1 (List.mem_append_left _ (List.mem_map_of_mem hpair)) he
      · exact hpart pair.2 (List.mem_append_right _ (List.mem_map_of_mem hpair)) he
    · cases h
  | fixed kind raw =>
    simp only [encode, FixedPoint.print_of_inRange hv.self] at h
    cases h
  | foreign type text => exact hv.self.elim
  | void | bool _ | string _ | character _ | address _ | path _ _ => cases h

/-- A well-formed value without too long integers has a wire form. -/
theorem exists_encode_of_isWritable {v : Value} (hv : v.WellFormed) (h : Everywhere IsWritable v) :
    ∃ data, encode v = .ok data := by
  refine exists_ok_of_forall_ne fun e he => ?_
  obtain ⟨-, kind, number, hinside, -, hlong⟩ := hasLongInteger_of_encode hv he
  exact absurd (h _ hinside) (Nat.not_le_of_lt hlong)

/-! ## The values of literals and of wire forms -/

/-- The value of a literal or of a wire form is given back by its own wire form. It lacks a wire
form only for an integer that has too many digits, and never when it comes from a wire form. -/
theorem wire_round_trip {v : Value}
    (hv : (∃ text type, Literal.parse text type = .ok v) ∨ ∃ data, decode data = .ok v) :
    (∀ data, encode v = .ok data → decode data = .ok v) ∧
      (∀ e, encode v = .error e → e = .numeral .tooManyDigits ∧ v.HasLongInteger) ∧
      ((∃ data, decode data = .ok v) → ∃ data, encode v = .ok data) := by
  have hwf : v.WellFormed := by
    rcases hv with ⟨text, type, h⟩ | ⟨data, h⟩
    · exact Literal.wellFormed_of_parse h
    · exact wellFormed_of_decode h
  refine ⟨fun data h => decode_encode hwf h, fun e h => hasLongInteger_of_encode hwf h, ?_⟩
  rintro ⟨data, h⟩
  exact exists_encode_of_isWritable hwf (isWritable_of_decode h)

set_option maxRecDepth 4000 in
/-- The value of `[0x10, nil]` comes back from its wire form. -/
theorem wire_round_trip_array :
    Literal.parse "[0x10, nil]" (.array (.optional (.simple (.integer .int)))) =
        .ok (.array [.optional (some (.integer .int 16)), .optional none]) ∧
      ∃ data, encode (.array [.optional (some (.integer .int 16)), .optional none]) = .ok data ∧
        decode data = .ok (.array [.optional (some (.integer .int 16)), .optional none]) := by
  have hparse : Literal.parse "[0x10, nil]" (.array (.optional (.simple (.integer .int)))) =
      .ok (.array [.optional (some (.integer .int 16)), .optional none]) := by cbv
  obtain ⟨hback, -, -⟩ := wire_round_trip (Or.inl ⟨_, _, hparse⟩)
  obtain ⟨data, hdata⟩ := exists_ok_of_forall_ne (x := encode
    (.array [.optional (some (.integer .int 16)), .optional none])) fun e h => by cbv at h; cases h
  exact ⟨hparse, data, hdata, hback data hdata⟩

end Value

end ContractKit
