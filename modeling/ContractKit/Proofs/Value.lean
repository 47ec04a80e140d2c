import ContractKit.Literal.Reader
import ContractKit.Proofs.Result
import ContractKit.Proofs.Scalar
import ContractKit.Value.Wire

/-!
# Well-formed values

A value is well-formed (`Value.WellFormed`) when every value inside it is sound: its numbers lie in the
range of their type, addresses are canonical, a character is a single one, a path has a known domain
and a name, and nothing stands for a type without wire form. Both readers return well-formed values:
`Value.wellFormed_of_decode` for the wire form and `Literal.wellFormed_of_parse` for literals. A decoded
value also holds no number that is too long to be written (`Value.isWritable_of_decode`).
-/

namespace ContractKit

namespace Value

/-! ## Values inside a value -/

/-- The values that a value is made of. -/
def parts : Value → List Value
  | optional (some inner) => [inner]
  | array items => items
  | dictionary pairs => pairs.map (·.1) ++ pairs.map (·.2)
  | _ => []

theorem forall_mem_parts_dictionary {pairs : List (Value × Value)} {P : Value → Prop} :
    (∀ w ∈ (dictionary pairs).parts, P w) ↔ ∀ p ∈ pairs, P p.1 ∧ P p.2 := by
  simp only [parts, List.forall_mem_append, List.forall_mem_map, ← forall₂_and]

/-- `Inside u v` : the value `u` is `v` or stands somewhere in it. -/
inductive Inside : Value → Value → Prop where
  | refl (v : Value) : Inside v v
  | part {u w v : Value} (hw : w ∈ v.parts) (hu : Inside u w) : Inside u v

/-- What is true of a value and of all values inside it. -/
def Everywhere (P : Value → Prop) (v : Value) : Prop :=
  ∀ u, Inside u v → P u

theorem Everywhere.self {P : Value → Prop} {v : Value} (h : Everywhere P v) : P v :=
  h v (.refl v)

theorem Everywhere.of_mem_parts {P : Value → Prop} {v w : Value} (h : Everywhere P v)
    (hw : w ∈ v.parts) : Everywhere P w :=
  fun u hu => h u (.part hw hu)

theorem everywhere_iff {P : Value → Prop} {v : Value} :
    Everywhere P v ↔ P v ∧ ∀ w ∈ v.parts, Everywhere P w := by
  refine ⟨fun h => ⟨h.self, fun w => h.of_mem_parts⟩, fun ⟨hself, hparts⟩ u hu => ?_⟩
  cases hu with
  | refl => exact hself
  | part hw hu => exact hparts _ hw u hu

/-- A property that passes from a value to its parts gives everywhere what it gives of one value. -/
theorem everywhere_of_step {P Q : Value → Prop} (hP : ∀ v, Q v → P v)
    (hQ : ∀ v, Q v → ∀ w ∈ v.parts, Q w) {v : Value} (hv : Q v) : Everywhere P v := by
  intro u hu
  induction hu with
  | refl => exact hP _ hv
  | part hw _ ih => exact ih (hQ _ hv _ hw)

theorem sizeOf_lt_of_mem_parts {v w : Value} (hw : w ∈ v.parts) : sizeOf w < sizeOf v := by
  unfold parts at hw
  split at hw
  · rw [List.mem_singleton.mp hw]
    simp only [optional.sizeOf_spec, Option.some.sizeOf_spec]
    omega
  · have := List.sizeOf_lt_of_mem hw
    simp only [array.sizeOf_spec]
    omega
  · next pairs =>
    have hpair : ∃ p ∈ pairs, w = p.1 ∨ w = p.2 := by
      rcases List.mem_append.mp hw with hw | hw
      · obtain ⟨p, hp, rfl⟩ := List.mem_map.mp hw
        exact ⟨p, hp, Or.inl rfl⟩
      · obtain ⟨p, hp, rfl⟩ := List.mem_map.mp hw
        exact ⟨p, hp, Or.inr rfl⟩
    obtain ⟨⟨left, right⟩, hp, hw⟩ := hpair
    have := List.sizeOf_lt_of_mem hp
    simp only [Prod.mk.sizeOf_spec] at this
    simp only [dictionary.sizeOf_spec]
    rcases hw with rfl | rfl <;> omega
  · simp at hw

/-- Induction on the parts of a value. -/
theorem induction_on_parts {P : Value → Prop} (h : ∀ v, (∀ w ∈ v.parts, P w) → P v) (v : Value) :
    P v :=
  h v fun w _hw => induction_on_parts h w
termination_by v
decreasing_by exact sizeOf_lt_of_mem_parts _hw

/-! ## Sound values -/

/-- Whether a value itself has the form of its type, whatever its parts are. -/
def IsSound : Value → Prop
  | character text => text.length = 1
  | address text => ∃ digits, text = .concat ["0x", digits] ∧ Address.IsCanonical digits
  | integer kind number => kind.InRange number
  | fixed kind raw => kind.InRange raw
  | path domain identifier => domain ∈ pathDomains ∧ identifier ≠ []
  | foreign _ _ => False
  | _ => True

/-- The texts that a value holds as they are given to it. -/
def texts : Value → List Text
  | string text => [text]
  | character text => [text]
  | path _ identifier => [identifier]
  | _ => []

/-- A value that is sound at every depth. -/
def WellFormed (v : Value) : Prop :=
  Everywhere IsSound v

/-- A value that is no integer with too many digits. -/
def IsWritable : Value → Prop
  | integer _ number => Numeral.IsShort number
  | _ => True

/-! ## What decoding returns -/

theorem decodeItems_eq (items : List Json) : decodeItems items = items.mapM decode := by
  induction items with
  | nil =>
    rw [decodeItems, List.mapM_nil]
    rfl
  | cons item rest ih =>
    rw [decodeItems, List.mapM_cons, ih]
    rfl

theorem decodeItems_eq_ok_iff {items : List Json} {values : List Value} :
    decodeItems items = .ok values ↔
      List.Forall₂ (fun item value => decode item = .ok value) items values := by
  rw [decodeItems_eq, mapM_eq_ok_iff]

/-- A JSON value that denotes a pair of a dictionary. -/
def DecodesPair (item : Json) (pair : Value × Value) : Prop :=
  ∃ members key value, item = .obj members ∧ Entries.get? "key" members = some key ∧
    Entries.get? "value" members = some value ∧ decode key = .ok pair.1 ∧ decode value = .ok pair.2

theorem decodePairs_eq_ok_iff {items : List Json} {pairs : List (Value × Value)} :
    decodePairs items = .ok pairs ↔ List.Forall₂ DecodesPair items pairs := by
  induction items generalizing pairs with
  | nil =>
    rw [decodePairs, List.forall₂_nil_left_iff, Except.ok.injEq]
    exact eq_comm
  | cons item rest ih =>
    rw [List.forall₂_cons_left_iff]
    constructor
    · intro h
      unfold decodePairs at h
      split at h
      · next heq => cases heq
      · next members rest' heq =>
        obtain ⟨rfl, rfl⟩ := List.cons.inj heq
        split at h
        · next key value hk hv =>
          obtain ⟨left, hleft, h⟩ := bind_eq_ok_iff.mp h
          obtain ⟨right, hright, h⟩ := bind_eq_ok_iff.mp h
          obtain ⟨others, hothers, h⟩ := bind_eq_ok_iff.mp h
          exact ⟨(left, right), others, ⟨members, key, value, rfl, hk, hv, hleft, hright⟩,
            ih.mp hothers, (Except.ok.inj h).symm⟩
        · cases h
      · cases h
    · rintro ⟨⟨left, right⟩, others, ⟨members, key, value, rfl, hk, hv, hleft, hright⟩, hothers, rfl⟩
      unfold decodePairs
      split
      · next key' value' hk' hv' =>
        obtain rfl := Option.some.inj (hk.symm.trans hk')
        obtain rfl := Option.some.inj (hv.symm.trans hv')
        rw [hleft, hright, ih.mpr hothers]
        rfl
      · next hno => exact absurd hv (hno key value hk)

/-- What decodes names a type and, unless it is the empty one, has a value of that type. -/
theorem decode_eq_ok {data : Json} {v : Value} (h : decode data = .ok v) :
    v = .void ∨ ∃ members known raw, data = .obj members ∧
      Entries.get? "value" members = some raw ∧ decodeAs known raw = .ok v := by
  unfold decode at h
  split at h
  · next members =>
    split at h
    · split_ifs at h with hempty hvoid
      · exact Or.inl (Except.ok.inj h).symm
      split at h
      · cases h
      · next raw hraw =>
        split at h
        · cases h
        · next known _ => exact Or.inr ⟨members, known, raw, rfl, hraw, h⟩
    · cases h
  · cases h

/-- A property of JSON values that passes to items and members. -/
structure Hereditary (N : Json → Prop) : Prop where
  item : ∀ {items : List Json}, N (.arr items) → ∀ item ∈ items, N item
  member : ∀ {members : List (Text × Json)}, N (.obj members) →
    ∀ {name : Text} {item : Json}, Entries.get? name members = some item → N item

/-- The value `v` is the value of some wire form that satisfies `N`. -/
def IsDecodedFrom (N : Json → Prop) (v : Value) : Prop :=
  ∃ data, N data ∧ decode data = .ok v

/-- The value `v` is the value of some wire form. -/
def IsDecoded (v : Value) : Prop :=
  ∃ data, decode data = .ok v

theorem isShort_of_readIntegerText {text : Text} {n : Int} (h : readIntegerText text = .ok n) :
    Numeral.IsShort n := by
  have hread : ∀ {digits : Text} {k : Int},
      (do let a ← Numeral.readDecimal digits; pure (a : Int)) = .ok k → Numeral.IsShort k := by
    intro digits k hk
    obtain ⟨a, ha, hk⟩ := bind_eq_ok_iff.mp hk
    obtain rfl := Except.ok.inj hk
    exact Numeral.isShort_of_readDecimal ha
  unfold readIntegerText at h
  split at h
  · obtain ⟨k, hk, rfl⟩ := map_eq_ok_iff.mp h
    exact Numeral.isShort_neg (hread hk)
  · obtain ⟨k, hk, rfl⟩ := map_eq_ok_iff.mp h
    exact hread hk

/-- What a value of a scalar type satisfies on its own. -/
def IsScalar (N : Json → Prop) (v : Value) : Prop :=
  v.IsSound ∧ v.IsWritable ∧ (∀ t ∈ v.texts, N (.str t)) ∧ v.parts = []

theorem isScalar_of_decodeInteger {N : Json → Prop} {kind : IntegerKind} {text : Text} {v : Value}
    (h : decodeInteger kind text = .ok v) : v.IsScalar N := by
  unfold decodeInteger at h
  split_ifs at h
  split at h
  · cases h
  · next number hnumber =>
    split at h
    · cases h
    · next hcheck =>
      obtain ⟨rfl, hrange⟩ := IntegerKind.inRange_of_check hcheck
      obtain rfl := Except.ok.inj h
      exact ⟨hrange, isShort_of_readIntegerText hnumber, by simp [texts], rfl⟩

theorem isScalar_of_decodeText {N : Json → Prop} {type : WireType} {text : Text} {v : Value}
    (htext : N (.str text)) (h : decodeText type text = .ok v) : v.IsScalar N := by
  unfold decodeText at h
  split at h
  · obtain rfl := Except.ok.inj h
    exact ⟨trivial, trivial, by simpa [texts] using htext, rfl⟩
  · split_ifs at h with hone
    obtain rfl := Except.ok.inj h
    exact ⟨hone, trivial, by simpa [texts] using htext, rfl⟩
  · split at h
    · next hdigits =>
      obtain rfl := Except.ok.inj h
      exact ⟨⟨_, rfl, Address.isCanonical_of_normalize hdigits⟩, trivial, by simp [texts], rfl⟩
    · cases h
  · exact isScalar_of_decodeInteger h
  · split at h
    · next hraw =>
      obtain rfl := Except.ok.inj h
      exact ⟨FixedPoint.inRange_of_read hraw, trivial, by simp [texts], rfl⟩
    · cases h
  · cases h

theorem isScalar_of_decodePath {N : Json → Prop} {domain identifier : Option Json} {v : Value}
    (hidentifier : ∀ raw ∈ identifier, N raw) (h : decodePath domain identifier = .ok v) :
    v.IsScalar N := by
  unfold decodePath at h
  split at h
  · split_ifs at h with hpath
    obtain rfl := Except.ok.inj h
    exact ⟨hpath, trivial, by simpa [texts] using hidentifier _ rfl, rfl⟩
  · cases h

/-- A decoded value is sound and writable, its texts stand in the wire form, and its parts are decoded
from parts of it. -/
theorem IsDecodedFrom.layer {N : Json → Prop} (hN : Hereditary N) {v : Value}
    (h : v.IsDecodedFrom N) : v.IsSound ∧ v.IsWritable ∧ (∀ t ∈ v.texts, N (.str t)) ∧
      ∀ w ∈ v.parts, w.IsDecodedFrom N := by
  have hscalar : v.IsScalar N → v.IsSound ∧ v.IsWritable ∧ (∀ t ∈ v.texts, N (.str t)) ∧
      ∀ w ∈ v.parts, w.IsDecodedFrom N := by
    rintro ⟨hsound, hwritable, htexts, hparts⟩
    rw [hparts]
    exact ⟨hsound, hwritable, htexts, by simp⟩
  have hempty : ∀ t ∈ ([] : List Text), N (.str t) := by simp
  obtain ⟨data, hdata, h⟩ := h
  rcases decode_eq_ok h with rfl | ⟨members, known, raw, rfl, hget, h⟩
  · exact hscalar ⟨trivial, trivial, hempty, rfl⟩
  have hraw : N raw := hN.member hdata hget
  unfold decodeAs at h
  split at h
  · obtain rfl := Except.ok.inj h
    exact hscalar ⟨trivial, trivial, hempty, rfl⟩
  · split at h
    · obtain rfl := Except.ok.inj h
      exact hscalar ⟨trivial, trivial, hempty, rfl⟩
    · obtain ⟨inner, hinner, h⟩ := bind_eq_ok_iff.mp h
      obtain rfl := Except.ok.inj h
      refine ⟨trivial, trivial, hempty, fun w hw => ?_⟩
      rw [List.mem_singleton.mp hw]
      exact ⟨_, hraw, hinner⟩
  · split at h
    · obtain rfl := Except.ok.inj h
      exact hscalar ⟨trivial, trivial, hempty, rfl⟩
    · cases h
  · split at h
    · obtain ⟨values, hvalues, h⟩ := bind_eq_ok_iff.mp h
      obtain rfl := Except.ok.inj h
      refine ⟨trivial, trivial, hempty, fun w hw => ?_⟩
      obtain ⟨item, hmem, hitem⟩ := exists_right_of_forall₂ (decodeItems_eq_ok_iff.mp hvalues) w hw
      exact ⟨item, hN.item hraw item hmem, hitem⟩
    · cases h
  · split at h
    · obtain ⟨pairs, hpairs, h⟩ := bind_eq_ok_iff.mp h
      obtain rfl := Except.ok.inj h
      have hall := exists_right_of_forall₂ (decodePairs_eq_ok_iff.mp hpairs)
      refine ⟨trivial, trivial, hempty, fun w hw => ?_⟩
      rcases List.mem_append.mp hw with hw | hw
      · obtain ⟨p, hp, rfl⟩ := List.mem_map.mp hw
        obtain ⟨item, hitem, members, key, value, rfl, hk, hv, hkey, hvalue⟩ := hall p hp
        exact ⟨key, hN.member (hN.item hraw _ hitem) hk, hkey⟩
      · obtain ⟨p, hp, rfl⟩ := List.mem_map.mp hw
        obtain ⟨item, hitem, members, key, value, rfl, hk, hv, hkey, hvalue⟩ := hall p hp
        exact ⟨value, hN.member (hN.item hraw _ hitem) hv, hvalue⟩
    · cases h
  · split at h
    · exact hscalar (isScalar_of_decodePath (fun _ hidentifier => hN.member hraw hidentifier) h)
    · cases h
  · split at h
    · exact hscalar (isScalar_of_decodeText hraw h)
    · cases h

theorem IsDecodedFrom.everywhere {N : Json → Prop} (hN : Hereditary N) {P : Value → Prop}
    (hP : ∀ v : Value, v.IsSound → v.IsWritable → (∀ t ∈ v.texts, N (.str t)) → P v) {v : Value}
    (h : v.IsDecodedFrom N) : Everywhere P v :=
  everywhere_of_step (Q := IsDecodedFrom N)
    (fun v hv => hP v (hv.layer hN).1 (hv.layer hN).2.1 (hv.layer hN).2.2.1)
    (fun _ hv => (hv.layer hN).2.2.2) h

theorem hereditary_true : Hereditary fun _ => True :=
  ⟨fun _ _ _ => trivial, fun _ _ _ _ => trivial⟩

theorem wellFormed_of_decode {data : Json} {v : Value} (h : decode data = .ok v) : v.WellFormed :=
  IsDecodedFrom.everywhere hereditary_true (fun _ hsound _ _ => hsound) ⟨data, trivial, h⟩

theorem isWritable_of_decode {data : Json} {v : Value} (h : decode data = .ok v) :
    Everywhere IsWritable v :=
  IsDecodedFrom.everywhere hereditary_true (fun _ _ hwritable _ => hwritable) ⟨data, trivial, h⟩

end Value

end ContractKit
