import ContractKit.Proofs.JsonNormal
import ContractKit.Proofs.Plain

/-!
# The JSON text of arguments

The text of a list of values is read back as the same list if and only if no string inside a value
holds a high surrogate in front of a low one (`Value.decodeList_encodeList_iff`). The text of
values is ASCII whatever they hold, and what is read from such a text is plain
(`Value.isPlain_of_decodeList`): two escapes that make a surrogate pair are read as one code point. The
text of plain values, on the other hand, holds their wire forms (`Value.decodeList_of_isPlain`).
-/

namespace ContractKit.Value

/-! ## Strings inside a value -/

/-- The texts of a value that may hold several characters. -/
def strings : Value → List Text
  | string text => [text]
  | path _ identifier => [identifier]
  | _ => []

/-- No string inside the value holds a high surrogate in front of a low one. -/
def HasJoinedStrings (v : Value) : Prop :=
  Everywhere (fun u => ∀ t ∈ u.strings, t.IsJoined) v

theorem mem_texts_iff_of_isSound {v : Value} (hv : v.IsSound) :
    (∀ t ∈ v.texts, t.IsJoined) ↔ ∀ t ∈ v.strings, t.IsJoined := by
  cases v with
  | character text =>
    obtain ⟨c, rfl⟩ := List.length_eq_one_iff.mp hv
    simp [texts, strings, Text.IsJoined]
  | _ => exact Iff.rfl

/-- A single character holds no two surrogates. -/
theorem isPlain_iff {v : Value} (hv : v.WellFormed) : v.IsPlain ↔ v.HasJoinedStrings :=
  forall₂_congr fun u hu => mem_texts_iff_of_isSound (hv u hu)

theorem hasJoinedStrings_string {text : Text} :
    (string text).HasJoinedStrings ↔ text.IsJoined := by
  rw [HasJoinedStrings, everywhere_iff]
  simp [parts, strings]

/-! ## Lists of values -/

theorem encodeList_eq_ok_iff {values : List Value} {text : Text} :
    encodeList values = .ok text ↔ ∃ items, (Json.arr items).compact = text ∧
      List.Forall₂ (fun value item => encode value = .ok item) values items := by
  simp only [encodeList, map_eq_ok_iff, encodeItems_eq_ok_iff]
  exact exists_congr fun items => and_comm

theorem decodeFrom_eq_ok_iff {items : List Json} : ∀ {position : Nat} {values : List Value},
    decodeFrom position items = .ok values ↔
      List.Forall₂ (fun item value => decode item = .ok value) items values := by
  induction items with
  | nil =>
    intro position values
    rw [decodeFrom, List.forall₂_nil_left_iff, Except.ok.injEq]
    exact eq_comm
  | cons item rest ih =>
    intro position values
    rw [decodeFrom, List.forall₂_cons_left_iff]
    cases hitem : decode item with
    | error e => simp
    | ok value =>
      simp only [map_eq_ok_iff, ih, Except.ok.injEq]
      constructor
      · rintro ⟨others, hothers, rfl⟩
        exact ⟨value, others, rfl, hothers, rfl⟩
      · rintro ⟨_, others, rfl, hothers, rfl⟩
        exact ⟨others, hothers, rfl⟩

theorem decodeList_eq_ok_iff {text : Text} {values : List Value} :
    decodeList text = .ok values ↔ ∃ items, Json.parse text = .ok (.arr items) ∧
      List.Forall₂ (fun item value => decode item = .ok value) items values := by
  unfold decodeList
  split
  · next h => simp [h]
  · next e h => simp [h]
  · next items h => simp [h, decodeFrom_eq_ok_iff]
  · next j hno h =>
    rw [h]
    simp only [false_iff, not_exists, not_and, Except.ok.injEq, reduceCtorEq]
    rintro items rfl
    exact absurd rfl (hno items)

/-! ## Both directions -/

/-- What is read from an ASCII text is plain. -/
theorem isPlain_of_decodeList {text : Text} {values : List Value} (htext : text.IsAscii)
    (h : decodeList text = .ok values) : ∀ v ∈ values, v.IsPlain := by
  obtain ⟨items, hparse, hitems⟩ := decodeList_eq_ok_iff.mp h
  have hnormal := Json.isNormal_of_parse (.of_isAscii htext) hparse
  intro v hv
  obtain ⟨item, hitem, hdecode⟩ := exists_right_of_forall₂ hitems v hv
  exact isPlain_of_decode (hnormal.of_item hitem) hdecode

/-- The text of plain values is read back. -/
theorem decodeList_of_isPlain {values : List Value} {text : Text}
    (hvalues : ∀ v ∈ values, v.WellFormed ∧ v.IsPlain) (h : encodeList values = .ok text) :
    decodeList text = .ok values := by
  obtain ⟨items, rfl, hitems⟩ := encodeList_eq_ok_iff.mp h
  have hnormal : (Json.arr items).IsNormal False := by
    refine .arr fun item hitem => ?_
    obtain ⟨v, hv, hencode⟩ := exists_right_of_forall₂ hitems item hitem
    exact isNormal_of_encode (hvalues v hv).1 (hvalues v hv).2 hencode
  exact decodeList_eq_ok_iff.mpr ⟨items, Json.parse_compact hnormal,
    flip_of_forall₂ hitems fun v hv _ hencode => decode_encode (hvalues v hv).1 hencode⟩

/-- The text of values of literals and of wire forms is read back as these values exactly if no string
inside them holds a high surrogate in front of a low one. -/
theorem decodeList_encodeList_iff {values : List Value}
    (hvalues : ∀ v ∈ values,
      (∃ text type, Literal.parse text type = .ok v) ∨ ∃ data, decode data = .ok v)
    {text : Text} (h : encodeList values = .ok text) :
    decodeList text = .ok values ↔ ∀ v ∈ values, v.HasJoinedStrings := by
  have hwf : ∀ v ∈ values, v.WellFormed := by
    intro v hv
    rcases hvalues v hv with ⟨literal, type, hparse⟩ | ⟨data, hdecode⟩
    · exact Literal.wellFormed_of_parse hparse
    · exact wellFormed_of_decode hdecode
  constructor
  · intro hback v hv
    obtain ⟨items, rfl, -⟩ := encodeList_eq_ok_iff.mp h
    exact (isPlain_iff (hwf v hv)).mp
      (isPlain_of_decodeList (Json.isAscii_compact _) hback v hv)
  · intro hjoined
    exact decodeList_of_isPlain (fun v hv => ⟨hwf v hv, (isPlain_iff (hwf v hv)).mpr (hjoined v hv)⟩) h

/-- A code point past the 16-bit ones comes back from its text, and two surrogates in a row do not. -/
theorem decodeList_encodeList_surrogates : ∃ whole halves : Text,
    Literal.parse "\"\\u\x7b1f600\x7d\"" (.simple .string) = .ok (.string whole) ∧
    Literal.parse "\"\\u\x7bd83d\x7d\\u\x7bde00\x7d\"" (.simple .string) = .ok (.string halves) ∧
    (∃ text, encodeList [.string whole] = .ok text ∧ decodeList text = .ok [.string whole]) ∧
    ∃ text, encodeList [.string halves] = .ok text ∧ decodeList text ≠ .ok [.string halves] := by
  have hwhole : Literal.parse "\"\\u\x7b1f600\x7d\"" (.simple .string) =
      .ok (.string [.ofNat 0x1f600]) := by
    cbv
  have hhalves : Literal.parse "\"\\u\x7bd83d\x7d\\u\x7bde00\x7d\"" (.simple .string) =
      .ok (.string [.ofNat 0xd83d, .ofNat 0xde00]) := by
    cbv
  refine ⟨_, _, hwhole, hhalves, ⟨_, rfl, ?_⟩, _, rfl, fun hback => ?_⟩
  · refine (decodeList_encodeList_iff ?_ rfl).mpr ?_
    · exact List.forall_mem_singleton.mpr (.inl ⟨_, _, hwhole⟩)
    · exact List.forall_mem_singleton.mpr (hasJoinedStrings_string.mpr (by decide))
  · have hjoined := (decodeList_encodeList_iff
      (List.forall_mem_singleton.mpr (.inl ⟨_, _, hhalves⟩)) rfl).mp hback
    exact absurd (hasJoinedStrings_string.mp (hjoined _ List.mem_cons_self)) (by decide)

end ContractKit.Value
