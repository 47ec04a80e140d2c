import ContractKit.Proofs.JsonText
import ContractKit.Text.Utf8
import Mathlib.Data.List.TakeWhile

/-!
# What is parsed is normal

The value that a text without surrogates holds is normal (`Json.isNormal_of_parse`): its whole numbers
are short, no surrogates in its strings could be taken for one code point, and its objects have every
name once. No bytes decode to a surrogate (`Utf8.isSurrogate_of_decode`), so this is what files hold.
-/

namespace ContractKit

namespace Json

/-! ## Numbers -/

theorem readDigits_lt {s rest : Text} {ds : List Nat} (h : readDigits s = (ds, rest)) :
    (∀ d ∈ ds, d < 10) ∧ rest <:+ s := by
  obtain ⟨rfl, rfl⟩ := Prod.mk.inj h
  refine ⟨fun d hd => ?_, List.dropWhile_suffix _⟩
  obtain ⟨c, hc, rfl⟩ := List.mem_map.mp hd
  have := List.mem_takeWhile_imp hc
  simp only [CodePoint.isAsciiDigit, CodePoint.between_iff] at this
  have : c.val ≤ 57 := this.2
  omega

theorem readWhole_lt {s rest : Text} {ds : List Nat} (h : readWhole s = some (ds, rest)) :
    (∀ d ∈ ds, d < 10) ∧ rest <:+ s := by
  unfold readWhole at h
  split at h
  · cases h
  · obtain ⟨rfl, rfl⟩ := Prod.mk.inj (Option.some.inj h)
    exact ⟨by simp, List.drop_suffix 1 s⟩
  · next heq =>
    exact readDigits_lt (Option.some.inj h)

theorem readFraction_suffix {s rest : Text} {ds : List Nat} (h : readFraction s = (ds, rest)) :
    rest <:+ s := by
  unfold readFraction at h
  split at h
  · next point after =>
    split_ifs at h
    · split at h
      · obtain ⟨-, rfl⟩ := Prod.mk.inj h
        exact List.suffix_rfl
      · exact (readDigits_lt h).2.trans (List.suffix_cons _ _)
    · obtain ⟨-, rfl⟩ := Prod.mk.inj h
      exact List.suffix_rfl
  · obtain ⟨-, rfl⟩ := Prod.mk.inj h
    exact List.suffix_rfl

theorem readSign_suffix (s : Text) : (readSign s).2 <:+ s := by
  unfold readSign
  split
  · split_ifs
    · exact List.suffix_cons _ _
    · exact List.suffix_cons _ _
    · exact List.suffix_rfl
  · exact List.suffix_rfl

theorem readExponent_suffix {s rest : Text} {exponent : Option Int}
    (h : readExponent s = (exponent, rest)) : rest <:+ s := by
  unfold readExponent at h
  split at h
  · next e after =>
    split_ifs at h
    · simp only at h
      split at h
      · obtain ⟨-, rfl⟩ := Prod.mk.inj h
        exact List.suffix_rfl
      · next hdigits =>
        obtain ⟨-, rfl⟩ := Prod.mk.inj h
        exact (readDigits_lt hdigits).2.trans
          ((readSign_suffix after).trans (List.suffix_cons _ _))
    · obtain ⟨-, rfl⟩ := Prod.mk.inj h
      exact List.suffix_rfl
  · obtain ⟨-, rfl⟩ := Prod.mk.inj h
    exact List.suffix_rfl

/-- A number is short, or a floating one. -/
theorem isNormal_of_readNumber {negative : Bool} {s rest : Text} {j : Json}
    (h : readNumber negative s = .ok (j, rest)) : j.IsNormal True ∧ rest <:+ s := by
  unfold readNumber at h
  split at h
  · cases h
  next whole left hwhole =>
  obtain ⟨hdigits, hleft⟩ := readWhole_lt hwhole
  split at h
  next fraction left' hfraction =>
  split at h
  next exponent after hexponent =>
  have hafter : after <:+ s :=
    (readExponent_suffix hexponent).trans ((readFraction_suffix hfraction).trans hleft)
  split at h
  · split at h
    · cases h
    next hlong =>
    have hshort := Numeral.isShort_value hdigits (Nat.not_lt.mp hlong)
    obtain ⟨rfl, rfl⟩ := Prod.mk.inj (Except.ok.inj h)
    refine ⟨.int ?_, hafter⟩
    split_ifs
    · exact Numeral.isShort_neg hshort
    · exact hshort
  · obtain ⟨rfl, rfl⟩ := Prod.mk.inj (Except.ok.inj h)
    exact ⟨.float _ trivial, hafter⟩

/-! ## Values -/

theorem isNormal_of_readWord {s rest : Text} {j : Json} (h : readWord s = some (j, rest)) :
    j.IsNormal True ∧ rest <:+ s := by
  obtain ⟨⟨word, value⟩, hword, h⟩ := List.exists_of_findSome?_eq_some h
  obtain ⟨left, hleft, h⟩ := Option.map_eq_some_iff.mp h
  obtain ⟨rfl, rfl⟩ := Prod.mk.inj h
  refine ⟨?_, ⟨word, (Text.dropStart?_eq_some_iff.mp hleft).symm⟩⟩
  simp only [words, List.mem_cons, List.not_mem_nil, or_false, Prod.mk.injEq] at hword
  rcases hword with ⟨-, rfl⟩ | ⟨-, rfl⟩ | ⟨-, rfl⟩ | ⟨-, rfl⟩ | ⟨-, rfl⟩ | ⟨-, rfl⟩
  · exact .null
  · exact .bool true
  · exact .bool false
  all_goals exact .float _ trivial

theorem skipBlanks_suffix (s : Text) : skipBlanks s <:+ s :=
  List.dropWhile_suffix _

/-- A text in which no surrogate stands. -/
def HasNoSurrogate (s : Text) : Prop :=
  ∀ c ∈ s, c.isSurrogate = false

theorem HasNoSurrogate.suffix {s rest : Text} (h : HasNoSurrogate s) (hrest : rest <:+ s) :
    HasNoSurrogate rest :=
  fun c hc => h c (hrest.subset hc)

theorem HasNoSurrogate.of_isAscii {s : Text} (h : s.IsAscii) : HasNoSurrogate s := by
  intro c hc
  have := h c hc
  rw [CodePoint.isSurrogate_eq_false_iff]
  omega

/-- The members of an object that is read are those of the text, each name once. -/
theorem isNormal_object {members : List (Text × Json)}
    (h : ∀ member ∈ members, member.1.IsJoined ∧ member.2.IsNormal True) :
    (object members).IsNormal True :=
  .obj (Entries.nodup_names_ofList members)
    (fun member hmember => (h member (Entries.mem_of_mem_ofList hmember)).1)
    (fun member hmember => (h member (Entries.mem_of_mem_ofList hmember)).2)

mutual

theorem isNormal_of_readValue : ∀ {fuel : Nat} {s rest : Text} {j : Json}, HasNoSurrogate s →
    readValue fuel s = .ok (j, rest) → j.IsNormal True ∧ rest <:+ s
  | 0, _, _, _, _, h => by
    rw [readValue] at h
    cases h
  | _ + 1, [], _, _, _, h => by
    rw [readValue] at h
    cases h
  | fuel + 1, c :: s, rest, j, hs, h => by
    have hskip : skipBlanks s <:+ c :: s := (skipBlanks_suffix s).trans (List.suffix_cons _ _)
    rw [readValue] at h
    split_ifs at h with hquote hbracket hbrace
    · obtain ⟨⟨t, after⟩, hread, h⟩ := map_eq_ok_iff.mp h
      obtain ⟨rfl, rfl⟩ := Prod.mk.inj h
      exact ⟨.str (isJoined_of_readString (hs.suffix (List.suffix_cons _ _)) hread),
        (readString_suffix hread).trans (List.suffix_cons _ _)⟩
    · split at h
      · cases h
      next d after hafter =>
      rw [hafter] at hskip
      split_ifs at h
      · obtain ⟨rfl, rfl⟩ := Prod.mk.inj (Except.ok.inj h)
        exact ⟨.arr (by simp), (List.suffix_cons _ _).trans hskip⟩
      · obtain ⟨⟨items, left⟩, hread, h⟩ := map_eq_ok_iff.mp h
        obtain ⟨rfl, rfl⟩ := Prod.mk.inj h
        obtain ⟨hitems, hleft⟩ := isNormal_of_readItems (hs.suffix hskip) hread
        exact ⟨.arr hitems, hleft.trans hskip⟩
    · split at h
      · cases h
      next d after hafter =>
      rw [hafter] at hskip
      split_ifs at h
      · obtain ⟨rfl, rfl⟩ := Prod.mk.inj (Except.ok.inj h)
        exact ⟨.empty, (List.suffix_cons _ _).trans hskip⟩
      · obtain ⟨⟨members, left⟩, hread, h⟩ := map_eq_ok_iff.mp h
        obtain ⟨rfl, rfl⟩ := Prod.mk.inj h
        obtain ⟨hmembers, hleft⟩ := isNormal_of_readMembers (hs.suffix hskip) hread
        exact ⟨isNormal_object hmembers, hleft.trans hskip⟩
    · split at h
      · next hword =>
        obtain rfl := Except.ok.inj h
        exact isNormal_of_readWord hword
      · obtain ⟨hj, hrest⟩ := isNormal_of_readNumber h
        exact ⟨hj, hrest.trans (List.suffix_cons _ _)⟩
    · split at h
      · next hword =>
        obtain rfl := Except.ok.inj h
        exact isNormal_of_readWord hword
      · exact isNormal_of_readNumber h

theorem isNormal_of_readItems : ∀ {fuel : Nat} {s rest : Text} {items : List Json},
    HasNoSurrogate s → readItems fuel s = .ok (items, rest) →
      (∀ item ∈ items, item.IsNormal True) ∧ rest <:+ s
  | 0, _, _, _, _, h => by
    rw [readItems] at h
    cases h
  | fuel + 1, s, rest, items, hs, h => by
    rw [readItems] at h
    obtain ⟨⟨item, left⟩, hread, h⟩ := bind_eq_ok_iff.mp h
    obtain ⟨hitem, hleft⟩ := isNormal_of_readValue hs hread
    have hskip := (skipBlanks_suffix left).trans hleft
    simp only at h
    split at h
    · cases h
    next d after hafter =>
    rw [hafter] at hskip
    have hafter' := (List.suffix_cons d after).trans hskip
    split_ifs at h
    · obtain ⟨rfl, rfl⟩ := Prod.mk.inj (Except.ok.inj h)
      exact ⟨by simpa using hitem, hafter'⟩
    · obtain ⟨⟨others, left'⟩, hothers, h⟩ := bind_eq_ok_iff.mp h
      obtain ⟨rfl, rfl⟩ := Prod.mk.inj (Except.ok.inj h)
      have hskip' := (skipBlanks_suffix after).trans hafter'
      obtain ⟨hitems, hleft'⟩ := isNormal_of_readItems (hs.suffix hskip') hothers
      exact ⟨List.forall_mem_cons.mpr ⟨hitem, hitems⟩, hleft'.trans hskip'⟩

theorem isNormal_of_readMembers : ∀ {fuel : Nat} {s rest : Text} {members : List (Text × Json)},
    HasNoSurrogate s → readMembers fuel s = .ok (members, rest) →
      (∀ member ∈ members, member.1.IsJoined ∧ member.2.IsNormal True) ∧ rest <:+ s
  | 0, _, _, _, _, h => by
    rw [readMembers] at h
    cases h
  | _ + 1, [], _, _, _, h => by
    rw [readMembers] at h
    cases h
  | fuel + 1, c :: s, rest, members, hs, h => by
    rw [readMembers] at h
    split_ifs at h
    obtain ⟨⟨name, left⟩, hname, h⟩ := bind_eq_ok_iff.mp h
    have hjoined := isJoined_of_readString (hs.suffix (List.suffix_cons _ _)) hname
    have hskip := (skipBlanks_suffix left).trans
      ((readString_suffix hname).trans (List.suffix_cons c s))
    simp only at h
    split at h
    · cases h
    next colon left' hleft' =>
    rw [hleft'] at hskip
    split_ifs at h
    have hvalue := (skipBlanks_suffix left').trans ((List.suffix_cons colon left').trans hskip)
    obtain ⟨⟨item, left⟩, hread, h⟩ := bind_eq_ok_iff.mp h
    obtain ⟨hitem, hleft⟩ := isNormal_of_readValue (hs.suffix hvalue) hread
    have hskip := (skipBlanks_suffix left).trans (hleft.trans hvalue)
    simp only at h
    split at h
    · cases h
    next d after hafter =>
    rw [hafter] at hskip
    have hafter' := (List.suffix_cons d after).trans hskip
    split_ifs at h
    · obtain ⟨rfl, rfl⟩ := Prod.mk.inj (Except.ok.inj h)
      exact ⟨by simpa using ⟨hjoined, hitem⟩, hafter'⟩
    · obtain ⟨⟨others, left'⟩, hothers, h⟩ := bind_eq_ok_iff.mp h
      obtain ⟨rfl, rfl⟩ := Prod.mk.inj (Except.ok.inj h)
      have hskip' := (skipBlanks_suffix after).trans hafter'
      obtain ⟨hmembers, hleft'⟩ := isNormal_of_readMembers (hs.suffix hskip') hothers
      exact ⟨List.forall_mem_cons.mpr ⟨⟨hjoined, hitem⟩, hmembers⟩, hleft'.trans hskip'⟩

end

/-- The value of a text without surrogates is normal. -/
theorem isNormal_of_parse {text : Text} {j : Json} (htext : HasNoSurrogate text)
    (h : parse text = .ok j) : j.IsNormal True := by
  unfold parse at h
  split at h
  · cases h
  · next value rest hread =>
    split_ifs at h
    obtain rfl := Except.ok.inj h
    exact (isNormal_of_readValue (htext.suffix (skipBlanks_suffix text)) hread).1

end Json

/-! ## Files -/

namespace Utf8

theorem of_continuation_cons {count bits lo hi : Nat} {ranges : List (Nat × Nat)}
    {bytes : List UInt8} {r : Nat × List UInt8}
    (h : continuation count bits ((lo, hi) :: ranges) bytes = .ok r) :
    ∃ n rest, (lo ≤ n ∧ n ≤ hi) ∧
      continuation (count + 1) (bits * 64 + (n - 0x80)) ranges rest = .ok r := by
  cases bytes with
  | nil =>
    rw [continuation] at h
    cases h
  | cons byte rest =>
    rw [continuation] at h
    split_ifs at h with hrange
    exact ⟨byte.toNat, rest, hrange, h⟩

theorem eq_of_continuation_nil {count bits : Nat} {bytes : List UInt8} {r : Nat × List UInt8}
    (h : continuation count bits [] bytes = .ok r) : r.1 = bits := by
  rw [continuation] at h
  rw [← Except.ok.inj h]

/-- The ranges of the bytes that may follow a first byte leave the surrogates out. -/
theorem number_of_lead? {byte bits number : Nat} {ranges : List (Nat × Nat)} {rest after : List UInt8}
    (hlead : lead? byte = some (bits, ranges))
    (h : continuation 1 bits ranges rest = .ok (number, after)) :
    number < 0xd800 ∨ 0xe000 ≤ number := by
  unfold lead? at hlead
  simp only at hlead
  split_ifs at hlead
  all_goals
    obtain ⟨rfl, rfl⟩ := Prod.mk.inj (Option.some.inj hlead)
    obtain ⟨a, _, ha, h⟩ := of_continuation_cons h
  · have heq := eq_of_continuation_nil h
    simp only at heq
    omega
  all_goals obtain ⟨b, _, hb, h⟩ := of_continuation_cons h
  · have heq := eq_of_continuation_nil h
    simp only at heq
    omega
  · have heq := eq_of_continuation_nil h
    simp only at heq
    omega
  · have heq := eq_of_continuation_nil h
    simp only at heq
    omega
  all_goals
    obtain ⟨c, _, hc, h⟩ := of_continuation_cons h
    have heq := eq_of_continuation_nil h
    simp only at heq
    omega

theorem isSurrogate_ofNat {n : Nat} (h : n < 0xd800 ∨ 0xe000 ≤ n) :
    (CodePoint.ofNat n).isSurrogate = false := by
  have := CodePoint.val_ofNat_eq (n := n)
  rw [CodePoint.isSurrogate_eq_false_iff]
  omega

theorem isSurrogate_of_decodeFrom {bytes : List UInt8} : ∀ {position : Nat} {text : Text},
    decodeFrom position bytes = .ok text → Json.HasNoSurrogate text := by
  induction hlength : bytes.length using Nat.strong_induction_on generalizing bytes with
  | h n ih =>
  subst hlength
  intro position text h
  rw [decodeFrom.eq_def] at h
  split at h
  · rw [← Except.ok.inj h]
    exact fun _ hc => by cases hc
  next byte rest =>
  split_ifs at h with hascii
  · obtain ⟨t, ht, rfl⟩ := map_eq_ok_iff.mp h
    exact List.forall_mem_cons.mpr ⟨isSurrogate_ofNat (by omega), ih _ (by simp) rfl ht⟩
  · split at h
    · cases h
    next bits ranges hlead =>
    split at h
    · cases h
    next number after hcontinuation =>
    obtain ⟨t, ht, rfl⟩ := map_eq_ok_iff.mp h
    have hlt : after.length < (byte :: rest).length :=
      Nat.lt_succ_of_le (continuation_length hcontinuation)
    exact List.forall_mem_cons.mpr
      ⟨isSurrogate_ofNat (number_of_lead? hlead hcontinuation), ih _ hlt rfl ht⟩

/-- No surrogate is decoded. -/
theorem isSurrogate_of_decode {bytes : List UInt8} {text : Text} (h : decode bytes = .ok text) :
    Json.HasNoSurrogate text :=
  isSurrogate_of_decodeFrom h

/-- ASCII characters are decoded from their own bytes. -/
theorem decodeFrom_ascii {t : Text} (h : ∀ c ∈ t, c.val < 0x80) : ∀ position,
    decodeFrom position (t.map fun c => .ofNat c.val) = .ok t := by
  induction t with
  | nil =>
    intro position
    rw [List.map_nil, decodeFrom]
  | cons c t ih =>
    intro position
    have hc : c.val < 0x80 := h c (by simp)
    have hbyte : (UInt8.ofNat c.val).toNat = c.val := by
      rw [UInt8.toNat_ofNat', Nat.mod_eq_of_lt (by omega)]
    rw [List.map_cons, decodeFrom, hbyte, if_pos hc, ih fun d hd => h d (by simp [hd]),
      CodePoint.ofNat_val]
    rfl

end Utf8

end ContractKit
