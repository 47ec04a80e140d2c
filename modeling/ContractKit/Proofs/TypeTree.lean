import ContractKit.Proofs.Declaration
import ContractKit.Proofs.TypeText

/-!
# The tree of a type

Names, optional marks, arrays and dictionaries denote a type by the way they are nested
(`Ty.Denotes`). A name denotes a built-in type if it is the name of one, and otherwise a type known by
this name.

A text of the grammar is one type, however it is laid out, and so is the text of this type. If it is
made of names, optional marks, arrays and dictionaries only, then it is the type that they denote
(`Ty.parse_written`).
-/

namespace ContractKit

open Token

/-! ## The text of a name -/

namespace Token

/-- Tokens that no space goes with are rendered as they are. -/
theorem foldl_renderOnto {ts : List Token} (h : ∀ a ∈ ts, a.isSpaced = false ∧ a ≠ .mark '&')
    (out : Text) : ts.foldl renderOnto out = out ++ ts.flatMap Token.text := by
  induction ts generalizing out with
  | nil => exact (List.append_nil out).symm
  | cons a ts ih =>
    obtain ⟨⟨hspaced, hauth⟩, hts⟩ := List.forall_mem_cons.mp h
    rw [List.foldl_cons, renderOnto, if_neg (by simp [hspaced]), if_neg (by simp [hauth]), ih hts,
      List.flatMap_cons, List.append_assoc]

theorem flatMap_text_dotted (first : Text) (parts : List Text) :
    (dotted first parts).flatMap text = Text.intercalate "." (first :: parts) := by
  induction parts generalizing first with
  | nil => simp [dotted, text, Text.intercalate]
  | cons part parts ih =>
    have hcons : dotted first (part :: parts) = .identifier first :: .mark '.' :: dotted part parts :=
      rfl
    rw [hcons, List.flatMap_cons, List.flatMap_cons, ih, Text.intercalate, Text.intercalate,
      List.intercalate_cons_cons, List.append_assoc]
    rfl

/-- The text of a name is its parts with points between them. -/
theorem render_dotted {first : Text} {parts : List Text}
    (h : ∀ token ∈ dotted first parts, token.IsProper) :
    render (dotted first parts) = Text.intercalate "." (first :: parts) := by
  have hspaced : ∀ a ∈ dotted first parts, a.isSpaced = false ∧ a ≠ .mark '&' :=
    forall_mem_dotted (fun _ => ⟨rfl, nofun⟩) (by decide) first parts
  have hblank : ∀ c ∈ (dotted first parts).flatMap text, c.isBlank = false := by
    intro c hc
    obtain ⟨a, ha, hc⟩ := List.mem_flatMap.mp hc
    refine forall_mem_dotted (P := fun a => a.IsProper → ∀ c ∈ a.text, c.isBlank = false)
      (fun _ => isBlank_of_mem_identifier) (fun _ => ?_) first parts a ha (h a ha) c hc
    decide
  rw [render, foldl_renderOnto hspaced, List.nil_append, Text.trim_of_forall hblank,
    flatMap_text_dotted]

end Token

/-! ## Names of built-in types -/

namespace SimpleType

theorem ofName?_name (type : SimpleType) : ofName? type.name = some type := by
  cases type with
  | integer kind | fixed kind | path kind | unwritten kind => cases kind <;> rfl
  | _ => rfl

theorem ofName?_eq_none {name : Text} (h : ∀ type : SimpleType, name ≠ type.name) :
    ofName? name = none :=
  List.find?_eq_none.mpr fun type _ => by simpa using (h type).symm

/-- The name of a built-in type is a name of its own and has no points. -/
theorem name_spec (type : SimpleType) :
    type.name ≠ "auth" ∧ type.name ≠ "Address" ∧ CodePoint.ofChar '.' ∉ type.name := by
  cases type with
  | integer kind | fixed kind | path kind | unwritten kind => cases kind <;> decide
  | _ => decide

end SimpleType

/-! ## What tokens denote -/

namespace Ty

/-- The type that names, optional marks, arrays and dictionaries denote. -/
inductive Denotes : List Token → Ty → Prop
  /-- `Address` -/
  | address : Denotes [.identifier "Address"] address
  /-- The name of a built-in type. -/
  | simple (type : SimpleType) : Denotes [.identifier type.name] (simple type)
  /-- Another name. -/
  | nominal {first : Text} {parts : List Text} {name : Text} : first ≠ "auth" →
      name = Text.intercalate "." (first :: parts) → name ≠ "Address" →
      (∀ type : SimpleType, name ≠ type.name) → Denotes (dotted first parts) (nominal name)
  /-- `T?` -/
  | optional {ts : List Token} {type : Ty} : Denotes ts type →
      Denotes (ts ++ [.mark '?']) (optional type)
  /-- `[T]` -/
  | array {ts : List Token} {type : Ty} : Denotes ts type →
      Denotes (.mark '[' :: (ts ++ [.mark ']'])) (array type)
  /-- `[T; n]` -/
  | constant {ts : List Token} {type : Ty} {digits : Text} : Denotes ts type → IsSize digits →
      Denotes (.mark '[' :: (ts ++ [.mark ';', .number digits, .mark ']']))
        (constant type (sizeOfDigits digits))
  /-- `{T: T}` -/
  | dictionary {ks vs : List Token} {key value : Ty} : Denotes ks key → Denotes vs value →
      Denotes (.mark '\x7b' :: (ks ++ .mark ':' :: (vs ++ [.mark '\x7d']))) (dictionary key value)

/-- A name with points is no name of a built-in type. -/
theorem IsName.exists_denotes {ts : List Token} (h : IsName ts) : ∃ type, Denotes ts type := by
  obtain ⟨first, parts, hfirst, rfl⟩ := h
  have hpoint : ∀ name : Text, CodePoint.ofChar '.' ∉ name →
      Text.intercalate "." (first :: parts) = name → parts = [] ∧ first = name := by
    intro name hname heq
    cases parts with
    | nil => exact ⟨rfl, by simpa [Text.intercalate] using heq⟩
    | cons part parts =>
      rw [Text.intercalate, List.intercalate_cons_cons] at heq
      refine absurd ?_ hname
      rw [← heq]
      exact List.mem_append_left _ (List.mem_append_right _ (List.mem_singleton.mpr rfl))
  by_cases haddress : Text.intercalate "." (first :: parts) = "Address"
  · obtain ⟨rfl, rfl⟩ := hpoint "Address" (by decide) haddress
    exact ⟨_, .address⟩
  by_cases hsimple : ∃ type : SimpleType, Text.intercalate "." (first :: parts) = type.name
  · obtain ⟨type, htype⟩ := hsimple
    obtain ⟨rfl, rfl⟩ := hpoint type.name type.name_spec.2.2 htype
    exact ⟨_, .simple type⟩
  · exact ⟨_, .nominal hfirst rfl haddress (not_exists.mp hsimple)⟩

theorem IsPlain.exists_denotes {ts : List Token} (h : IsPlain ts) : ∃ type, Denotes ts type := by
  induction h with
  | name h => exact h.exists_denotes
  | optional _ ih => exact ih.elim fun _ h => ⟨_, .optional h⟩
  | array _ ih => exact ih.elim fun _ h => ⟨_, .array h⟩
  | constant _ hdigits ih => exact ih.elim fun _ h => ⟨_, .constant h hdigits⟩
  | dictionary _ _ ihkey ihvalue =>
    obtain ⟨key, hkey⟩ := ihkey
    obtain ⟨value, hvalue⟩ := ihvalue
    exact ⟨_, .dictionary hkey hvalue⟩

/-- A name is read as the type that its text names. -/
theorem reads_dotted (first : Text) (parts : List Text) (hfirst : first ≠ "auth")
    (hproper : ∀ token ∈ dotted first parts, token.IsProper) {type : Ty}
    (htype : ofName (Text.intercalate "." (first :: parts)) = type) (n : Nat) :
    Reads (dotted first parts) n (optional^[n] type) := by
  have hname : IsName (dotted first parts) := ⟨first, parts, hfirst, rfl⟩
  have hbase := readsBase_name hname
  rw [render_dotted hproper, htype] at hbase
  exact hbase.reads hname.ne_nil (by simpa using hname.head_ne []) n

/-- Tokens that denote a type are read as it. -/
theorem Denotes.reads {ts : List Token} {type : Ty} (h : Denotes ts type) :
    (∀ token ∈ ts, token.IsProper) → ∀ n, Reads ts n (Ty.optional^[n] type) := by
  induction h with
  | address => exact fun hproper => reads_dotted "Address" [] (by decide) hproper rfl
  | simple type =>
    intro hproper
    have hname : ofName (Text.intercalate "." [type.name]) = .simple type := by
      rw [Text.intercalate, List.intercalate_singleton, ofName, if_neg type.name_spec.2.1,
        type.ofName?_name]
    exact reads_dotted type.name [] type.name_spec.1 hproper hname
  | nominal hfirst hname haddress hsimple =>
    intro hproper
    refine reads_dotted _ _ hfirst hproper ?_
    rw [← hname, ofName, if_neg haddress, SimpleType.ofName?_eq_none hsimple]
  | optional _ ih =>
    intro hproper n
    have hmark := ih (fun token h => hproper token (by simp [h])) (n + 1)
    rw [Function.iterate_succ_apply] at hmark
    exact hmark.optional
  | array _ ih =>
    intro hproper
    have hts := ih (fun token h => hproper token (by simp [h])) 0
    exact (readsBase_array hts).reads (by simp) (by simp)
  | constant _ hdigits ih =>
    intro hproper
    have hts := ih (fun token h => hproper token (by simp [h])) 0
    exact (readsBase_constant hts hdigits).reads (by simp) (by simp)
  | dictionary _ _ ihkey ihvalue =>
    intro hproper
    have hkey := ihkey (fun token h => hproper token (by simp [h])) 0
    have hvalue := ihvalue (fun token h => hproper token (by simp [h])) 0
    exact (readsBase_dictionary hkey hvalue).reads (by simp) (by simp)

/-! ## Texts of the grammar -/

/-- A text of the grammar is one type, however it is laid out, and this type is found again in its own
text. Names, optional marks, arrays and dictionaries are the type that they denote. -/
theorem parse_written {ts : List Token} (h : IsType ts) {s : Text} (hs : Written ts s) :
    ∃ type, parse s = .ok type ∧ parse type.text = .ok type ∧
      (IsPlain ts → ∀ tree, Denotes ts tree ↔ tree = type) := by
  obtain ⟨type, hreads, hround⟩ := h.exists_reads 0
  have hparse : parse s = .ok type := hreads.parse_eq (scan_of_written hs)
  refine ⟨type, hparse, (hround hs.isProper).parse_text, fun hplain => ?_⟩
  have hunique : ∀ tree, Denotes ts tree → tree = type := by
    intro tree htree
    have hreads' : Reads ts 0 tree := htree.reads hs.isProper 0
    exact Except.ok.inj ((hreads'.parse_eq (scan_of_written hs)).symm.trans hparse)
  obtain ⟨tree, htree⟩ := hplain.exists_denotes
  obtain rfl := hunique tree htree
  exact fun other => ⟨hunique other, fun h => h ▸ htree⟩

/-- A dictionary of constant arrays, with a comment inside it and a size that starts with a zero. -/
theorem parse_written_dictionary :
    let tree := dictionary address (constant (optional (nominal "A.B")) 3)
    parse "\x7bAddress: /* : */ [A . B?;03]\x7d" = .ok tree ∧ parse tree.text = .ok tree := by
  intro tree
  have hscan : scan "\x7bAddress: /* : */ [A . B?;03]\x7d" = .ok (.mark '\x7b' ::
      ([.identifier "Address"] ++ .mark ':' :: ((.mark '[' :: (dotted "A" ["B"] ++ [.mark '?'] ++
        [.mark ';', .number "03", .mark ']'])) ++ [.mark '\x7d']))) := by cbv
  have hsize : IsSize "03" := ⟨by decide, by decide, by decide⟩
  have hname : ∀ (first : Text) (parts : List Text), first ≠ "auth" → IsPlain (dotted first parts) :=
    fun first parts h => .name ⟨first, parts, h, rfl⟩
  have hplain := IsPlain.dictionary (hname "Address" [] (by decide))
    ((hname "A" ["B"] (by decide)).optional.constant hsize)
  have hnominal : Denotes (dotted "A" ["B"]) (nominal "A.B") :=
    .nominal (by decide) rfl (by decide) fun type h => type.name_spec.2.2 (h ▸ by decide)
  have htree := Denotes.dictionary .address (hnominal.optional.constant hsize)
  obtain ⟨type, hparse, htext, hunique⟩ := parse_written hplain.isType (written_of_scan hscan)
  obtain rfl := (hunique hplain _).mp htree
  exact ⟨hparse, htext⟩

end Ty

end ContractKit
