import ContractKit.Proofs.Bracket
import ContractKit.Proofs.Layout
import ContractKit.Proofs.Numeral
import ContractKit.Ty.Annotation

/-!
# The grammar of type annotations

`Ty.IsType` is the grammar of types as tokens. The parts of a type are read in full, whatever follows
them, if that does not go on with a type. What goes on with a type depends on its last token: a brace
goes on with a name, but not with an array type.

The reader gives optional marks to the innermost type they can belong to, `&T?` being a reference to
`T?`. So a type is read together with any number of marks behind it (`Ty.Reads`).
-/

namespace ContractKit

/-! ## Names and lists -/

namespace Token

/-- A name of several parts with points between them. -/
def dotted (first : Text) (parts : List Text) : List Token :=
  .identifier first :: parts.flatMap fun part => [.mark '.', .identifier part]

/-- Pieces with commas between them. -/
def commaSeparated (pieces : List (List Token)) : List Token :=
  [Token.mark ','].intercalate pieces

theorem commaSeparated_singleton (piece : List Token) : commaSeparated [piece] = piece :=
  List.intercalate_singleton

theorem commaSeparated_cons_cons (first second : List Token) (others : List (List Token)) :
    commaSeparated (first :: second :: others) =
      first ++ .mark ',' :: commaSeparated (second :: others) := by
  simp [commaSeparated, List.intercalate_cons_cons]

/-- What holds of no tokens, of a comma and of each piece, and goes over to tokens put together, holds
of pieces with commas between them. -/
theorem commaSeparated_induction {P : List Token → Prop} (hnil : P []) (hcomma : P [.mark ','])
    (happend : ∀ {ts us}, P ts → P us → P (ts ++ us)) {pieces : List (List Token)}
    (h : ∀ piece ∈ pieces, P piece) : P (commaSeparated pieces) := by
  induction pieces with
  | nil => exact hnil
  | cons first others ih =>
    obtain ⟨hfirst, hothers⟩ := List.forall_mem_cons.mp h
    cases others with
    | nil => rwa [commaSeparated_singleton]
    | cons second others =>
      rw [commaSeparated_cons_cons, ← List.singleton_append]
      exact happend hfirst (happend hcomma (ih hothers))

theorem forall_mem_commaSeparated {P : Token → Prop} (hcomma : P (.mark ','))
    {pieces : List (List Token)} (h : ∀ piece ∈ pieces, ∀ token ∈ piece, P token) :
    ∀ token ∈ commaSeparated pieces, P token :=
  commaSeparated_induction (P := fun ts => ∀ token ∈ ts, P token) (by simp) (by simpa using hcomma)
    (fun hts hus => List.forall_mem_append.mpr ⟨hts, hus⟩) h

theorem dotted_induction {P : List Token → Prop} (hname : ∀ name, P [.identifier name])
    (hpoint : P [.mark '.']) (happend : ∀ {ts us}, P ts → P us → P (ts ++ us)) (first : Text)
    (parts : List Text) : P (dotted first parts) := by
  induction parts using List.reverseRecOn with
  | nil => exact hname first
  | append_singleton parts part ih =>
    have hlast : dotted first (parts ++ [part]) =
        dotted first parts ++ ([.mark '.'] ++ [.identifier part]) := by
      simp [dotted]
    rw [hlast]
    exact happend ih (happend hpoint (hname part))

theorem forall_mem_dotted {P : Token → Prop} (hname : ∀ name, P (.identifier name))
    (hpoint : P (.mark '.')) (first : Text) (parts : List Text) :
    ∀ token ∈ dotted first parts, P token :=
  dotted_induction (P := fun ts => ∀ token ∈ ts, P token) (by simpa using hname)
    (by simpa using hpoint) (fun hts hus => List.forall_mem_append.mpr ⟨hts, hus⟩) first parts

end Token

namespace Ty

/-! ## The grammar -/

/-- A name whose first part is not the word `auth`. -/
def IsName (ts : List Token) : Prop :=
  ∃ (first : Text) (parts : List Text), first ≠ "auth" ∧ ts = Token.dotted first parts

/-- The digits of a size that can be read. -/
def IsSize (digits : Text) : Prop :=
  digits ≠ [] ∧ digits.length ≤ Numeral.decimalLimit ∧ ∀ d ∈ digits, d.isAsciiDigit = true

/-- The size that digits denote. -/
def sizeOfDigits (digits : Text) : Nat :=
  Numeral.value 10 (digits.map fun d => d.val - 48)

/-- The tokens of a type. -/
inductive IsType : List Token → Prop
  /-- `Name` -/
  | name {ts : List Token} : IsName ts → IsType ts
  /-- `E?` -/
  | optional {ts : List Token} : IsType ts → IsType (ts ++ [.mark '?'])
  /-- `[E]` -/
  | array {ts : List Token} : IsType ts → IsType (.mark '[' :: (ts ++ [.mark ']']))
  /-- `[E; n]` -/
  | constant {ts : List Token} {digits : Text} : IsType ts → IsSize digits →
      IsType (.mark '[' :: (ts ++ [.mark ';', .number digits, .mark ']']))
  /-- `{E: E}` -/
  | dictionary {key value : List Token} : IsType key → IsType value →
      IsType (.mark '\x7b' :: (key ++ .mark ':' :: (value ++ [.mark '\x7d'])))
  /-- `&E` -/
  | reference {ts : List Token} : IsType ts → IsType (.mark '&' :: ts)
  /-- `auth &E` -/
  | authorized {ts : List Token} : IsType ts →
      IsType (.identifier "auth" :: .mark '&' :: ts)
  /-- `Name<E, …>` -/
  | generic {name : List Token} {arguments : List (List Token)} : IsName name → arguments ≠ [] →
      (∀ ts ∈ arguments, IsType ts) →
      IsType (name ++ .mark '<' :: (Token.commaSeparated arguments ++ [.mark '>']))
  /-- `Name{N, …}` -/
  | restricted {name : List Token} {names : List (List Token)} : IsName name → names ≠ [] →
      (∀ ts ∈ names, IsName ts) →
      IsType (name ++ .mark '\x7b' :: (Token.commaSeparated names ++ [.mark '\x7d']))
  /-- `{N, …}` -/
  | restrictions {names : List (List Token)} : names ≠ [] → (∀ ts ∈ names, IsName ts) →
      IsType (.mark '\x7b' :: (Token.commaSeparated names ++ [.mark '\x7d']))
  /-- `@E`, with one marker only -/
  | resource {ts : List Token} : IsType ts → ts.head? ≠ some (.mark '@') →
      IsType (.mark '@' :: ts)

theorem IsName.ne_nil {ts : List Token} (h : IsName ts) : ts ≠ [] := by
  obtain ⟨first, parts, -, rfl⟩ := h
  simp [Token.dotted]

theorem IsType.ne_nil {ts : List Token} (h : IsType ts) : ts ≠ [] := by
  induction h with
  | name hname => exact hname.ne_nil
  | _ => simp

theorem IsName.head_ne {ts : List Token} (h : IsName ts) (rest : List Token) :
    (ts ++ rest).head? ≠ some (.mark '@') := by
  obtain ⟨first, parts, -, rfl⟩ := h
  simp [Token.dotted]

/-- The brackets of a type have their partners. -/
theorem IsType.nested {ts : List Token} (h : IsType ts) : Bracket.Nested ts := by
  have hname : ∀ {ts : List Token}, IsName ts → Bracket.Nested ts := by
    rintro _ ⟨first, parts, -, rfl⟩
    exact Token.dotted_induction (fun _ => .singleton rfl rfl) (.singleton rfl rfl) .append first parts
  have hnames : ∀ {names : List (List Token)}, (∀ ts ∈ names, IsName ts) →
      Bracket.Nested (Token.commaSeparated names) := fun h =>
    Token.commaSeparated_induction .nil (.singleton rfl rfl) .append fun ts hts => hname (h ts hts)
  induction h with
  | name h => exact hname h
  | optional _ ih => exact ih.append (.singleton rfl rfl)
  | array _ ih => exact .enclosed rfl ih
  | constant _ _ ih =>
    simpa using Bracket.Nested.enclosed (c := '[') rfl
      (ih.append (.token rfl rfl (.token rfl rfl .nil)))
  | dictionary _ _ ihkey ihvalue =>
    simpa using Bracket.Nested.enclosed (c := '\x7b') rfl
      (ihkey.append (show Bracket.Nested (.mark ':' :: _) from .token rfl rfl ihvalue))
  | reference _ ih => exact .token rfl rfl ih
  | authorized _ ih => exact .token rfl rfl (.token rfl rfl ih)
  | generic h _ _ ih =>
    refine (hname h).append (.token rfl rfl (.append ?_ (.singleton rfl rfl)))
    exact Token.commaSeparated_induction .nil (.singleton rfl rfl) .append ih
  | restricted h _ hall => exact (hname h).append (.enclosed rfl (hnames hall))
  | restrictions _ hall => exact .enclosed rfl (hnames hall)
  | resource _ _ ih => exact .token rfl rfl ih

/-! ## What goes on with a type -/

/-- The type ends in a name or in the arguments of one. -/
def IsOpenEnded (ts : List Token) : Prop :=
  (∃ name, ts.getLast? = some (.identifier name)) ∨ ts.getLast? = some (.mark '>')

/-- The tokens do not go on with a name: no part of it, no arguments and no restrictions. -/
structure EndsName (rest : List Token) : Prop where
  point : rest.head? ≠ some (.mark '.')
  arguments : rest.head? ≠ some (.mark '<')
  restrictions : hasRestrictions rest = false

/-- The tokens do not go on with the type `ts`. -/
structure EndsType (ts rest : List Token) : Prop where
  optional : rest.head? ≠ some (.mark '?')
  name : IsOpenEnded ts → EndsName rest

theorem endsName_cons {token : Token} {rest : List Token} (hpoint : token ≠ .mark '.')
    (harguments : token ≠ .mark '<') (hbrace : token ≠ .mark '\x7b') : EndsName (token :: rest) where
  point := by simpa using hpoint
  arguments := by simpa using harguments
  restrictions := by simp [hasRestrictions, hbrace]

theorem endsName_nil : EndsName [] := ⟨by simp, by simp, rfl⟩

theorem EndsType.of_endsName {ts rest : List Token} (h : EndsName rest)
    (hoptional : rest.head? ≠ some (.mark '?')) : EndsType ts rest :=
  ⟨hoptional, fun _ => h⟩

theorem IsName.isOpenEnded {ts : List Token} (h : IsName ts) : IsOpenEnded ts := by
  obtain ⟨first, parts, -, rfl⟩ := h
  cases parts using List.reverseRecOn with
  | nil => exact .inl ⟨first, rfl⟩
  | append_singleton parts part => exact .inl ⟨part, by simp [Token.dotted, List.getLast?_cons]⟩

/-! ## Reading the parts of a type -/

/-- Optional marks. -/
def optionalMarks (n : Nat) : List Token :=
  List.replicate n (.mark '?')

theorem wrapOptional_eq_self (type : Ty) {rest : List Token} (h : rest.head? ≠ some (.mark '?')) :
    wrapOptional type rest = (type, rest) := by
  cases rest with
  | nil => rfl
  | cons token rest =>
    have htoken : token ≠ .mark '?' := by simpa using h
    rw [wrapOptional, if_neg htoken]

theorem wrapOptional_optionalMarks (n : Nat) (type : Ty) {rest : List Token}
    (h : rest.head? ≠ some (.mark '?')) :
    wrapOptional type (optionalMarks n ++ rest) = (optional^[n] type, rest) := by
  induction n generalizing type with
  | zero => exact wrapOptional_eq_self type h
  | succ n ih =>
    have hcons : optionalMarks (n + 1) = .mark '?' :: optionalMarks n := rfl
    rw [hcons, List.cons_append, wrapOptional, if_pos rfl, ih, Function.iterate_succ_apply]

theorem consumed_append (ts rest : List Token) : consumed (ts ++ rest) rest = Token.render ts := by
  simp [consumed]

theorem afterDots_dotted (parts : List Text) (rest : List Token)
    (h : rest.head? ≠ some (.mark '.')) :
    afterDots (parts.flatMap (fun part => [.mark '.', .identifier part]) ++ rest) = rest := by
  induction parts with
  | nil =>
    rw [List.flatMap_nil, List.nil_append]
    unfold afterDots
    split
    · next c name rest' =>
      have hc : c ≠ '.' := by rintro rfl; simp at h
      rw [if_neg hc]
    · rfl
  | cons part parts ih => simpa [afterDots] using ih

theorem endsRestriction_dotted (parts : List Text) (rest : List Token) :
    endsRestriction (parts.flatMap (fun part => [.mark '.', .identifier part]) ++ rest) =
      endsRestriction rest := by
  induction parts with
  | nil => rfl
  | cons part parts ih => simpa [endsRestriction] using ih

theorem endsRestriction_comma (rest : List Token) :
    endsRestriction (.mark ',' :: rest) = startsRestrictions rest := by
  cases rest with
  | nil => simp [endsRestriction, startsRestrictions]
  | cons token rest => simp [endsRestriction]

theorem endsRestriction_brace (rest : List Token) :
    endsRestriction (.mark '\x7d' :: rest) = true := by
  cases rest <;> simp [endsRestriction]

/-- Names with commas between them are restrictions. -/
theorem startsRestrictions_names {names : List (List Token)} (hne : names ≠ [])
    (h : ∀ ts ∈ names, IsName ts) (rest : List Token) :
    startsRestrictions (Token.commaSeparated names ++ .mark '\x7d' :: rest) = true := by
  have hname : ∀ {ts : List Token}, IsName ts → ∀ rest,
      startsRestrictions (ts ++ rest) = endsRestriction rest := by
    rintro _ ⟨first, parts, -, rfl⟩ rest
    exact endsRestriction_dotted parts rest
  induction names with
  | nil => exact absurd rfl hne
  | cons first others ih =>
    obtain ⟨hfirst, hothers⟩ := List.forall_mem_cons.mp h
    cases others with
    | nil => rw [Token.commaSeparated_singleton, hname hfirst, endsRestriction_brace]
    | cons second others =>
      rw [Token.commaSeparated_cons_cons, List.append_assoc, hname hfirst, List.cons_append,
        endsRestriction_comma, ih (by simp) hothers]

theorem brace_not_mem_names {names : List (List Token)} (h : ∀ ts ∈ names, IsName ts) :
    Token.mark '\x7d' ∉ Token.commaSeparated names := by
  refine fun hmem => Token.forall_mem_commaSeparated (P := (· ≠ .mark '\x7d')) (by simp) ?_ _ hmem rfl
  intro ts hts
  obtain ⟨first, parts, -, rfl⟩ := h ts hts
  exact Token.forall_mem_dotted (P := (· ≠ .mark '\x7d')) (by simp) (by simp) first parts

theorem skipRestrictions_append {ts : List Token} (h : Token.mark '\x7d' ∉ ts) (rest : List Token) :
    skipRestrictions (ts ++ .mark '\x7d' :: rest) = .ok rest := by
  have hdrop : (ts ++ .mark '\x7d' :: rest).dropWhile (· ≠ Token.mark '\x7d') =
      .mark '\x7d' :: rest := by
    rw [List.dropWhile_append_of_pos (by simpa using fun token ht => ne_of_mem_of_not_mem ht h)]
    simp
  rw [skipRestrictions, hdrop, expect, if_pos rfl]

theorem readDecimal_of_isSize {digits : Text} (h : IsSize digits) :
    digits.all CodePoint.isDigit = true ∧
      Numeral.readDecimal digits = .ok (sizeOfDigits digits) := by
  obtain ⟨hne, hlength, hdigits⟩ := h
  have hdigit : ∀ d ∈ digits,
      Numeral.digitChar (d.val - 48) = d ∧ d.val - 48 < 10 ∧ d.isDigit = true :=
    fun d hd => CodePoint.of_between
      (P := fun d => Numeral.digitChar (d.val - 48) = d ∧ d.val - 48 < 10 ∧ d.isDigit = true)
      (by decide) (CodePoint.isAsciiDigit_iff.mp (hdigits d hd)).1
      (CodePoint.isAsciiDigit_iff.mp (hdigits d hd)).2
  refine ⟨List.all_eq_true.mpr fun d hd => (hdigit d hd).2.2, ?_⟩
  have hmap : (digits.map fun d => d.val - 48).map Numeral.digitChar = digits := by
    rw [List.map_map]
    exact (List.map_congr_left fun d hd => (hdigit d hd).1).trans (List.map_id digits)
  conv_lhs => rw [← hmap]
  refine Numeral.readDecimal_map_digitChar (fun n hn => ?_) (by simpa using hne)
    (by simpa using hlength)
  obtain ⟨d, hd, rfl⟩ := List.mem_map.mp hn
  exact (hdigit d hd).2.1

theorem readSize_number {digits : Text} (h : IsSize digits) (rest : List Token) :
    readSize (.number digits :: .mark ']' :: rest) = .ok (sizeOfDigits digits, rest) := by
  obtain ⟨hall, hsize⟩ := readDecimal_of_isSize h
  simp only [readSize, List.head?_cons, Option.map_some, Token.text, Option.getD_some, hall]
  simp [h.1, expect, hsize, bind, Except.bind]

/-! ## Types without optional marks -/

/-- Without marker and optional marks, `ts` is read as `type`. A type takes two calls for each of its
tokens, and this is the second call for the first one. -/
def ReadsBase (ts : List Token) (type : Ty) : Prop :=
  ∀ fuel rest, 2 * ts.length ≤ fuel + 1 → (IsOpenEnded ts → EndsName rest) →
    readBase fuel (ts ++ rest) = .ok (type, rest)

/-- With `n` optional marks behind it, `ts` is read as `type`. -/
def Reads (ts : List Token) (n : Nat) (type : Ty) : Prop :=
  ∀ fuel rest, 2 * ts.length ≤ fuel → EndsType (ts ++ optionalMarks n) rest →
    readWith fuel (ts ++ (optionalMarks n ++ rest)) = .ok (type, rest)

/-- Optional marks behind a type belong to it as a whole, if none of its parts takes them. -/
theorem ReadsBase.reads {ts : List Token} {type : Ty} (h : ReadsBase ts type) (hne : ts ≠ [])
    (hmarker : ts.head? ≠ some (.mark '@')) (n : Nat) : Reads ts n (optional^[n] type) := by
  intro fuel rest hfuel hrest
  have hlength : 0 < ts.length := List.length_pos_iff.mpr hne
  obtain ⟨fuel, rfl⟩ : ∃ f, fuel = f + 1 := ⟨fuel - 1, by omega⟩
  have hname : IsOpenEnded ts → EndsName (optionalMarks n ++ rest) := by
    intro hopen
    cases n with
    | zero => exact hrest.name (by simpa [optionalMarks] using hopen)
    | succ n => exact endsName_cons (by simp) (by simp) (by simp)
  have hhead : (ts ++ (optionalMarks n ++ rest)).head? ≠ some (.mark '@') := by
    rwa [List.head?_append_of_ne_nil _ hne]
  rw [readWith, if_neg hhead, h fuel _ hfuel hname, ok_bind]
  simp only [wrapOptional_optionalMarks n type hrest.optional]

theorem Reads.read {ts : List Token} {type : Ty} (h : Reads ts 0 type) {fuel : Nat}
    (hfuel : 2 * ts.length ≤ fuel) {rest : List Token} (hrest : EndsType ts rest) :
    readWith fuel (ts ++ rest) = .ok (type, rest) :=
  h fuel rest hfuel (by simpa [optionalMarks] using hrest)

/-- A mark inside brackets ends every type. -/
theorem endsType_mark {ts rest : List Token} {c : CodePoint}
    (h : c ≠ '?' ∧ c ≠ '.' ∧ c ≠ '<' ∧ c ≠ '\x7b') : EndsType ts (.mark c :: rest) :=
  .of_endsName (endsName_cons (by simpa using h.2.1) (by simpa using h.2.2.1)
    (by simpa using h.2.2.2)) (by simpa using h.1)

theorem readsBase_name {ts : List Token} (h : IsName ts) :
    ReadsBase ts (ofName (Token.render ts)) := by
  intro fuel rest hfuel hrest
  have hends := hrest h.isOpenEnded
  obtain ⟨first, parts, hfirst, rfl⟩ := h
  obtain ⟨fuel, rfl⟩ : ∃ f, fuel = f + 1 := ⟨fuel - 1, by simp [Token.dotted] at hfuel; omega⟩
  have hconsumed := consumed_append (Token.dotted first parts) rest
  rw [Token.dotted, List.cons_append] at hconsumed ⊢
  rw [readBase]
  simp only [afterDots_dotted parts rest hends.point]
  simp [hfirst, hconsumed, hends.arguments, hends.restrictions, bind, Except.bind]

theorem readsBase_array {ts : List Token} {type : Ty} (h : Reads ts 0 type) :
    ReadsBase (.mark '[' :: (ts ++ [.mark ']'])) (array type) := by
  intro fuel rest hfuel _
  simp only [List.length_cons, List.length_append, List.length_nil] at hfuel
  obtain ⟨fuel, rfl⟩ : ∃ f, fuel = f + 1 := ⟨fuel - 1, by omega⟩
  have hread : readWith fuel (ts ++ .mark ']' :: rest) = .ok (type, .mark ']' :: rest) :=
    h.read (by omega) (endsType_mark (by decide))
  simp only [List.cons_append, List.append_assoc, List.nil_append]
  simp [readBase, hread, expect, bind, Except.bind]

theorem readsBase_constant {ts : List Token} {type : Ty} (h : Reads ts 0 type) {digits : Text}
    (hdigits : IsSize digits) :
    ReadsBase (.mark '[' :: (ts ++ [.mark ';', .number digits, .mark ']']))
      (constant type (sizeOfDigits digits)) := by
  intro fuel rest hfuel _
  simp only [List.length_cons, List.length_append, List.length_nil] at hfuel
  obtain ⟨fuel, rfl⟩ : ∃ f, fuel = f + 1 := ⟨fuel - 1, by omega⟩
  have hread : readWith fuel (ts ++ .mark ';' :: .number digits :: .mark ']' :: rest) =
      .ok (type, .mark ';' :: .number digits :: .mark ']' :: rest) :=
    h.read (by omega) (endsType_mark (by decide))
  simp only [List.cons_append, List.append_assoc, List.nil_append]
  simp [readBase, hread, readSize_number hdigits, bind, Except.bind]

theorem readsBase_dictionary {key value : List Token} {keyType valueType : Ty}
    (hkey : Reads key 0 keyType) (hvalue : Reads value 0 valueType) :
    ReadsBase (.mark '\x7b' :: (key ++ .mark ':' :: (value ++ [.mark '\x7d'])))
      (dictionary keyType valueType) := by
  intro fuel rest hfuel _
  simp only [List.length_cons, List.length_append, List.length_nil] at hfuel
  obtain ⟨fuel, rfl⟩ : ∃ f, fuel = f + 1 := ⟨fuel - 1, by omega⟩
  have hreadkey : readWith fuel (key ++ .mark ':' :: (value ++ .mark '\x7d' :: rest)) =
      .ok (keyType, .mark ':' :: (value ++ .mark '\x7d' :: rest)) :=
    hkey.read (by omega) (endsType_mark (by decide))
  have hreadvalue : readWith fuel (value ++ .mark '\x7d' :: rest) =
      .ok (valueType, .mark '\x7d' :: rest) :=
    hvalue.read (by omega) (endsType_mark (by decide))
  simp only [List.cons_append, List.append_assoc, List.nil_append]
  simp [readBase, hreadkey, hreadvalue, expect, bind, Except.bind]

theorem IsName.reads {ts : List Token} (h : IsName ts) : Reads ts 0 (ofName (Token.render ts)) :=
  (readsBase_name h).reads h.ne_nil (by simpa using h.head_ne []) 0

theorem readsBase_restrictions {names : List (List Token)} (hne : names ≠ [])
    (h : ∀ ts ∈ names, IsName ts) :
    ReadsBase (.mark '\x7b' :: (Token.commaSeparated names ++ [.mark '\x7d']))
      (nominal (Token.render (.mark '\x7b' :: (Token.commaSeparated names ++ [.mark '\x7d'])))) := by
  intro fuel rest hfuel _
  have hconsumed :=
    consumed_append (.mark '\x7b' :: (Token.commaSeparated names ++ [.mark '\x7d'])) rest
  simp only [List.length_cons, List.length_append, List.length_nil] at hfuel
  obtain ⟨fuel, rfl⟩ : ∃ f, fuel = f + 1 := ⟨fuel - 1, by omega⟩
  simp only [List.cons_append, List.append_assoc, List.nil_append] at hconsumed ⊢
  -- The first name is read as a key, and what follows it is skipped for not being a colon.
  obtain ⟨type, tail, hread, hcolon, hskip⟩ : ∃ type tail,
      readWith fuel (Token.commaSeparated names ++ .mark '\x7d' :: rest) = .ok (type, tail) ∧
        tail.head? ≠ some (.mark ':') ∧ skipRestrictions tail = .ok rest := by
    cases names with
    | nil => exact absurd rfl hne
    | cons first others =>
      obtain ⟨hfirst, hothers⟩ := List.forall_mem_cons.mp h
      cases others with
      | nil =>
        rw [Token.commaSeparated_singleton] at hfuel ⊢
        exact ⟨_, _, hfirst.reads.read (by omega)
          (endsType_mark (by decide)), by simp,
          skipRestrictions_append List.not_mem_nil rest⟩
      | cons second others =>
        have hbrace : Token.mark '\x7d' ∉ .mark ',' :: Token.commaSeparated (second :: others) := by
          simpa using brace_not_mem_names hothers
        rw [Token.commaSeparated_cons_cons] at hfuel ⊢
        simp only [List.length_append, List.length_cons] at hfuel
        rw [List.append_assoc]
        exact ⟨_, _, hfirst.reads.read (by omega)
          (endsType_mark (by decide)), by simp,
          skipRestrictions_append hbrace rest⟩
  simp [readBase, hread, hcolon, hskip, hconsumed, bind, Except.bind]

/-- Behind a name, what looks like restrictions is read as such up to the first closing brace. -/
theorem readBase_restrictions {name inside rest : List Token} (hname : IsName name)
    (hinside : startsRestrictions (inside ++ .mark '\x7d' :: rest) = true)
    (hbrace : Token.mark '\x7d' ∉ inside) (fuel : Nat) :
    readBase (fuel + 1) (name ++ .mark '\x7b' :: (inside ++ .mark '\x7d' :: rest)) =
      .ok (nominal (Token.render (name ++ .mark '\x7b' :: (inside ++ [.mark '\x7d']))), rest) := by
  have hconsumed := consumed_append (name ++ .mark '\x7b' :: (inside ++ [.mark '\x7d'])) rest
  have hskip := skipRestrictions_append hbrace rest
  obtain ⟨first, parts, hfirst, rfl⟩ := hname
  rw [Token.dotted] at hconsumed ⊢
  simp only [List.cons_append, List.append_assoc, List.nil_append] at hconsumed ⊢
  have hnamed := afterDots_dotted parts
    (.mark '\x7b' :: (inside ++ .mark '\x7d' :: rest)) (by simp)
  rw [readBase]
  simp only [hnamed]
  simp [hfirst, hasRestrictions, hinside, hskip, hconsumed, bind, Except.bind]

theorem readsBase_restricted {name : List Token} {names : List (List Token)} (hname : IsName name)
    (hne : names ≠ []) (h : ∀ ts ∈ names, IsName ts) :
    ReadsBase (name ++ .mark '\x7b' :: (Token.commaSeparated names ++ [.mark '\x7d']))
      (nominal (Token.render
        (name ++ .mark '\x7b' :: (Token.commaSeparated names ++ [.mark '\x7d'])))) := by
  intro fuel rest hfuel _
  simp only [List.length_append, List.length_cons, List.length_nil] at hfuel
  obtain ⟨fuel, rfl⟩ : ∃ f, fuel = f + 1 := ⟨fuel - 1, by omega⟩
  simpa using readBase_restrictions hname (startsRestrictions_names hne h rest)
    (brace_not_mem_names h) fuel

/-- The arguments of a generic type are read up to its closing bracket. -/
theorem readArguments_commaSeparated {arguments : List (List Token)} (hne : arguments ≠ [])
    (h : ∀ ts ∈ arguments, ∃ type, Reads ts 0 type) {fuel : Nat}
    (hfuel : 2 * (Token.commaSeparated arguments).length + 1 ≤ fuel) (rest : List Token) :
    readArguments fuel (Token.commaSeparated arguments ++ .mark '>' :: rest) = .ok rest := by
  induction arguments generalizing fuel with
  | nil => exact absurd rfl hne
  | cons first others ih =>
    obtain ⟨⟨type, hfirst⟩, hothers⟩ := List.forall_mem_cons.mp h
    obtain ⟨fuel, rfl⟩ : ∃ f, fuel = f + 1 := ⟨fuel - 1, by omega⟩
    cases others with
    | nil =>
      rw [Token.commaSeparated_singleton] at hfuel ⊢
      rw [readArguments, hfirst.read (by omega)
        (endsType_mark (by decide))]
      simp [expect, bind, Except.bind]
    | cons second others =>
      rw [Token.commaSeparated_cons_cons] at hfuel ⊢
      simp only [List.length_append, List.length_cons] at hfuel
      rw [List.append_assoc, readArguments, List.cons_append, hfirst.read (by omega)
        (endsType_mark (by decide))]
      simpa [bind, Except.bind] using ih (by simp) hothers (by omega)

theorem readsBase_generic {name : List Token} {arguments : List (List Token)} (hname : IsName name)
    (hne : arguments ≠ []) (h : ∀ ts ∈ arguments, ∃ type, Reads ts 0 type) :
    ReadsBase (name ++ .mark '<' :: (Token.commaSeparated arguments ++ [.mark '>']))
      (nominal (Token.render
        (name ++ .mark '<' :: (Token.commaSeparated arguments ++ [.mark '>'])))) := by
  intro fuel rest hfuel hrest
  have hends : EndsName rest := hrest (.inr (by
    rw [← List.cons_append, ← List.append_assoc]
    exact List.getLast?_concat))
  have hconsumed :=
    consumed_append (name ++ .mark '<' :: (Token.commaSeparated arguments ++ [.mark '>'])) rest
  obtain ⟨first, parts, hfirst, rfl⟩ := hname
  simp only [Token.dotted, List.length_cons, List.length_append, List.length_nil] at hfuel
  obtain ⟨fuel, rfl⟩ : ∃ f, fuel = f + 1 := ⟨fuel - 1, by omega⟩
  have harguments :
      readArguments fuel (Token.commaSeparated arguments ++ .mark '>' :: rest) = .ok rest :=
    readArguments_commaSeparated hne h (by omega) rest
  rw [Token.dotted] at hconsumed ⊢
  simp only [List.cons_append, List.append_assoc, List.nil_append] at hconsumed ⊢
  have hnamed := afterDots_dotted parts
    (.mark '<' :: (Token.commaSeparated arguments ++ .mark '>' :: rest)) (by simp)
  rw [readBase]
  simp only [hnamed]
  simp [hfirst, harguments, hends.restrictions, hconsumed, bind, Except.bind]

/-! ## References -/

theorem endsType_append_left (us : List Token) {ts rest : List Token}
    (h : EndsType (us ++ ts) rest) (hne : ts ≠ []) : EndsType ts rest where
  optional := h.optional
  name hopen := h.name (by rwa [IsOpenEnded, List.getLast?_append_of_ne_nil _ hne])

/-- A reference takes the optional marks behind it to the type it refers to. -/
theorem Reads.reference {ts : List Token} {n : Nat} {type : Ty} (h : Reads ts n type)
    (hne : ts ≠ []) :
    Reads (.mark '&' :: ts) n
      (nominal (Token.render (.mark '&' :: (ts ++ optionalMarks n)))) := by
  intro fuel rest hfuel hrest
  have hconsumed := consumed_append (.mark '&' :: (ts ++ optionalMarks n)) rest
  simp only [List.length_cons] at hfuel
  obtain ⟨fuel, rfl⟩ : ∃ f, fuel = f + 2 := ⟨fuel - 2, by omega⟩
  have hread := h fuel rest (by omega)
    (endsType_append_left [.mark '&'] hrest (by simp [hne]))
  simp only [List.cons_append, List.append_assoc] at hconsumed ⊢
  rw [readWith, if_neg (by simp)]
  simp [readBase, hread, hconsumed, wrapOptional_eq_self _ hrest.optional, bind, Except.bind]

theorem Reads.authorized {ts : List Token} {n : Nat} {type : Ty} (h : Reads ts n type)
    (hne : ts ≠ []) :
    Reads (.identifier "auth" :: .mark '&' :: ts) n
      (nominal (Token.render (.identifier "auth" :: .mark '&' :: (ts ++ optionalMarks n)))) := by
  intro fuel rest hfuel hrest
  have hconsumed :=
    consumed_append (.identifier "auth" :: .mark '&' :: (ts ++ optionalMarks n)) rest
  simp only [List.length_cons] at hfuel
  obtain ⟨fuel, rfl⟩ : ∃ f, fuel = f + 2 := ⟨fuel - 2, by omega⟩
  have hread := h fuel rest (by omega)
    (endsType_append_left [.identifier "auth", .mark '&'] hrest (by simp [hne]))
  simp only [List.cons_append, List.append_assoc] at hconsumed ⊢
  rw [readWith, if_neg (by simp)]
  simp [readBase, hread, hconsumed, expect, wrapOptional_eq_self _ hrest.optional, bind,
    Except.bind]

/-! ## Reading types -/

/-- The first of the optional marks behind a type may as well belong to it. -/
theorem Reads.optional {ts : List Token} {n : Nat} {type : Ty} (h : Reads ts (n + 1) type) :
    Reads (ts ++ [.mark '?']) n type := by
  intro fuel rest hfuel hrest
  have hmarks : optionalMarks (n + 1) = .mark '?' :: optionalMarks n := rfl
  simp only [List.length_append] at hfuel
  have hread := h fuel rest (by omega) (by rwa [hmarks, ← List.singleton_append, ← List.append_assoc])
  rwa [hmarks, ← List.singleton_append, List.append_assoc, ← List.append_assoc ts] at hread

/-- A marker in front of a type is dropped. -/
theorem Reads.resource {ts : List Token} {n : Nat} {type : Ty} (h : Reads ts n type)
    (hne : ts ≠ []) (hmarker : ts.head? ≠ some (.mark '@')) : Reads (.mark '@' :: ts) n type := by
  intro fuel rest hfuel hrest
  simp only [List.length_cons] at hfuel
  obtain ⟨fuel, rfl⟩ : ∃ f, fuel = f + 1 := ⟨fuel - 1, by omega⟩
  have hread := h (fuel + 1) rest (by omega)
    (endsType_append_left [.mark '@'] hrest (by simp [hne]))
  have hhead : (ts ++ (optionalMarks n ++ rest)).head? ≠ some (.mark '@') := by
    rwa [List.head?_append_of_ne_nil _ hne]
  rw [readWith, if_neg hhead] at hread
  rw [readWith, List.cons_append, if_pos List.head?_cons]
  exact hread

end Ty

end ContractKit
