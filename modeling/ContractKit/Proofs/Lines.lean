import ContractKit.Proofs.Declaration

/-!
# Declarations on lines of their own

The texts of complete declarations, put on lines of their own, form the program of all of them, and the
bodies of its functions do not matter (`Program.parse_joinLines`). What is excepted are bodies that are
taken for restrictions of a result type: such a body may hide the declaration behind it
(`Program.not_parse_joinLines_of_mistaken`).
-/

namespace ContractKit

/-- Texts with line ends between them. -/
def Text.joinLines (texts : List Text) : Text :=
  [('\n' : CodePoint)].intercalate texts

/-- Lines are scanned one by one. -/
theorem Token.scan_joinLines {texts : List Text} {lines : List (List Token)}
    (h : List.Forall₂ (fun s ts => Token.scan s = .ok ts) texts lines) :
    Token.scan (Text.joinLines texts) = .ok lines.flatten := by
  induction h with
  | nil => exact Token.scan_nil
  | @cons s ts texts lines hs hrest ih =>
    cases hrest with
    | nil => simpa [Text.joinLines] using hs
    | @cons t us texts lines ht hrest =>
      have hjoin : Text.joinLines (s :: t :: texts) =
          s ++ ('\n' : CodePoint) :: Text.joinLines (t :: texts) := by
        simp [Text.joinLines, List.intercalate_cons_cons]
      rw [hjoin, (Token.written_of_scan hs).scan_append_line, ih]
      rfl

/-- Another declaration that differs from the first at most in the body of a function. -/
inductive DeclarationSource.SameButBody : DeclarationSource → DeclarationSource → Prop
  /-- The same declaration. -/
  | same (d : DeclarationSource) : SameButBody d d
  /-- The same function with another body. -/
  | body (modifiers : List Modifier) (f : FunctionSource) (body : List Token)
      (h : Bracket.Nested body) :
      SameButBody ⟨modifiers, .function f⟩ ⟨modifiers, .function (f.withBody body h)⟩

theorem DeclarationSource.SameButBody.read_eq {d e : DeclarationSource} (h : d.SameButBody e) :
    e.read = d.read := by
  cases h <;> rfl

namespace Program

theorem parse_of_scan {text : Text} {tokens : List Token} (h : Token.scan text = .ok tokens) :
    parse text = ofTokens tokens := by
  rw [parse, h]

/-- Texts of declarations on lines of their own are read one by one. -/
theorem parse_lines {ds : List DeclarationSource} {texts : List Text}
    (htexts : List.Forall₂ (fun d s => Token.scan s = .ok d.tokens) ds texts)
    (h : ∀ d ∈ ds, ¬d.core.IsMistaken) :
    parse (Text.joinLines texts) = (ds.mapM DeclarationSource.read).map Program.mk := by
  have hlines : List.Forall₂ (fun s ts => Token.scan s = .ok ts) texts
      (ds.map DeclarationSource.tokens) :=
    List.forall₂_map_right_iff.mpr (List.Forall₂.flip htexts)
  rw [parse_of_scan (Token.scan_joinLines hlines), ← List.flatMap_def]
  exact DeclarationSource.ofTokens_flatMap h

/-- The text of one declaration forms the program of this declaration. -/
theorem parse_text {d : DeclarationSource} {text : Text} (htext : Token.scan text = .ok d.tokens)
    (h : ¬d.core.IsMistaken) : parse text = d.read.map fun declaration => ⟨[declaration]⟩ := by
  have hlines := parse_lines (.cons htext .nil) (by simpa using h)
  rw [Text.joinLines, List.intercalate_singleton] at hlines
  rw [hlines]
  cases hread : d.read <;> simp [hread, Except.map, bind, Except.bind, pure, Except.pure]

/-- Declarations that are programs by themselves are read, and each is the program of one. -/
theorem exists_declarations {ds : List DeclarationSource} {texts : List Text}
    (htexts : List.Forall₂ (fun d s => Token.scan s = .ok d.tokens) ds texts)
    (hmistaken : ∀ d ∈ ds, ¬d.core.IsMistaken)
    (haccepted : ∀ s ∈ texts, ∃ program, parse s = .ok program) :
    ∃ declarations, ds.mapM DeclarationSource.read = .ok declarations ∧
      List.Forall₂ (fun s p => parse s = .ok p) texts
        (declarations.map fun declaration => ⟨[declaration]⟩) := by
  induction htexts with
  | nil => exact ⟨[], rfl, .nil⟩
  | @cons d s ds texts hs _ ih =>
    obtain ⟨hd, hds⟩ := List.forall_mem_cons.mp hmistaken
    obtain ⟨⟨program, hprogram⟩, hothers⟩ := List.forall_mem_cons.mp haccepted
    obtain ⟨declaration, hread, -⟩ := map_eq_ok_iff.mp ((parse_text hs hd).symm.trans hprogram)
    obtain ⟨declarations, hreads, hparse⟩ := ih hds hothers
    refine ⟨declaration :: declarations, ?_, .cons ?_ hparse⟩
    · rw [List.mapM_cons, hread, hreads]
      rfl
    · rw [parse_text hs hd, hread]
      rfl

/-- Choosing from a list is choosing from its items one by one. -/
theorem filterMap_eq_flatMap {β : Type} (f : Declaration → Option β) (xs : List Declaration) :
    xs.filterMap f =
      (xs.map fun x => (⟨[x]⟩ : Program)).flatMap fun p => p.declarations.filterMap f := by
  induction xs with
  | nil => rfl
  | cons x xs ih =>
    rw [List.map_cons, List.flatMap_cons, ← ih]
    cases hx : f x <;> simp [hx]

/-- Declarations that are programs by themselves form a program when their texts are put on lines of
their own. Its functions, transactions, composite types and interfaces are those of the declarations,
in order, and other bodies of functions make no difference. -/
theorem parse_joinLines {ds : List DeclarationSource} {texts : List Text}
    (htexts : List.Forall₂ (fun d s => Token.scan s = .ok d.tokens) ds texts)
    (hmistaken : ∀ d ∈ ds, ¬d.core.IsMistaken)
    (haccepted : ∀ s ∈ texts, ∃ program, parse s = .ok program) :
    ∃ programs program, List.Forall₂ (fun s p => parse s = .ok p) texts programs ∧
      parse (Text.joinLines texts) = .ok program ∧
      program.functions = programs.flatMap functions ∧
      program.transactions = programs.flatMap transactions ∧
      program.composites = programs.flatMap composites ∧
      program.interfaces = programs.flatMap interfaces ∧
      ∀ es others, List.Forall₂ DeclarationSource.SameButBody ds es →
        (∀ e ∈ es, ¬e.core.IsMistaken) →
        List.Forall₂ (fun e s => Token.scan s = .ok e.tokens) es others →
        parse (Text.joinLines others) = .ok program := by
  obtain ⟨declarations, hreads, hparse⟩ := exists_declarations htexts hmistaken haccepted
  refine ⟨_, ⟨declarations⟩, hparse, ?_, filterMap_eq_flatMap _ _, filterMap_eq_flatMap _ _,
    filterMap_eq_flatMap _ _, filterMap_eq_flatMap _ _, fun es others hsame hes hothers => ?_⟩
  · rw [parse_lines htexts hmistaken, hreads]
    rfl
  · have hread : es.mapM DeclarationSource.read = ds.mapM DeclarationSource.read := by
      clear htexts hmistaken haccepted hreads hparse hes hothers
      induction hsame with
      | nil => rfl
      | cons hd _ ih => rw [List.mapM_cons, List.mapM_cons, hd.read_eq, ih]
    rw [parse_lines hothers hes, hread, hreads]
    rfl

/-- A function and a contract, each on a line of its own. The body of the function looks like
restrictions of its result type, but hides nothing. -/
theorem parse_joinLines_function_contract :
    ∃ programs program,
      List.Forall₂ (fun s p => parse s = .ok p)
        ["access(all) fun f(): T \x7ba\x7d", "contract C: I \x7b init() \x7b\x7d \x7d"] programs ∧
      parse (Text.joinLines
        ["access(all) fun f(): T \x7ba\x7d", "contract C: I \x7b init() \x7b\x7d \x7d"]) = .ok program ∧
      program.functions = programs.flatMap functions ∧
      program.composites = programs.flatMap composites := by
  let f : FunctionSource :=
    { name := "f", parameters := [], result := some [.identifier "T"], body := [.identifier "a"]
      nested_parameters := .nil
      isPlain_result := fun ts hts => Option.mem_some.mp hts ▸ .name ⟨"T", [], by decide, rfl⟩
      nested_body := .identifier "a" .nil }
  let d : DeclarationSource :=
    ⟨[.word "access" (by decide), .group [.identifier "all"] (.identifier _ .nil)], .function f⟩
  let c : CompositeSource :=
    { kind := "contract", isInterface := false, name := "C", conformances := [("I", [])]
      body := .identifier "init" :: .mark '(' :: .mark ')' :: .mark '\x7b' :: [.mark '\x7d']
      kind_mem := by decide, kind_ne := by decide, name_ne := by decide
      nested_body := Bracket.check_eq_ok_iff.mp rfl }
  let e : DeclarationSource := ⟨[], .composite c⟩
  have hd : Token.scan "access(all) fun f(): T \x7ba\x7d" = .ok d.tokens := by cbv
  have he : Token.scan "contract C: I \x7b init() \x7b\x7d \x7d" = .ok e.tokens := by cbv
  have hmistaken : ∀ d' ∈ [d, e], ¬d'.core.IsMistaken := by
    simp [d, e, f, CoreSource.IsMistaken, FunctionSource.IsMistaken]
  have hf := (parse_of_scan hd).trans (show ofTokens d.tokens = .ok ⟨[.function ⟨"f", []⟩]⟩ from rfl)
  have hc := (parse_of_scan he).trans
    (show ofTokens e.tokens = .ok ⟨[.composite ⟨"contract", "C", [⟨"init", []⟩]⟩]⟩ from rfl)
  obtain ⟨programs, program, hprograms, hprogram, hfunctions, -, hcomposites, -⟩ :=
    parse_joinLines (.cons hd (.cons he .nil)) hmistaken
      (List.forall_mem_cons.mpr ⟨⟨_, hf⟩, List.forall_mem_singleton.mpr ⟨_, hc⟩⟩)
  exact ⟨programs, program, hprograms, hprogram, hfunctions, hcomposites⟩

/-- A function whose body looks like restrictions up to a brace inside it: what follows that brace is
read as declarations, and the function on the next line is lost as the body of one of them. -/
theorem not_parse_joinLines_of_mistaken :
    ∃ d e : DeclarationSource,
      Token.scan "fun f(): T \x7b a.\x7b\x7d contract X \x7d" = .ok d.tokens ∧
      Token.scan "fun g() \x7b\x7d" = .ok e.tokens ∧
      ∃ p q r, parse "fun f(): T \x7b a.\x7b\x7d contract X \x7d" = .ok p ∧
        parse "fun g() \x7b\x7d" = .ok q ∧
        parse (Text.joinLines ["fun f(): T \x7b a.\x7b\x7d contract X \x7d", "fun g() \x7b\x7d"]) =
          .ok r ∧
        r.functions ≠ p.functions ++ q.functions := by
  let f : FunctionSource :=
    { name := "f", parameters := [], result := some [.identifier "T"]
      body := .identifier "a" :: .mark '.' :: .mark '\x7b' :: .mark '\x7d' ::
        [.identifier "contract", .identifier "X"]
      nested_parameters := .nil
      isPlain_result := fun ts hts => Option.mem_some.mp hts ▸ .name ⟨"T", [], by decide, rfl⟩
      nested_body := Bracket.check_eq_ok_iff.mp rfl }
  let g : FunctionSource :=
    { name := "g", parameters := [], result := none, body := [], nested_parameters := .nil
      isPlain_result := by simp, nested_body := .nil }
  let d : DeclarationSource := ⟨[], .function f⟩
  let e : DeclarationSource := ⟨[], .function g⟩
  have hd : Token.scan "fun f(): T \x7b a.\x7b\x7d contract X \x7d" = .ok d.tokens := by cbv
  have he : Token.scan "fun g() \x7b\x7d" = .ok e.tokens := by cbv
  exact ⟨d, e, hd, he, ⟨[.function ⟨"f", []⟩]⟩, ⟨[.function ⟨"g", []⟩]⟩,
    ⟨[.function ⟨"f", []⟩, .composite ⟨"contract", "X", []⟩]⟩, (parse_of_scan hd).trans rfl,
    (parse_of_scan he).trans rfl,
    (parse_of_scan (Token.scan_joinLines (.cons hd (.cons he .nil)))).trans rfl, by simp [functions]⟩

end Program

end ContractKit
