import ContractKit.Proofs.Layout
import ContractKit.Source.Program

/-!
# Tokens cover their source

A source text is cut into tokens with gaps around them, and nothing of it is lost. A `Piece` is a token
with the gap in front of it, and `Covers` says that pieces and a last gap fill a text up to a given rest.
A gap is made of blanks and comments (`GapBefore`): a line comment goes up to a line end or the end of
the text, and the line end belongs to the gap. Nothing that a word goes on with stands directly before or
behind one (`Covers.wordsApart`).

Every text is covered up to its end, or up to a string or a block comment that does not end
(`exists_covers`). A scan finds the tokens of the pieces in the first case and fails in the second one, so
it is determined by the cover (`scan_iff_covers`).
-/

namespace ContractKit

/-- What a scan fails at: the text starts a string or a block comment that does not end. -/
inductive ScanError.StartsIn : ScanError → Text → Prop
  /-- A quotation mark without a closing one. -/
  | string {rest : Text} : (∀ body after, rest = body ++ after → ¬ Token.StringRest body) →
      StartsIn .unterminatedString (('"' : CodePoint) :: rest)
  /-- An opening of a comment without its closing. -/
  | comment {rest : Text} : (∀ comment after, rest = comment ++ after → ¬ Token.CommentRest comment) →
      StartsIn .unterminatedComment (('/' : CodePoint) :: ('*' : CodePoint) :: rest)

namespace Token

/-! ## Gaps -/

/-- What may stand between tokens, in front of `rest`. -/
inductive GapBefore (rest : Text) : Text → Prop
  /-- Nothing. -/
  | nil : GapBefore rest []
  /-- A blank. -/
  | blank {c : CodePoint} {gap : Text} : c.isBlank = true → GapBefore rest gap →
      GapBefore rest (c :: gap)
  /-- A comment up to a line end or the end of the text. -/
  | line {comment gap : Text} : (∀ c ∈ comment, c ≠ '\n') → (∀ c ∈ (gap ++ rest).head?, c = '\n') →
      GapBefore rest gap → GapBefore rest (('/' : CodePoint) :: ('/' : CodePoint) :: (comment ++ gap))
  /-- A block comment. -/
  | block {comment gap : Text} : CommentRest comment → GapBefore rest gap →
      GapBefore rest (('/' : CodePoint) :: ('*' : CodePoint) :: (comment ++ gap))

/-- A gap has no tokens. -/
theorem GapBefore.scan_append {rest gap : Text} (h : GapBefore rest gap) :
    scan (gap ++ rest) = scan rest := by
  induction h with
  | nil => rfl
  | blank hblank _ ih => rw [List.cons_append, scan_blank hblank, ih]
  | @line comment gap hcomment hend _ ih =>
    have hstop : ∀ c ∈ (gap ++ rest).head?, decide (c ≠ ('\n' : CodePoint)) = false := by
      simpa using hend
    have hdrop : ((('/' : CodePoint) :: comment) ++ (gap ++ rest)).dropWhile
        (· ≠ ('\n' : CodePoint)) = gap ++ rest :=
      Text.dropWhile_run (by simpa using hcomment) hstop
    simp only [List.cons_append, List.append_assoc] at hdrop ⊢
    rw [scan_line rfl, hdrop, ih]
  | block hcomment _ ih =>
    simp only [List.cons_append, List.append_assoc]
    rw [scan_block rfl (afterComment_append hcomment 0 _), ih]

theorem GapBefore.append {rest gap gap' : Text} (h : GapBefore (gap' ++ rest) gap)
    (h' : GapBefore rest gap') : GapBefore rest (gap ++ gap') := by
  induction h with
  | nil => exact h'
  | blank hblank _ ih => exact .blank hblank ih
  | line hcomment hend _ ih =>
    simpa using GapBefore.line hcomment (by simpa using hend) ih
  | block hcomment _ ih =>
    simpa using GapBefore.block hcomment ih

/-! ## Pieces -/

/-- A token with the gap in front of it. -/
structure Piece where
  /-- Blanks and comments. -/
  gap : Text
  /-- The token. -/
  token : Token

/-- The text of the piece. -/
def Piece.text (piece : Piece) : Text :=
  piece.gap ++ piece.token.text

/-- In front of `rest` stand the pieces and a last gap. Every token has the text of one of its kind and
does not go on with what follows it. -/
def Covers : List Piece → Text → Text → Prop
  | [], last, rest => GapBefore rest last
  | piece :: pieces, last, rest =>
    GapBefore (piece.token.text ++ (pieces.flatMap Piece.text ++ (last ++ rest))) piece.gap ∧
      piece.token.IsProper ∧ piece.token.EndsBefore (pieces.flatMap Piece.text ++ (last ++ rest)) ∧
      Covers pieces last rest

/-- A scan finds the tokens of the pieces and goes on behind them. -/
theorem Covers.scan_append {pieces : List Piece} {last rest : Text} (h : Covers pieces last rest) :
    scan (pieces.flatMap Piece.text ++ (last ++ rest)) =
      (scan rest).map (pieces.map Piece.token ++ ·) := by
  induction pieces with
  | nil =>
    rw [List.flatMap_nil, List.nil_append, GapBefore.scan_append h]
    cases scan rest <;> rfl
  | cons piece pieces ih =>
    obtain ⟨hgap, hproper, hends, hcovers⟩ := h
    rw [List.flatMap_cons, Piece.text, List.append_assoc, List.append_assoc, hgap.scan_append,
      scan_token hproper hends, ih hcovers]
    cases scan rest <;> rfl

theorem scan_startsIn {e : ScanError} {rest : Text} (h : e.StartsIn rest) : scan rest = .error e := by
  cases h with
  | @string rest hopen =>
    rw [scan, if_neg (by decide), if_neg (by simp), if_neg (by simp), if_pos rfl]
    split
    · rfl
    · next body after hbody =>
      obtain ⟨heq, hrest⟩ := stringRest_of_stringBody hbody
      exact absurd hrest (hopen body after heq)
  | @comment rest hopen =>
    rw [scan, if_neg (by decide), if_neg (by simp), if_pos ⟨rfl, rfl⟩]
    split
    · rfl
    · next after hafter =>
      obtain ⟨comment, rest', heq, hcomment, -⟩ := exists_commentRest _ _ le_rfl _ _ hafter
      exact absurd hcomment (hopen comment rest' heq)

/-! ## Every text is covered -/

/-- The text consists of pieces and a last gap, up to its end or to a string or a block comment that
does not end. -/
def IsCovered (s : Text) : Prop :=
  ∃ pieces last rest, s = pieces.flatMap Piece.text ++ (last ++ rest) ∧ Covers pieces last rest ∧
    (rest = [] ∨ ∃ e : ScanError, e.StartsIn rest)

theorem IsCovered.of_gap {gap s : Text} (hgap : GapBefore s gap) (h : IsCovered s) :
    IsCovered (gap ++ s) := by
  obtain ⟨pieces, last, rest, rfl, hcovers, hrest⟩ := h
  cases pieces with
  | nil => exact ⟨[], gap ++ last, rest, by simp, GapBefore.append hgap hcovers, hrest⟩
  | cons piece pieces =>
    obtain ⟨hfirst, hproper, hends, hcovers⟩ := hcovers
    simp only [List.flatMap_cons, Piece.text, List.append_assoc] at hgap ⊢
    exact ⟨⟨gap ++ piece.gap, piece.token⟩ :: pieces, last, rest, by simp [Piece.text],
      ⟨hgap.append hfirst, hproper, hends, hcovers⟩, hrest⟩

theorem IsCovered.of_token {token : Token} {s : Text} (hproper : token.IsProper)
    (hends : token.EndsBefore s) (h : IsCovered s) : IsCovered (token.text ++ s) := by
  obtain ⟨pieces, last, rest, rfl, hcovers, hrest⟩ := h
  exact ⟨⟨[], token⟩ :: pieces, last, rest, by simp [Piece.text], ⟨.nil, hproper, hends, hcovers⟩,
    hrest⟩

theorem isCovered_startsIn {e : ScanError} {s : Text} (h : e.StartsIn s) : IsCovered s :=
  ⟨[], [], s, rfl, .nil, .inr ⟨e, h⟩⟩

/-- Every text is covered. The cases are those of a scan, whatever it returns. -/
theorem exists_covers (s : Text) : IsCovered s := by
  fun_induction scan s with
  | case1 => exact ⟨[], [], [], rfl, .nil, .inl rfl⟩
  | case2 c rest hblank ih => exact ih.of_gap (.blank hblank .nil)
  | case3 c rest hblank hline ih =>
    obtain ⟨rfl, hslash⟩ := hline
    obtain ⟨rest, rfl⟩ := List.head?_eq_some_iff.mp hslash
    have hdrop : (('/' : CodePoint) :: rest).dropWhile (· ≠ ('\n' : CodePoint)) =
        rest.dropWhile (· ≠ ('\n' : CodePoint)) :=
      List.dropWhile_cons_of_pos (by decide)
    have hcomment : ∀ c ∈ rest.takeWhile (· ≠ ('\n' : CodePoint)), c ≠ '\n' := fun c hc => by
      simpa using List.mem_takeWhile_imp hc
    have hend : ∀ c ∈ (rest.dropWhile (· ≠ ('\n' : CodePoint))).head?, c = '\n' := fun c hc => by
      simpa using Text.head_dropWhile rest c hc
    rw [hdrop] at ih
    have hgap : GapBefore (rest.dropWhile (· ≠ ('\n' : CodePoint))) _ := .line hcomment hend .nil
    simpa using ih.of_gap hgap
  | case4 c rest hblank hline hblock hafter =>
    obtain ⟨rfl, hstar⟩ := hblock
    obtain ⟨rest, rfl⟩ := List.head?_eq_some_iff.mp hstar
    refine isCovered_startsIn (.comment fun comment after heq hcomment => ?_)
    have hsome : afterComment 0 rest = some after := heq ▸ afterComment_append hcomment 0 after
    cases hsome.symm.trans hafter
  | case5 c rest hblank hline hblock after hafter ih =>
    obtain ⟨rfl, hstar⟩ := hblock
    obtain ⟨rest, rfl⟩ := List.head?_eq_some_iff.mp hstar
    obtain ⟨comment, rest', heq, hcomment, hrest⟩ := exists_commentRest _ _ le_rfl _ _ hafter
    obtain rfl : rest = comment ++ rest' := heq
    obtain rfl := Option.some.inj hrest
    simpa using ih.of_gap (.block hcomment .nil)
  | case6 rest hbody =>
    refine isCovered_startsIn (.string fun body after heq hrest => ?_)
    have hsome : stringBody rest = some (body, after) := heq ▸ stringBody_append hrest after
    cases hsome.symm.trans hbody
  | case7 rest body after hbody _ _ _ ih =>
    obtain ⟨rfl, hrest⟩ := stringRest_of_stringBody hbody
    have hproper : (string (('"' : CodePoint) :: body)).IsProper := ⟨body, rfl, hrest⟩
    exact ih.of_token hproper trivial
  | case8 c rest _ _ _ _ hletter ih =>
    have hproper : (identifier (c :: rest.takeWhile CodePoint.continuesIdentifier)).IsProper :=
      ⟨c, _, rfl, hletter, fun d hd => List.mem_takeWhile_imp hd⟩
    simpa [Token.text] using ih.of_token hproper (Text.head_dropWhile rest)
  | case9 c rest _ _ _ _ _ hdigit ih =>
    have hproper : (number (c :: rest.takeWhile continuesNumber)).IsProper :=
      ⟨c, _, rfl, hdigit, fun d hd => List.mem_takeWhile_imp hd⟩
    simpa [Token.text] using ih.of_token hproper (Text.head_dropWhile rest)
  | case10 c rest hblank hline hblock hquote hletter hdigit ih =>
    rw [Bool.not_eq_true] at hblank hletter hdigit
    have hproper : (mark c).IsProper := ⟨hblank, hquote, hletter, hdigit⟩
    refine ih.of_token hproper fun hslash => ?_
    exact ⟨fun hhead => hline ⟨hslash, hhead⟩, fun hhead => hblock ⟨hslash, hhead⟩⟩

/-! ## Words stand apart -/

/-- An identifier or a number. -/
def IsWord : Token → Prop
  | identifier _ | number _ => True
  | string _ | mark _ => False

/-- Words do not run together with what stands in front of them. -/
structure WordsApart (pieces : List Piece) : Prop where
  /-- Two words have something between them. -/
  gap_ne_nil : ∀ before p q after, pieces = before ++ p :: q :: after → p.token.IsWord →
    q.token.IsWord → q.gap ≠ []
  /-- No letter, digit or `_` stands right in front of a word. -/
  begins : ∀ before p after, pieces = before ++ p :: after → p.token.IsWord →
    ∀ c ∈ (before.flatMap Piece.text ++ p.gap).getLast?, c.continuesIdentifier = false

/-- A word starts with a letter, a digit or `_`. -/
theorem IsWord.exists_head {token : Token} (hword : token.IsWord) (hproper : token.IsProper) :
    ∃ c rest, token.text = c :: rest ∧ c.continuesIdentifier = true := by
  cases token with
  | identifier text =>
    obtain ⟨c, rest, rfl, hc, -⟩ := hproper
    simp only [CodePoint.startsIdentifier, Bool.or_eq_true] at hc
    exact ⟨c, rest, rfl, by rcases hc with hc | hc <;> simp [CodePoint.continuesIdentifier, hc]⟩
  | number text =>
    obtain ⟨c, rest, rfl, hc, -⟩ := hproper
    exact ⟨c, rest, rfl, by simp [CodePoint.continuesIdentifier, hc]⟩
  | string text => cases hword
  | mark c => cases hword

/-- A word does not end in front of a letter, a digit or `_`. -/
theorem IsWord.not_endsBefore {token : Token} (hword : token.IsWord) {c : CodePoint} {s : Text}
    (hc : c.continuesIdentifier = true) : ¬ token.EndsBefore (c :: s) := by
  intro hends
  cases token with
  | identifier text => simp [hends c rfl] at hc
  | number text =>
    have hnot : continuesNumber c = false := hends c rfl
    simp [continuesNumber, hc] at hnot
  | string text => cases hword
  | mark d => cases hword

theorem CommentRest.getLast? {comment : Text} (h : CommentRest comment) :
    comment.getLast? = some ('/' : CodePoint) := by
  induction h with
  | close => rfl
  | nested _ hrest _ ih =>
    rw [← List.cons_append, ← List.cons_append, List.getLast?_append_of_ne_nil _ hrest.ne_nil, ih]
  | @char c rest _ _ hrest ih =>
    rw [← List.singleton_append, List.getLast?_append_of_ne_nil _ hrest.ne_nil, ih]

theorem StringRest.getLast? {rest : Text} (h : StringRest rest) :
    rest.getLast? = some ('"' : CodePoint) := by
  induction h with
  | close => rfl
  | escape c hrest ih =>
    rw [List.getLast?_cons_cons, List.getLast?_cons, ih]
    rfl
  | char _ _ _ _ ih =>
    rw [List.getLast?_cons, ih]
    rfl

theorem not_continuesIdentifier_of_isBlank {c : CodePoint} (h : c.isBlank = true) :
    c.continuesIdentifier = false :=
  CodePoint.of_isBlank (P := fun c => c.continuesIdentifier = false) (by decide) h

/-- A gap in front of a word ends in a blank or in a block comment. -/
theorem GapBefore.getLast? {c : CodePoint} {rest gap : Text} (h : GapBefore (c :: rest) gap)
    (hc : c.continuesIdentifier = true) : ∀ d ∈ gap.getLast?, d.continuesIdentifier = false := by
  induction h with
  | nil => exact nofun
  | @blank d gap hblank _ ih =>
    intro d' hd'
    cases gap with
    | nil => exact Option.some.inj hd' ▸ not_continuesIdentifier_of_isBlank hblank
    | cons e gap => exact ih d' (by simpa using hd')
  | @line comment gap _ hend _ ih =>
    cases gap with
    | nil => exact absurd (hend c rfl ▸ hc) (by decide)
    | cons e gap =>
      intro d hd
      rw [← List.cons_append, ← List.cons_append,
        List.getLast?_append_of_ne_nil _ (List.cons_ne_nil e gap)] at hd
      exact ih d hd
  | @block comment gap hcomment _ ih =>
    intro d hd
    cases gap with
    | nil =>
      rw [List.append_nil, List.getLast?_cons_cons, List.getLast?_cons, hcomment.getLast?] at hd
      exact Option.some.inj hd ▸ by decide
    | cons e gap =>
      rw [← List.cons_append, ← List.cons_append,
        List.getLast?_append_of_ne_nil _ (List.cons_ne_nil e gap)] at hd
      exact ih d hd

/-- A token in front of a word ends in a quotation mark or is a mark. -/
theorem IsProper.getLast? {token : Token} (hproper : token.IsProper) {c : CodePoint} {s : Text}
    (hends : token.EndsBefore (c :: s)) (hc : c.continuesIdentifier = true) :
    ∃ d, token.text.getLast? = some d ∧ d.continuesIdentifier = false := by
  cases token with
  | identifier text =>
    have hword : (identifier text).IsWord := trivial
    exact absurd hends (hword.not_endsBefore hc)
  | number text =>
    have hword : (number text).IsWord := trivial
    exact absurd hends (hword.not_endsBefore hc)
  | string text =>
    obtain ⟨rest, rfl, hrest⟩ := hproper
    refine ⟨'"', ?_, by decide⟩
    rw [Token.text, List.getLast?_cons, hrest.getLast?]
    rfl
  | mark d =>
    obtain ⟨-, -, hletter, hdigit⟩ := hproper
    refine ⟨d, rfl, ?_⟩
    rw [CodePoint.startsIdentifier, Bool.or_eq_false_iff] at hletter
    simp [CodePoint.continuesIdentifier, hletter.1, hletter.2, hdigit]

theorem Covers.of_append {before pieces : List Piece} {last rest : Text}
    (h : Covers (before ++ pieces) last rest) : Covers pieces last rest := by
  induction before with
  | nil => exact h
  | cons piece before ih => exact ih h.2.2.2

theorem Covers.wordsApart {pieces : List Piece} {last rest : Text} (h : Covers pieces last rest) :
    WordsApart pieces where
  gap_ne_nil := by
    rintro before p q after rfl hp hq hgap
    obtain ⟨-, -, hends, -, hproper, -⟩ := h.of_append
    obtain ⟨c, tail, htext, hc⟩ := hq.exists_head hproper
    simp only [List.flatMap_cons, Piece.text, hgap, htext, List.nil_append, List.cons_append] at hends
    exact hp.not_endsBefore hc hends
  begins := by
    rintro before p after rfl hword d hd
    obtain ⟨hgap, hproper, -⟩ := h.of_append
    obtain ⟨c, tail, htext, hc⟩ := hword.exists_head hproper
    rw [htext, List.cons_append] at hgap
    by_cases hnil : p.gap = []
    · -- Without a gap the token in front of the word decides.
      rw [hnil, List.append_nil] at hd
      rcases List.eq_nil_or_concat before with rfl | ⟨front, q, rfl⟩
      · cases hd
      · rw [List.concat_eq_append, List.append_assoc, List.singleton_append] at h
        obtain ⟨-, hproper', hends, -⟩ := h.of_append
        simp only [List.flatMap_cons, Piece.text, hnil, htext] at hends
        obtain ⟨e, he, hnot⟩ := hproper'.getLast? hends hc
        have hne : q.token.text ≠ [] := fun hempty => by simp [hempty] at he
        rw [List.concat_eq_append, List.flatMap_append, List.flatMap_singleton, Piece.text,
          ← List.append_assoc, List.getLast?_append_of_ne_nil _ hne, he] at hd
        exact Option.some.inj hd ▸ hnot
    · rw [List.getLast?_append_of_ne_nil _ hnil] at hd
      exact hgap.getLast? hc d hd

/-! ## Scans and covers -/

/-- The tokens that a scan finds are those of a cover of the whole text, with words apart. A scan fails
for a string or a block comment that does not end, behind what is covered, and the message names the
file. -/
theorem scan_iff_covers (s : Text) :
    (∀ tokens, scan s = .ok tokens ↔ ∃ pieces last,
      s = pieces.flatMap Piece.text ++ last ∧ pieces.map Piece.token = tokens ∧
        Covers pieces last [] ∧ WordsApart pieces) ∧
    (∀ e, scan s = .error e ↔ ∃ pieces last rest,
      s = pieces.flatMap Piece.text ++ (last ++ rest) ∧ Covers pieces last rest ∧ e.StartsIn rest) ∧
    ∀ e, scan s = .error e → Program.parse s = .error (.scan e) ∧
      ∀ file, (SourceError.scan e).message file = file ++ (": " ++ e.message) := by
  have hok : ∀ {pieces last}, Covers pieces last [] →
      scan (pieces.flatMap Piece.text ++ last) = .ok (pieces.map Piece.token) := by
    intro pieces last h
    have := h.scan_append
    rw [List.append_nil, scan_nil] at this
    simpa [Except.map] using this
  have herror : ∀ {pieces last rest} {e : ScanError}, Covers pieces last rest → e.StartsIn rest →
      scan (pieces.flatMap Piece.text ++ (last ++ rest)) = .error e := by
    intro pieces last rest e h he
    rw [h.scan_append, scan_startsIn he]
    rfl
  obtain ⟨pieces, last, rest, hs, hcovers, hrest⟩ := exists_covers s
  refine ⟨fun tokens => ⟨fun h => ?_, ?_⟩, fun e => ⟨fun h => ?_, ?_⟩, fun e h => ⟨?_, fun file => ?_⟩⟩
  · rcases hrest with rfl | ⟨e, he⟩
    · rw [List.append_nil] at hs
      refine ⟨pieces, last, hs, ?_, hcovers, hcovers.wordsApart⟩
      exact Except.ok.inj ((hok hcovers).symm.trans (hs ▸ h))
    · cases (herror hcovers he).symm.trans (hs ▸ h)
  · rintro ⟨pieces, last, rfl, rfl, h, -⟩
    exact hok h
  · rcases hrest with rfl | ⟨e', he⟩
    · rw [List.append_nil] at hs
      cases (hok hcovers).symm.trans (hs ▸ h)
    · obtain rfl := Except.error.inj ((herror hcovers he).symm.trans (hs ▸ h))
      exact ⟨pieces, last, rest, hs, hcovers, he⟩
  · rintro ⟨pieces, last, rest, rfl, h, he⟩
    exact herror h he
  · rw [Program.parse, h]
  · simp [SourceError.message, Text.concat]

end Token

end ContractKit
