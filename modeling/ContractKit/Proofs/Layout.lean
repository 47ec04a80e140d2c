import ContractKit.Proofs.Result
import ContractKit.Proofs.Text
import ContractKit.Source.Token
import Mathlib.Data.List.TakeWhile

/-!
# Texts written from tokens

Between tokens stand gaps: blanks, line comments and nested block comments (`Token.Gap`).
`Token.Written` says that a text is a sequence of tokens with any gaps around them, and
`Token.scan` finds exactly these tokens (`Token.scan_eq_ok_iff`). A line end separates whatever
stands before and behind it (`Token.scan_append_line`), so lines of a source are scanned one by one.
-/

namespace ContractKit.Token

/-! ## Steps of a scan -/

/-- What starts an identifier starts neither a gap nor a string. -/
theorem of_startsIdentifier {c : CodePoint} (h : c.startsIdentifier = true) :
    c.isBlank = false ∧ c ≠ '/' ∧ c ≠ '"' := by
  simp only [CodePoint.startsIdentifier, CodePoint.isAsciiLetter, Bool.or_eq_true,
    CodePoint.between_iff, decide_eq_true_eq] at h
  rcases h with (⟨hlo, hhi⟩ | ⟨hlo, hhi⟩) | rfl
  · exact CodePoint.of_between (P := fun c => c.isBlank = false ∧ c ≠ '/' ∧ c ≠ '"')
      (by decide) hlo hhi
  · exact CodePoint.of_between (P := fun c => c.isBlank = false ∧ c ≠ '/' ∧ c ≠ '"')
      (by decide) hlo hhi
  · decide

theorem of_isAsciiDigit {c : CodePoint} (h : c.isAsciiDigit = true) :
    c.isBlank = false ∧ c ≠ '/' ∧ c ≠ '"' ∧ c.startsIdentifier = false :=
  CodePoint.of_between
    (P := fun c => c.isBlank = false ∧ c ≠ '/' ∧ c ≠ '"' ∧ c.startsIdentifier = false)
    (by decide) (CodePoint.isAsciiDigit_iff.mp h).1 (CodePoint.isAsciiDigit_iff.mp h).2

theorem scan_nil : scan [] = .ok [] := by
  rw [scan]

theorem scan_blank {c : CodePoint} (h : c.isBlank = true) (s : Text) : scan (c :: s) = scan s := by
  rw [scan, if_pos h]

theorem scan_line {s : Text} (h : s.head? = some ('/' : CodePoint)) :
    scan (('/' : CodePoint) :: s) = scan (s.dropWhile (· ≠ ('\n' : CodePoint))) := by
  rw [scan, if_neg (by decide), if_pos ⟨rfl, h⟩]

theorem scan_block {s after : Text} (h : s.head? = some ('*' : CodePoint))
    (hafter : afterComment 0 (s.drop 1) = some after) :
    scan (('/' : CodePoint) :: s) = scan after := by
  rw [scan, if_neg (by decide), if_neg (by simp [h]), if_pos ⟨rfl, h⟩]
  split
  · next hnone => cases hafter.symm.trans hnone
  · next hsome => rw [← Option.some.inj (hafter.symm.trans hsome)]

theorem scan_string {s body after : Text} (h : stringBody s = some (body, after)) :
    scan (('"' : CodePoint) :: s) = (scan after).map (string (('"' : CodePoint) :: body) :: ·) := by
  rw [scan, if_neg (by decide), if_neg (by simp), if_neg (by simp), if_pos rfl]
  split
  · next hnone => simp [h] at hnone
  · next hsome =>
    obtain ⟨rfl, rfl⟩ := Prod.mk.inj (Option.some.inj (h.symm.trans hsome))
    rfl

theorem scan_identifier {c : CodePoint} (h : c.startsIdentifier = true) (s : Text) :
    scan (c :: s) = (scan (s.dropWhile CodePoint.continuesIdentifier)).map
      (identifier (c :: s.takeWhile CodePoint.continuesIdentifier) :: ·) := by
  obtain ⟨hblank, hslash, hquote⟩ := of_startsIdentifier h
  rw [scan]
  simp [hblank, hslash, hquote, h]

theorem scan_number {c : CodePoint} (h : c.isAsciiDigit = true) (s : Text) :
    scan (c :: s) = (scan (s.dropWhile continuesNumber)).map
      (number (c :: s.takeWhile continuesNumber) :: ·) := by
  obtain ⟨hblank, hslash, hquote, hletter⟩ := of_isAsciiDigit h
  rw [scan]
  simp [hblank, hslash, hquote, hletter, h]

theorem scan_mark {c : CodePoint} {s : Text} (hblank : c.isBlank = false)
    (hline : ¬(c = '/' ∧ s.head? = some ('/' : CodePoint)))
    (hblock : ¬(c = '/' ∧ s.head? = some ('*' : CodePoint))) (hquote : c ≠ '"')
    (hletter : c.startsIdentifier = false) (hdigit : c.isAsciiDigit = false) :
    scan (c :: s) = (scan s).map (mark c :: ·) := by
  rw [scan]
  simp [hblank, hline, hblock, hquote, hletter, hdigit]

/-! ## Comments and gaps -/

/-- What follows the opening of a block comment, up to its closing and with it. -/
inductive CommentRest : Text → Prop
  /-- The closing. -/
  | close : CommentRest [('*' : CodePoint), ('/' : CodePoint)]
  /-- Another block comment. -/
  | nested {inner rest : Text} : CommentRest inner → CommentRest rest →
      CommentRest (('/' : CodePoint) :: ('*' : CodePoint) :: (inner ++ rest))
  /-- A character that neither opens nor closes a comment. -/
  | char {c : CodePoint} {rest : Text} : ¬(c = '/' ∧ rest.head? = some ('*' : CodePoint)) →
      ¬(c = '*' ∧ rest.head? = some ('/' : CodePoint)) → CommentRest rest → CommentRest (c :: rest)

/-- What may stand in front of a token. -/
inductive Gap : Text → Prop
  /-- Nothing. -/
  | nil : Gap []
  /-- A blank. -/
  | blank {c : CodePoint} {gap : Text} : c.isBlank = true → Gap gap → Gap (c :: gap)
  /-- A line comment. -/
  | line {comment gap : Text} : (∀ c ∈ comment, c ≠ '\n') → Gap gap →
      Gap (('/' : CodePoint) :: ('/' : CodePoint) :: (comment ++ ('\n' : CodePoint) :: gap))
  /-- A block comment. -/
  | block {comment gap : Text} : CommentRest comment → Gap gap →
      Gap (('/' : CodePoint) :: ('*' : CodePoint) :: (comment ++ gap))

theorem CommentRest.ne_nil {comment : Text} (h : CommentRest comment) : comment ≠ [] := by
  cases h <;> simp

theorem afterComment_char {c : CodePoint} {rest : Text}
    (hopen : ¬(c = '/' ∧ rest.head? = some ('*' : CodePoint)))
    (hclose : ¬(c = '*' ∧ rest.head? = some ('/' : CodePoint))) (depth : Nat) :
    afterComment depth (c :: rest) = afterComment depth rest := by
  cases rest with
  | nil => simp [afterComment]
  | cons d rest =>
    have hopen' : ¬(c = '/' ∧ d = '*') := by simpa using hopen
    have hclose' : ¬(c = '*' ∧ d = '/') := by simpa using hclose
    simp [afterComment, hopen', hclose']

/-- What follows, inside a block comment with `depth` comments around it, once this one is closed. -/
def resumeComment : Nat → Text → Option Text
  | 0, s => some s
  | depth + 1, s => afterComment depth s

theorem afterComment_close (depth : Nat) (s : Text) :
    afterComment depth (('*' : CodePoint) :: ('/' : CodePoint) :: s) = resumeComment depth s := by
  cases depth <;> simp [afterComment, resumeComment]

theorem afterComment_open (depth : Nat) (s : Text) :
    afterComment depth (('/' : CodePoint) :: ('*' : CodePoint) :: s) = afterComment (depth + 1) s := by
  simp [afterComment]

/-- A comment ends where it ends. -/
theorem afterComment_append {comment : Text} (h : CommentRest comment) (depth : Nat) (s : Text) :
    afterComment depth (comment ++ s) = resumeComment depth s := by
  induction h generalizing depth s with
  | close => exact afterComment_close depth s
  | nested _ _ ihinner ihrest =>
    simp only [List.cons_append, List.append_assoc]
    rw [afterComment_open, ihinner, resumeComment, ihrest]
  | @char c rest hopen hclose hrest ih =>
    have hhead : (rest ++ s).head? = rest.head? := by
      rw [List.head?_append_of_ne_nil _ hrest.ne_nil]
    rw [List.cons_append, afterComment_char (by rwa [hhead]) (by rwa [hhead]), ih]

/-- A gap has no tokens. -/
theorem scan_gap {gap : Text} (h : Gap gap) (s : Text) : scan (gap ++ s) = scan s := by
  induction h with
  | nil => rfl
  | blank hblank _ ih => rw [List.cons_append, scan_blank hblank, ih]
  | @line comment gap hcomment _ ih =>
    have hdrop : ((('/' : CodePoint) :: comment) ++ ('\n' : CodePoint) :: (gap ++ s)).dropWhile
        (· ≠ ('\n' : CodePoint)) = ('\n' : CodePoint) :: (gap ++ s) :=
      Text.dropWhile_run (by simpa using hcomment) (by simp)
    simp only [List.cons_append, List.append_assoc] at hdrop ⊢
    rw [scan_line rfl, hdrop, scan_blank (by decide), ih]
  | block hcomment _ ih =>
    simp only [List.cons_append, List.append_assoc]
    rw [scan_block rfl (afterComment_append hcomment 0 _), ih]

/-! ## Scanning tokens -/

/-- What follows the opening quotation mark of a string, up to the closing one and with it. -/
inductive StringRest : Text → Prop
  /-- The closing quotation mark. -/
  | close : StringRest [('"' : CodePoint)]
  /-- A backslash and the character it takes with it. -/
  | escape (c : CodePoint) {rest : Text} : StringRest rest →
      StringRest (('\\' : CodePoint) :: c :: rest)
  /-- A character of its own. -/
  | char {c : CodePoint} {rest : Text} : c ≠ '\\' → c ≠ '"' → c ≠ '\n' → StringRest rest →
      StringRest (c :: rest)

/-- The token has a text that is read as a token of its kind. -/
def IsProper : Token → Prop
  | identifier text => ∃ c rest, text = c :: rest ∧ c.startsIdentifier = true ∧
      ∀ d ∈ rest, d.continuesIdentifier = true
  | number text => ∃ c rest, text = c :: rest ∧ c.isAsciiDigit = true ∧
      ∀ d ∈ rest, continuesNumber d = true
  | string text => ∃ rest, text = ('"' : CodePoint) :: rest ∧ StringRest rest
  | mark c => c.isBlank = false ∧ c ≠ '"' ∧ c.startsIdentifier = false ∧ c.isAsciiDigit = false

/-- The token does not go on with what follows it. -/
def EndsBefore (s : Text) : Token → Prop
  | identifier _ => ∀ c ∈ s.head?, c.continuesIdentifier = false
  | number _ => ∀ c ∈ s.head?, continuesNumber c = false
  | string _ => True
  | mark c => c = '/' → s.head? ≠ some ('/' : CodePoint) ∧ s.head? ≠ some ('*' : CodePoint)

theorem endsBefore_nil (token : Token) : token.EndsBefore [] := by
  cases token <;> simp [EndsBefore]

theorem stringBody_append {rest : Text} (h : StringRest rest) (s : Text) :
    stringBody (rest ++ s) = some (rest, s) := by
  induction h with
  | close => cases s <;> simp [stringBody]
  | escape c _ ih => simp [stringBody, ih]
  | @char c rest hbackslash hquote hline hrest ih =>
    cases rest with
    | nil => cases hrest
    | cons d rest =>
      rw [List.cons_append] at ih
      simp [stringBody, hbackslash, hquote, hline, ih]

/-- A token is found where it stands. -/
theorem scan_token {token : Token} (hproper : token.IsProper) {s : Text}
    (hends : token.EndsBefore s) : scan (token.text ++ s) = (scan s).map (token :: ·) := by
  cases token with
  | identifier text =>
    obtain ⟨c, rest, rfl, hc, hrest⟩ := hproper
    simp only [Token.text, List.cons_append]
    rw [scan_identifier hc, Text.takeWhile_run hrest hends, Text.dropWhile_run hrest hends]
  | number text =>
    obtain ⟨c, rest, rfl, hc, hrest⟩ := hproper
    simp only [Token.text, List.cons_append]
    rw [scan_number hc, Text.takeWhile_run hrest hends, Text.dropWhile_run hrest hends]
  | string text =>
    obtain ⟨rest, rfl, hrest⟩ := hproper
    exact scan_string (stringBody_append hrest s)
  | mark c =>
    obtain ⟨hblank, hquote, hletter, hdigit⟩ := hproper
    exact scan_mark hblank (fun h => (hends h.1).1 h.2) (fun h => (hends h.1).2 h.2) hquote hletter
      hdigit

/-- The text consists of the tokens, in order, with gaps around them. The last line may end in a
comment. -/
inductive Written : List Token → Text → Prop
  /-- No token. -/
  | nil {gap : Text} : Gap gap → Written [] gap
  /-- No token, and a comment on the last line. -/
  | comment {gap comment : Text} : Gap gap → (∀ c ∈ comment, c ≠ '\n') →
      Written [] (gap ++ ('/' : CodePoint) :: ('/' : CodePoint) :: comment)
  /-- A token and others behind it. -/
  | token {gap : Text} {token : Token} {tokens : List Token} {s : Text} : Gap gap →
      token.IsProper → token.EndsBefore s → Written tokens s →
      Written (token :: tokens) (gap ++ (token.text ++ s))

/-- The tokens of a text are those it is written from. -/
theorem scan_of_written {tokens : List Token} {s : Text} (h : Written tokens s) :
    scan s = .ok tokens := by
  induction h with
  | nil hgap => simpa [scan] using scan_gap hgap []
  | @comment gap comment hgap hcomment =>
    have hdrop : (('/' : CodePoint) :: comment).dropWhile (· ≠ ('\n' : CodePoint)) = [] :=
      List.dropWhile_eq_nil_iff.mpr (by simpa using hcomment)
    rw [scan_gap hgap, scan_line rfl, hdrop, scan]
  | token hgap hproper hends _ ih => rw [scan_gap hgap, scan_token hproper hends, ih]; rfl

theorem Written.isProper {ts : List Token} {s : Text} (h : Written ts s) :
    ∀ token ∈ ts, token.IsProper := by
  induction h with
  | nil | comment => simp
  | token _ hproper _ _ ih => exact List.forall_mem_cons.mpr ⟨hproper, ih⟩

/-! ## What a scan finds -/

theorem Gap.append {gap gap' : Text} (h : Gap gap) (h' : Gap gap') : Gap (gap ++ gap') := by
  induction h with
  | nil => exact h'
  | blank hblank _ ih => exact .blank hblank ih
  | line hcomment _ ih =>
    simpa using Gap.line hcomment ih
  | block hcomment _ ih =>
    simpa using Gap.block hcomment ih

/-- More of a gap in front. -/
theorem Written.append {tokens : List Token} {gap s : Text} (hgap : Gap gap) (h : Written tokens s) :
    Written tokens (gap ++ s) := by
  cases h with
  | nil hgap' => exact .nil (hgap.append hgap')
  | comment hgap' hcomment =>
    rw [← List.append_assoc]
    exact .comment (hgap.append hgap') hcomment
  | token hgap' hproper hends hs =>
    rw [← List.append_assoc]
    exact .token (hgap.append hgap') hproper hends hs

theorem IsProper.isBlank_head {token : Token} (h : token.IsProper) {c : CodePoint} {s t : Text}
    (heq : token.text ++ s = c :: t) : c.isBlank = false := by
  cases token with
  | identifier text =>
    obtain ⟨d, rest, rfl, hd, -⟩ := h
    exact (List.cons.inj heq).1 ▸ (of_startsIdentifier hd).1
  | number text =>
    obtain ⟨d, rest, rfl, hd, -⟩ := h
    exact (List.cons.inj heq).1 ▸ (of_isAsciiDigit hd).1
  | string text =>
    obtain ⟨rest, rfl, -⟩ := h
    exact (List.cons.inj heq).1 ▸ (by decide)
  | mark d => exact (List.cons.inj heq).1 ▸ h.1

theorem Gap.of_blank {c : CodePoint} {gap : Text} (hc : c.isBlank = true) (h : Gap (c :: gap)) :
    Gap gap := by
  cases h with
  | blank _ h => exact h
  | line => exact absurd hc (by decide)
  | block => exact absurd hc (by decide)

/-- A blank in front belongs to no token. -/
theorem Written.of_blank {tokens : List Token} {c : CodePoint} {s : Text} (hc : c.isBlank = true)
    (h : Written tokens (c :: s)) : Written tokens s := by
  generalize hcs : c :: s = t at h
  cases h with
  | nil hgap => exact .nil ((hcs ▸ hgap).of_blank hc)
  | @comment gap comment hgap hcomment =>
    cases gap with
    | nil =>
      obtain ⟨rfl, -⟩ := List.cons.inj hcs
      exact absurd hc (by decide)
    | cons d gap =>
      obtain ⟨rfl, rfl⟩ := List.cons.inj hcs
      exact .comment (hgap.of_blank hc) hcomment
  | @token gap token tokens u hgap hproper hends hu =>
    cases gap with
    | nil => exact absurd hc (by simp [hproper.isBlank_head hcs.symm])
    | cons d gap =>
      obtain ⟨rfl, rfl⟩ := List.cons.inj hcs
      exact .token (hgap.of_blank hc) hproper hends hu

/-- What follows a comment is found behind it. -/
theorem exists_commentRest : ∀ (size : Nat) (s : Text), s.length ≤ size → ∀ depth after,
    afterComment depth s = some after → ∃ comment rest, s = comment ++ rest ∧ CommentRest comment ∧
      resumeComment depth rest = some after
  | _, [], _, _, _, h => by cases h
  | _, [_], _, _, _, h => by cases h
  | 0, _ :: _ :: _, hsize, _, _, _ => absurd hsize (by simp)
  | size + 1, a :: b :: s, hsize, depth, after, h => by
    have hs : s.length ≤ size := by simp at hsize; omega
    by_cases hopen : a = '/' ∧ b = '*'
    · -- A comment starts here, and the one around it goes on behind it.
      obtain ⟨rfl, rfl⟩ := hopen
      rw [afterComment_open] at h
      obtain ⟨inner, rest, rfl, hinner, hrest⟩ := exists_commentRest size s hs _ _ h
      obtain ⟨comment, rest, rfl, hcomment, hrest⟩ :=
        exists_commentRest size rest (by simp at hs; omega) _ _ hrest
      exact ⟨_, rest, by simp, .nested hinner hcomment, hrest⟩
    · by_cases hclose : a = '*' ∧ b = '/'
      · obtain ⟨rfl, rfl⟩ := hclose
        rw [afterComment_close] at h
        exact ⟨_, s, rfl, .close, h⟩
      · rw [afterComment_char (by simpa using hopen) (by simpa using hclose)] at h
        obtain ⟨comment, rest, heq, hcomment, hrest⟩ :=
          exists_commentRest size (b :: s) (by simpa using hsize) _ _ h
        obtain ⟨c, comment, rfl⟩ := List.exists_cons_of_ne_nil hcomment.ne_nil
        obtain ⟨rfl, rfl⟩ := List.cons.inj heq
        exact ⟨a :: b :: comment, rest, rfl, .char (by simpa using hopen) (by simpa using hclose)
          hcomment, hrest⟩

theorem stringRest_of_stringBody {s body after : Text} (h : stringBody s = some (body, after)) :
    s = body ++ after ∧ StringRest body := by
  fun_induction stringBody s generalizing body after with
  | case1 => cases h
  | case2 =>
    obtain ⟨rfl, rfl⟩ := Prod.mk.inj (Option.some.inj h)
    exact ⟨rfl, .close⟩
  | case3 => cases h
  | case4 d rest ih =>
    obtain ⟨⟨body', after'⟩, hbody, heq⟩ := Option.map_eq_some_iff.mp h
    obtain ⟨rfl, rfl⟩ := Prod.mk.inj heq
    obtain ⟨rfl, hrest⟩ := ih hbody
    exact ⟨rfl, .escape d hrest⟩
  | case5 d rest hbackslash =>
    obtain ⟨rfl, rfl⟩ := Prod.mk.inj (Option.some.inj h)
    exact ⟨rfl, .close⟩
  | case6 => cases h
  | case7 c d rest hbackslash hquote hline ih =>
    obtain ⟨⟨body', after'⟩, hbody, heq⟩ := Option.map_eq_some_iff.mp h
    obtain ⟨rfl, rfl⟩ := Prod.mk.inj heq
    obtain ⟨heq, hrest⟩ := ih hbody
    exact ⟨by rw [heq]; rfl, .char hbackslash hquote hline hrest⟩

/-- A text is written from the tokens that a scan finds in it. -/
theorem written_of_scan {s : Text} {tokens : List Token} (h : scan s = .ok tokens) :
    Written tokens s := by
  fun_induction scan s generalizing tokens with
  | case1 =>
    obtain rfl := Except.ok.inj h
    exact .nil .nil
  | case2 c rest hblank ih => exact (ih h).append (.blank hblank .nil)
  | case3 c rest hblank hline ih =>
    obtain ⟨rfl, hslash⟩ := hline
    obtain ⟨rest, rfl⟩ : ∃ t, rest = ('/' : CodePoint) :: t := by
      cases rest with
      | nil => cases hslash
      | cons d t => exact ⟨t, by rw [Option.some.inj hslash]⟩
    have hcomment : ∀ c ∈ rest.takeWhile (· ≠ ('\n' : CodePoint)), c ≠ '\n' := fun c hc => by
      simpa using List.mem_takeWhile_imp hc
    have hdrop : (('/' : CodePoint) :: rest).dropWhile (· ≠ ('\n' : CodePoint)) =
        rest.dropWhile (· ≠ ('\n' : CodePoint)) :=
      List.dropWhile_cons_of_pos (by decide)
    have hwritten := ih h
    rw [hdrop] at h hwritten
    rw [← List.takeWhile_append_dropWhile (p := (· ≠ ('\n' : CodePoint))) (l := rest)]
    cases hend : rest.dropWhile (· ≠ ('\n' : CodePoint)) with
    | nil =>
      rw [hend, scan_nil] at h
      obtain rfl := Except.ok.inj h
      exact .comment .nil (by simpa using hcomment)
    | cons d after =>
      obtain rfl : d = '\n' := by
        simpa using Text.head_dropWhile (p := (· ≠ ('\n' : CodePoint))) rest d (by rw [hend]; rfl)
      rw [hend] at hwritten
      simpa using (hwritten.of_blank (by decide)).append (.line hcomment .nil)
  | case4 => cases h
  | case5 c rest hblank hline hblock after hafter ih =>
    obtain ⟨rfl, hstar⟩ := hblock
    obtain ⟨rest, rfl⟩ : ∃ t, rest = ('*' : CodePoint) :: t := by
      cases rest with
      | nil => cases hstar
      | cons d t => exact ⟨t, by rw [Option.some.inj hstar]⟩
    obtain ⟨comment, rest', heq, hcomment, hrest⟩ := exists_commentRest _ _ le_rfl _ _ hafter
    obtain rfl : rest = comment ++ rest' := heq
    obtain rfl := Option.some.inj hrest
    simpa using (ih h).append (.block hcomment .nil)
  | case6 => cases h
  | case7 rest body after hbody _ _ _ ih =>
    obtain ⟨ts, hts, rfl⟩ := map_eq_ok_iff.mp h
    obtain ⟨rfl, hrest⟩ := stringRest_of_stringBody hbody
    exact .token .nil ⟨body, rfl, hrest⟩ trivial (ih hts)
  | case8 c rest _ _ _ _ hletter ih =>
    obtain ⟨ts, hts, rfl⟩ := map_eq_ok_iff.mp h
    have hproper : (identifier (c :: rest.takeWhile CodePoint.continuesIdentifier)).IsProper :=
      ⟨c, _, rfl, hletter, fun d hd => List.mem_takeWhile_imp hd⟩
    simpa [Token.text] using Written.token .nil hproper (Text.head_dropWhile rest) (ih hts)
  | case9 c rest _ _ _ _ _ hdigit ih =>
    obtain ⟨ts, hts, rfl⟩ := map_eq_ok_iff.mp h
    have hproper : (number (c :: rest.takeWhile continuesNumber)).IsProper :=
      ⟨c, _, rfl, hdigit, fun d hd => List.mem_takeWhile_imp hd⟩
    simpa [Token.text] using Written.token .nil hproper (Text.head_dropWhile rest) (ih hts)
  | case10 c rest hblank hline hblock hquote hletter hdigit ih =>
    obtain ⟨ts, hts, rfl⟩ := map_eq_ok_iff.mp h
    rw [Bool.not_eq_true] at hblank hletter hdigit
    have hproper : (mark c).IsProper := ⟨hblank, hquote, hletter, hdigit⟩
    refine .token .nil hproper ?_ (ih hts)
    exact fun hslash => ⟨fun hhead => hline ⟨hslash, hhead⟩, fun hhead => hblock ⟨hslash, hhead⟩⟩

/-- The tokens of a text are exactly those it is written from. -/
theorem scan_eq_ok_iff {s : Text} {tokens : List Token} :
    scan s = .ok tokens ↔ Written tokens s :=
  ⟨written_of_scan, scan_of_written⟩

/-! ## Lines -/

/-- A token that ends ends in front of a line end too. -/
theorem EndsBefore.append_line {token : Token} {s : Text} (h : token.EndsBefore s) (t : Text) :
    token.EndsBefore (s ++ ('\n' : CodePoint) :: t) := by
  cases s with
  | nil => cases token <;> simp [EndsBefore] <;> decide
  | cons c s => exact h

/-- A line end separates tokens: those before it do not change with what stands behind it. -/
theorem Written.scan_append_line {tokens : List Token} {s : Text} (h : Written tokens s) (t : Text) :
    scan (s ++ ('\n' : CodePoint) :: t) = (scan t).map (tokens ++ ·) := by
  have hnone : scan t = (scan t).map ([] ++ ·) := by cases scan t <;> rfl
  induction h with
  | nil hgap => rw [scan_gap hgap, scan_blank (by decide), ← hnone]
  | @comment gap comment hgap hcomment =>
    have hline : Gap (gap ++ ('/' : CodePoint) :: ('/' : CodePoint) ::
        (comment ++ [('\n' : CodePoint)])) := hgap.append (.line hcomment .nil)
    have hsplit : gap ++ ('/' : CodePoint) :: ('/' : CodePoint) :: comment ++ ('\n' : CodePoint) :: t =
        (gap ++ ('/' : CodePoint) :: ('/' : CodePoint) :: (comment ++ [('\n' : CodePoint)])) ++ t := by
      simp
    rw [hsplit, scan_gap hline, ← hnone]
  | token hgap hproper hends _ ih =>
    rw [List.append_assoc, List.append_assoc, scan_gap hgap, scan_token hproper (hends.append_line t),
      ih]
    cases scan t <;> rfl

end ContractKit.Token
