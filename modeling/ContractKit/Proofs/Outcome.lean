import ContractKit.Proofs.Bracket
import ContractKit.Proofs.Reading
import ContractKit.Source.Program

/-!
# What reading a program ends with

Any source at all ends in a program, in an error that is reported under the name of the file, or in that
of one constant array size (`Program.Outcome`, `Program.parse_safe`). What could go wrong otherwise is
that the scan comes upon an opening bracket and does not find its partner. The brackets are checked
before, and every reader leaves an end of its tokens (`ReadsFrom`), where opening brackets have their
partners although closing ones may stand alone (`Bracket.Paired`): the readers of types stop at any
closing brace, and the scan goes on from there. The tokens of a parameter, which are cut at commas, need
not even be paired, but there the reader of types is the one to find an unclosed bracket.
-/

namespace ContractKit

/-- Among the tokens stands the size of a constant array that consists of digits and is no number that
can be read, for the given reason. -/
def HasUnreadableSize (tokens : List Token) (e : NumeralError) : Prop :=
  ∃ size : Token, [.mark ';', size, .mark ']'] <:+: tokens ∧ size.text ≠ [] ∧
    size.text.all CodePoint.isDigit = true ∧ Numeral.readDecimal size.text = .error e

theorem HasUnreadableSize.mono {tokens part : List Token} {e : NumeralError}
    (h : HasUnreadableSize part e) (hpart : part <:+: tokens) : HasUnreadableSize tokens e := by
  obtain ⟨size, hsize, hrest⟩ := h
  exact ⟨size, hsize.trans hpart, hrest⟩

namespace Ty

/-! ## Type annotations -/

/-- A number that cannot be read is the size of a constant array. -/
def unreadableSize : Blame Token AnnotationError where
  On tokens e := ∀ e', e = .size e' → HasUnreadableSize tokens e'
  of_suffix h hst e' he := (h e' he).mono hst.isInfix

theorem eq_cons_of_expect {mark : CodePoint} {tokens rest : List Token}
    (h : expect mark tokens = .ok rest) : tokens = .mark mark :: rest := by
  unfold expect at h
  split at h
  · split_ifs at h with hmark
    rw [hmark, Except.ok.inj h]
  · cases h

theorem readsFrom_expect (mark : CodePoint) (tokens : List Token) :
    ReadsFrom unreadableSize id tokens (expect mark tokens) := by
  unfold expect
  split
  · split_ifs
    · exact .ok (List.suffix_cons _ _)
    · exact .error nofun
  · exact .error nofun

theorem readsFrom_skipRestrictions (tokens : List Token) :
    ReadsFrom unreadableSize id tokens (skipRestrictions tokens) :=
  (readsFrom_expect _ _).of_suffix (List.dropWhile_suffix _)

theorem readsFrom_skipGroup (opener : CodePoint) (tokens : List Token) :
    ReadsFrom unreadableSize id tokens (skipGroup opener tokens) := by
  unfold skipGroup
  split
  · next inside after h => exact .ok (Bracket.group?_suffix h)
  · exact .error nofun

theorem wrapOptional_suffix (type : Ty) (tokens : List Token) :
    (wrapOptional type tokens).2 <:+ tokens := by
  induction tokens generalizing type with
  | nil => exact List.suffix_rfl
  | cons token rest ih =>
    rw [wrapOptional]
    split_ifs
    · exact (ih _).trans (List.suffix_cons token rest)
    · exact List.suffix_rfl

theorem afterDots_suffix (tokens : List Token) : afterDots tokens <:+ tokens := by
  fun_induction afterDots tokens with
  | case1 name rest ih => exact ih.trans ⟨[.mark '.', .identifier name], rfl⟩
  | case2 => exact List.suffix_rfl
  | case3 => exact List.suffix_rfl

/-- A size is read between a semicolon and a closing bracket. -/
theorem readsFrom_readSize (tokens : List Token) :
    ReadsFrom unreadableSize Prod.snd (.mark ';' :: tokens) (readSize tokens) := by
  unfold readSize
  simp only
  split_ifs with hdigits
  swap
  · exact .error nofun
  obtain ⟨size, left, rfl⟩ : ∃ size left, tokens = size :: left := by
    cases tokens with
    | nil => exact absurd rfl hdigits.1
    | cons size left => exact ⟨size, left, rfl⟩
  have hleft : left <:+ .mark ';' :: size :: left := ⟨[.mark ';', size], rfl⟩
  refine .bind ((readsFrom_expect ']' left).of_suffix hleft).blamed fun rest hrest => ?_
  obtain rfl := eq_cons_of_expect hrest
  split
  · exact .ok ((List.suffix_cons _ rest).trans hleft)
  · next e he =>
    refine .error fun e' heq => ⟨size, ⟨[], rest, rfl⟩, hdigits.1, hdigits.2, ?_⟩
    obtain rfl := AnnotationError.size.inj heq
    exact he

section

variable {fuel : Nat}
  (ihwith : ∀ tokens, ReadsFrom unreadableSize Prod.snd tokens (readWith fuel tokens))
  (iharguments : ∀ tokens, ReadsFrom unreadableSize id tokens (readArguments fuel tokens))
include ihwith iharguments

theorem readsFrom_readBase (tokens : List Token) :
    ReadsFrom unreadableSize Prod.snd tokens (readBase (fuel + 1) tokens) := by
  cases tokens with
  | nil => exact .error nofun
  | cons token rest =>
    have hrest : rest <:+ token :: rest := List.suffix_cons token rest
    unfold readBase
    simp only
    split
    · refine .of_suffix ((ihwith rest).andThen fun (element, rest) => ?_) hrest
      simp only
      split_ifs with hsize
      · obtain ⟨tail, rfl⟩ := List.head?_eq_some_iff.mp hsize
        exact (readsFrom_readSize tail).andThen fun _ => .ok List.suffix_rfl
      · exact (readsFrom_expect ']' rest).andThen fun _ => .ok List.suffix_rfl
    split
    · refine .of_suffix ((ihwith rest).andThen fun (key, rest) => ?_) hrest
      simp only
      split_ifs
      · refine .of_suffix ((ihwith _).andThen fun (value, rest) => ?_) (List.drop_suffix 1 rest)
        exact (readsFrom_expect _ rest).andThen fun _ => .ok List.suffix_rfl
      · exact (readsFrom_skipRestrictions rest).andThen fun _ => .ok List.suffix_rfl
    split
    · exact .of_suffix ((ihwith rest).andThen fun _ => .ok List.suffix_rfl) hrest
    split
    · have hreference : ∀ left, ReadsFrom unreadableSize Prod.snd left
          (do
            let left ← expect '&' left
            let found ← readWith fuel left
            .ok (nominal (consumed (token :: rest) found.2), found.2)) :=
        fun left => (readsFrom_expect '&' left).andThen fun left =>
          (ihwith left).andThen fun _ => .ok List.suffix_rfl
      split
      · exact .of_suffix ((readsFrom_skipGroup '(' rest).andThen hreference) hrest
      · exact (hreference rest).of_suffix hrest
    split
    · refine (readsFrom_skipGroup '(' (token :: rest)).andThen fun rest => ?_
      split_ifs
      · exact .of_suffix ((ihwith _).andThen fun _ => .ok List.suffix_rfl) (List.drop_suffix 1 rest)
      · exact .ok List.suffix_rfl
    have hnamed : ∀ (type : List Token → Ty) (left : List Token),
        ReadsFrom unreadableSize Prod.snd left
          (if hasRestrictions left then do
            let left ← skipRestrictions (left.drop 1)
            .ok (nominal (consumed (token :: rest) left), left)
          else .ok (type left, left)) := by
      intro type left
      split_ifs
      · exact .of_suffix ((readsFrom_skipRestrictions _).andThen fun _ => .ok List.suffix_rfl)
          (List.drop_suffix 1 left)
      · exact .ok List.suffix_rfl
    split
    · refine .of_suffix ?_ ((afterDots_suffix rest).trans hrest)
      split
      · exact .of_suffix ((iharguments _).andThen (hnamed _)) (List.drop_suffix 1 _)
      · exact hnamed (fun _ => ofName (consumed (_ :: rest) (afterDots rest))) (afterDots rest)
    · exact .error nofun

end

/-- Readers of types leave an end of the tokens. -/
theorem readsFrom_readWith (fuel : Nat) :
    (∀ tokens, ReadsFrom unreadableSize Prod.snd tokens (readWith fuel tokens)) ∧
    (∀ tokens, ReadsFrom unreadableSize Prod.snd tokens (readBase fuel tokens)) ∧
    ∀ tokens, ReadsFrom unreadableSize id tokens (readArguments fuel tokens) := by
  induction fuel with
  | zero =>
    refine ⟨fun tokens => ?_, fun tokens => ?_, fun tokens => ?_⟩
    · rw [readWith]; exact .error nofun
    · rw [readBase]; exact .error nofun
    · rw [readArguments]; exact .error nofun
  | succ fuel ih =>
    obtain ⟨ihwith, ihbase, iharguments⟩ := ih
    refine ⟨fun tokens => ?_, fun tokens => ?_, fun tokens => ?_⟩
    · rw [readWith]
      have hstart : (if tokens.head? = some (.mark '@') then tokens.drop 1 else tokens) <:+ tokens := by
        split_ifs
        · exact List.drop_suffix 1 tokens
        · exact List.suffix_rfl
      exact .of_suffix ((ihbase _).andThen fun (type, rest) => .ok (wrapOptional_suffix type rest))
        hstart
    · exact readsFrom_readBase ihwith iharguments tokens
    · rw [readArguments]
      refine (ihwith tokens).andThen fun (_, rest) => ?_
      simp only
      split_ifs
      · exact (iharguments _).of_suffix (List.drop_suffix 1 rest)
      · exact readsFrom_expect '>' rest

theorem readsFrom_read (tokens : List Token) :
    ReadsFrom unreadableSize Prod.snd tokens (read tokens) :=
  (readsFrom_readWith _).1 tokens

end Ty

namespace Program

/-! ## Parameters -/

/-- The segments between commas are parts of the tokens, the first one being their start. -/
theorem infix_of_mem_segmentsFrom (tokens : List Token) : ∀ depth : Int,
    ∃ first others, segmentsFrom depth tokens = first :: others ∧ first <+: tokens ∧
      ∀ segment ∈ others, segment <:+: tokens := by
  induction tokens with
  | nil => exact fun depth => ⟨[], [], rfl, List.prefix_rfl, nofun⟩
  | cons token rest ih =>
    intro depth
    have hcons : ∀ depth, ∃ first others, consSegment token (segmentsFrom depth rest) = first :: others ∧
        first <+: token :: rest ∧ ∀ segment ∈ others, segment <:+: token :: rest := by
      intro depth
      obtain ⟨first, others, heq, hfirst, hothers⟩ := ih depth
      refine ⟨token :: first, others, by rw [heq, consSegment], ?_, fun segment hsegment => ?_⟩
      · exact List.cons_prefix_cons.mpr ⟨rfl, hfirst⟩
      · exact (hothers segment hsegment).trans (List.suffix_cons token rest).isInfix
    rw [segmentsFrom]
    split_ifs
    · exact hcons _
    · exact hcons _
    · obtain ⟨first, others, heq, hfirst, hothers⟩ := ih depth
      refine ⟨[], first :: others, by rw [heq], List.nil_prefix, fun segment hsegment => ?_⟩
      have hrest : rest <:+: token :: rest := (List.suffix_cons token rest).isInfix
      rcases List.mem_cons.mp hsegment with rfl | hsegment
      · exact hfirst.isInfix.trans hrest
      · exact (hothers segment hsegment).trans hrest
    · exact hcons _

theorem segment_infix {tokens segment : List Token} {depth : Int}
    (h : segment ∈ segmentsFrom depth tokens) : segment <:+: tokens := by
  obtain ⟨first, others, heq, hfirst, hothers⟩ := infix_of_mem_segmentsFrom tokens depth
  rw [heq] at h
  rcases List.mem_cons.mp h with rfl | h
  · exact hfirst.isInfix
  · exact hothers segment h

/-- What an error in reading the tokens of a program says: an opening bracket lacks its partner only
if it does, and a number that cannot be read is the size of a constant array. -/
def fault : Blame Token SourceError where
  On tokens e := (Bracket.Paired tokens → ∀ opener, e ≠ .noPartner opener) ∧
    ∀ e', e = .type (.size e') → HasUnreadableSize tokens e'
  of_suffix h hst := ⟨fun hpaired => h.1 (hpaired.of_suffix hst),
    fun e' he => (h.2 e' he).mono hst.isInfix⟩

/-- No error in reading parameters is about a bracket without partner, as groups among their tokens
are left to the reader of types. -/
theorem parameter_error {segment : List Token} {e : SourceError} (h : parameter segment = .error e) :
    (∀ opener, e ≠ .noPartner opener) ∧
      ∀ e', e = .type (.size e') → HasUnreadableSize segment e' := by
  unfold parameter at h
  simp only at h
  split at h
  · next colon typeTokens label identifier hsegment _ =>
    have htokens : typeTokens <:+: segment :=
      ((List.suffix_cons colon typeTokens).trans (hsegment ▸ List.dropWhile_suffix _)).isInfix
    split at h
    · next e' he' =>
      obtain rfl := Except.error.inj h
      refine ⟨nofun, fun size hsize => ?_⟩
      obtain rfl := SourceError.type.inj hsize
      exact ((Ty.readsFrom_read typeTokens).blamed _ he' size rfl).mono htokens
    · cases h
    · obtain rfl := Except.error.inj h
      exact ⟨nofun, nofun⟩
  · obtain rfl := Except.error.inj h
    exact ⟨nofun, nofun⟩

theorem readsFrom_parameters (tokens : List Token) :
    ReadsFrom fault (fun _ => []) tokens (parameters tokens) := by
  refine ⟨fun _ _ => List.nil_suffix, fun e he => ?_⟩
  unfold parameters at he
  split_ifs at he
  obtain ⟨segment, hmem, he⟩ := exists_mem_of_mapM_eq_error he
  obtain ⟨hpartner, hsize⟩ := parameter_error he
  have hsegment := segment_infix hmem
  exact ⟨fun _ => hpartner, fun e' he' => (hsize e' he').mono hsegment⟩

/-! ## Groups -/

theorem group_eq_ok {tokens inside after : List Token} (h : group tokens = .ok (inside, after)) :
    Bracket.group? tokens = some (inside, after) := by
  unfold group at h
  split at h
  · next found hfound => rw [hfound, Except.ok.inj h]
  · cases h

theorem readsFrom_group {token : Token} (hopens : token.opens = true) (rest : List Token) :
    ReadsFrom fault Prod.snd (token :: rest) (group (token :: rest)) := by
  unfold group
  split
  · next found hfound => exact .ok (Bracket.group?_suffix hfound)
  · next hnone =>
    refine .error ⟨fun hpaired => ?_, nofun⟩
    obtain ⟨inside, after, -, hfound⟩ := hpaired.1 hopens
    rw [hnone] at hfound
    cases hfound

/-- What is read inside a group comes from the tokens of the group. -/
theorem readsFrom_enclosed {α : Type} {item : List Token → Except SourceError α}
    (hitem : ∀ inside, ReadsFrom fault (fun _ => []) inside (item inside)) {token : Token}
    (hopens : token.opens = true) (rest : List Token) :
    ReadsFrom fault Prod.snd (token :: rest)
      (group (token :: rest) >>= fun (inside, after) => do .ok (← item inside, after)) := by
  refine .bind (readsFrom_group hopens rest).blamed fun (inside, after) hgroup => ?_
  have hsuffix := (readsFrom_group hopens rest).suffix _ hgroup
  have hfound := group_eq_ok hgroup
  refine .bind (fun e he => ?_) fun _ _ => .ok hsuffix
  obtain ⟨hpartner, hsize⟩ := (hitem inside).blamed e he
  obtain ⟨c, closer, -, heq⟩ := Bracket.group?_eq_some hfound
  have hinside : inside <:+: token :: rest := ⟨[.mark c], .mark closer :: after, by simp [heq]⟩
  exact ⟨fun hpaired => hpartner (hpaired.nested_inside hfound).paired,
    fun e' he' => (hsize e' he').mono hinside⟩

theorem readsFrom_parameterList {token : Token} (hopens : token.opens = true) (rest : List Token) :
    ReadsFrom fault Prod.snd (token :: rest) (parameterList (token :: rest)) :=
  readsFrom_enclosed readsFrom_parameters hopens rest

/-! ## Members -/

theorem opens_of_round {tokens : List Token} (h : tokens.head? = some (.mark '(')) :
    ∃ token rest, tokens = token :: rest ∧ token.opens = true := by
  obtain ⟨rest, rfl⟩ := List.head?_eq_some_iff.mp h
  exact ⟨_, rest, rfl, by decide⟩

theorem readsFrom_membersWith (keyword : Text) : ∀ (fuel : Nat) (tokens : List Token),
    ReadsFrom fault (fun _ => []) tokens (membersWith keyword fuel tokens)
  | 0, tokens => .ok List.nil_suffix
  | _ + 1, [] => .ok List.nil_suffix
  | fuel + 1, token :: rest => by
    have hrest : rest <:+ token :: rest := List.suffix_cons token rest
    rw [membersWith]
    split_ifs with hopens hkeyword
    · exact (readsFrom_group hopens rest).andThen fun (_, after) =>
        readsFrom_membersWith keyword fuel after
    · obtain ⟨opener, left, rfl, hround⟩ := opens_of_round hkeyword.2
      exact .of_suffix ((readsFrom_parameterList hround left).andThen fun (found, after) =>
        (readsFrom_membersWith keyword fuel after).andThen fun _ => .ok List.nil_suffix) hrest
    · exact (readsFrom_membersWith keyword fuel rest).of_suffix hrest

theorem readsFrom_members (keyword : Text) {token : Token} (hopens : token.opens = true)
    (rest : List Token) :
    ReadsFrom fault Prod.snd (token :: rest) (members keyword (token :: rest)) :=
  readsFrom_enclosed (fun inside => readsFrom_membersWith keyword inside.length inside) hopens rest

/-! ## Declarations -/

theorem readsFrom_toBlockWith : ∀ (fuel : Nat) (tokens : List Token),
    ReadsFrom fault id tokens (toBlockWith fuel tokens)
  | 0, _ => .ok List.nil_suffix
  | _ + 1, [] => .ok List.nil_suffix
  | fuel + 1, token :: rest => by
    rw [toBlockWith]
    split_ifs with hbrace hbracket
    · exact .ok List.suffix_rfl
    · have hopens : token.opens = true := by rcases hbracket with rfl | rfl <;> decide
      exact (readsFrom_group hopens rest).andThen fun (_, after) => readsFrom_toBlockWith fuel after
    · exact (readsFrom_toBlockWith fuel rest).of_suffix (List.suffix_cons token rest)

/-- A body starts with a brace. -/
theorem opens_of_toBlockWith : ∀ {fuel : Nat} {tokens body : List Token},
    toBlockWith fuel tokens = .ok body → body ≠ [] →
      ∃ token rest, body = token :: rest ∧ token.opens = true
  | 0, _, _, h, hne => absurd (Except.ok.inj h).symm hne
  | _ + 1, [], _, h, hne => absurd (Except.ok.inj h).symm hne
  | fuel + 1, token :: rest, body, h, hne => by
    rw [toBlockWith] at h
    split_ifs at h with hbrace hbracket
    · exact ⟨token, rest, (Except.ok.inj h).symm, hbrace ▸ by decide⟩
    · obtain ⟨_, -, h⟩ := bind_eq_ok_iff.mp h
      exact opens_of_toBlockWith h hne
    · exact opens_of_toBlockWith h hne

theorem readsFrom_afterResult (tokens : List Token) :
    ReadsFrom fault id tokens (afterResult tokens) := by
  unfold afterResult
  split_ifs
  · have hread := (Ty.readsFrom_read (tokens.drop 1)).of_suffix (List.drop_suffix 1 tokens)
    split
    · next e he =>
      refine .error ⟨nofun, fun e' he' => ?_⟩
      obtain rfl := SourceError.type.inj he'
      exact hread.blamed _ he e' rfl
    · next type rest hrest => exact .ok (hread.suffix _ hrest)
  · exact .ok List.suffix_rfl

theorem readsFrom_afterBody (tokens : List Token) : ReadsFrom fault id tokens (afterBody tokens) := by
  unfold afterBody
  split_ifs with hbrace
  · obtain ⟨rest, rfl⟩ := List.head?_eq_some_iff.mp hbrace
    exact (readsFrom_group (by decide) rest).andThen fun _ => .ok List.suffix_rfl
  · exact .ok List.suffix_rfl

theorem readsFrom_readFunction (tokens : List Token) :
    ReadsFrom fault Prod.snd tokens (readFunction tokens) := by
  unfold readFunction
  split
  · next name rest =>
    split_ifs with hround
    · obtain ⟨opener, left, rfl, hopens⟩ := opens_of_round hround
      refine .of_suffix ((readsFrom_parameterList hopens left).andThen fun (found, rest) => ?_)
        (List.suffix_cons _ _)
      exact (readsFrom_afterResult rest).andThen fun rest =>
        (readsFrom_afterBody rest).andThen fun _ => .ok List.suffix_rfl
    · exact .ok List.suffix_rfl
  · exact .ok List.suffix_rfl

theorem readsFrom_readTransaction (tokens : List Token) :
    ReadsFrom fault Prod.snd tokens (readTransaction tokens) := by
  have hbody : ∀ (found : Option (List Parameter)) (rest : List Token), rest <:+ tokens →
      ReadsFrom fault Prod.snd tokens
        (if rest.head? = some (.mark '\x7b') then do
          let body ← members "prepare" rest
          .ok (some (Declaration.transaction ⟨found, body.1.head?⟩), body.2)
        else .ok (none, tokens)) := by
    intro found rest hrest
    split_ifs with hbrace
    · obtain ⟨left, rfl⟩ := List.head?_eq_some_iff.mp hbrace
      exact .of_suffix ((readsFrom_members "prepare" (by decide) left).andThen fun _ =>
        .ok List.suffix_rfl) hrest
    · exact .ok List.suffix_rfl
  unfold readTransaction
  split
  · next hround =>
    obtain ⟨opener, left, rfl, hopens⟩ := opens_of_round hround
    have hlist := readsFrom_parameterList hopens left
    exact .bind hlist.blamed fun found hfound =>
      hbody (some found.1) found.2 (hlist.suffix _ hfound)
  · exact hbody none tokens List.suffix_rfl

theorem readsFrom_readComposite (kind identifier : Text) (tokens : List Token) :
    ReadsFrom fault Prod.snd tokens (readComposite kind identifier tokens) := by
  unfold readComposite
  split_ifs with hevent hround
  · obtain ⟨opener, left, rfl, hopens⟩ := opens_of_round hround
    exact (readsFrom_parameterList hopens left).andThen fun _ => .ok List.suffix_rfl
  · exact .ok List.suffix_rfl
  · have hblock := readsFrom_toBlockWith tokens.length tokens
    refine .bind hblock.blamed fun body hbody => .of_suffix ?_ (hblock.suffix body hbody)
    split_ifs with hnil
    · exact .ok List.nil_suffix
    · obtain ⟨opener, left, rfl, hopens⟩ := opens_of_toBlockWith hbody hnil
      exact (readsFrom_members "init" hopens left).andThen fun _ => .ok List.suffix_rfl

theorem readsFrom_readCompositeOrInterface (kind : Text) (tokens : List Token) :
    ReadsFrom fault Prod.snd tokens (readCompositeOrInterface kind tokens) := by
  unfold readCompositeOrInterface
  split
  · next word rest =>
    have hrest : rest <:+ .identifier word :: rest := List.suffix_cons _ _
    split_ifs
    · split
      · next name left =>
        exact .of_suffix ((readsFrom_readComposite kind name left).andThen fun _ =>
          .ok List.suffix_rfl) ((List.suffix_cons _ left).trans hrest)
      · exact .ok List.suffix_rfl
    · exact .of_suffix ((readsFrom_readComposite kind word rest).andThen fun _ =>
        .ok List.suffix_rfl) hrest
  · exact .ok List.suffix_rfl

/-- One step of the scan. -/
theorem readsFrom_step (token : Token) (rest : List Token) :
    ReadsFrom fault (fun found => found.2) (token :: rest) (step token rest) := by
  have hrest : rest <:+ token :: rest := List.suffix_cons token rest
  unfold step
  split
  · split_ifs
    · exact (readsFrom_readFunction rest).of_suffix hrest
    · exact (readsFrom_readTransaction rest).of_suffix hrest
    · exact (readsFrom_readCompositeOrInterface _ rest).of_suffix hrest
    · exact .ok hrest
  · split_ifs with hopens
    · exact (readsFrom_group hopens rest).andThen fun _ => .ok List.suffix_rfl
    · exact .ok hrest

theorem readsFrom_declarationsWith : ∀ (fuel : Nat) (tokens : List Token),
    ReadsFrom fault (fun _ => []) tokens (declarationsWith fuel tokens)
  | 0, _ => .ok List.nil_suffix
  | _ + 1, [] => .ok List.nil_suffix
  | fuel + 1, token :: rest => by
    rw [declarationsWith]
    exact (readsFrom_step token rest).andThen fun (found, after) =>
      (readsFrom_declarationsWith fuel after).andThen fun _ => .ok List.nil_suffix

/-! ## Enough fuel -/

theorem length_group {tokens inside after : List Token} (h : group tokens = .ok (inside, after)) :
    after.length < tokens.length := by
  have := Bracket.group?_length (group_eq_ok h)
  omega

/-- Every step takes a token. -/
theorem length_step {token : Token} {rest after : List Token} {found : Option Declaration}
    (h : step token rest = .ok (found, after)) : after.length ≤ rest.length := by
  unfold step at h
  split at h
  · split_ifs at h
    · exact ((readsFrom_readFunction rest).suffix _ h).length_le
    · exact ((readsFrom_readTransaction rest).suffix _ h).length_le
    · exact ((readsFrom_readCompositeOrInterface _ rest).suffix _ h).length_le
    · rw [(Prod.mk.inj (Except.ok.inj h)).2]
  · split_ifs at h
    · obtain ⟨⟨inside, left⟩, hgroup, h⟩ := bind_eq_ok_iff.mp h
      obtain ⟨-, rfl⟩ := Prod.mk.inj (Except.ok.inj h)
      exact Nat.le_of_lt_succ (length_group hgroup)
    · rw [(Prod.mk.inj (Except.ok.inj h)).2]

/-- As much fuel as there are tokens is enough for the whole scan. -/
theorem declarationsWith_of_le : ∀ (fuel more : Nat) (tokens : List Token),
    tokens.length ≤ fuel → fuel ≤ more → declarationsWith more tokens = declarationsWith fuel tokens
  | 0, 0, [], _, _ => rfl
  | 0, _ + 1, [], _, _ => rfl
  | _ + 1, _ + 1, [], _, _ => rfl
  | fuel + 1, more + 1, token :: rest, hfuel, hmore => by
    have hrest : rest.length ≤ fuel := Nat.le_of_succ_le_succ hfuel
    simp only [declarationsWith]
    refine bind_congr_ok fun (found, after) hstep => ?_
    have hafter : after.length ≤ fuel := (length_step hstep).trans hrest
    simp only [declarationsWith_of_le fuel more after hafter (Nat.le_of_succ_le_succ hmore)]

/-! ## Outcomes -/

/-- What reading the source `code` of a file may end with: a program, an error whose text starts with
the name of the file and a colon, or the error of a constant array size in the source that consists of
digits and cannot be read. -/
inductive Outcome (file code : Text) : Except SourceError Program → Prop
  /-- The source is a program. -/
  | program (program : Program) : Outcome file code (.ok program)
  /-- The error is reported under the name of the file. -/
  | reported {e : SourceError} : file ++ (":" : Text) <+: e.message file →
      Outcome file code (.error e)
  /-- The size of a constant array cannot be read. -/
  | size {tokens : List Token} {e : NumeralError} : Token.scan code = .ok tokens →
      HasUnreadableSize tokens e → Outcome file code (.error (.type (.size e)))

theorem prefix_concat (file : Text) {first : Text} (rest : List Text)
    (h : (":" : Text) <+: first) : file ++ (":" : Text) <+: Text.concat (file :: first :: rest) := by
  rw [Text.concat, List.flatten_cons, List.flatten_cons]
  exact (List.prefix_append_right_inj file).mpr (h.trans (List.prefix_append _ _))

/-- All errors but two kinds are reported under the name of the file. -/
theorem prefix_message (file : Text) {e : SourceError} (hpartner : ∀ opener, e ≠ .noPartner opener)
    (hsize : ∀ e', e ≠ .type (.size e')) : file ++ (":" : Text) <+: e.message file := by
  have hmark : (":" : Text) <+: ": " := by decide
  cases e with
  | notUtf8 => exact prefix_concat file [] (hmark.trans ⟨_, rfl⟩)
  | scan e => exact prefix_concat file [e.message] hmark
  | bracket e => exact prefix_concat file [e.message] hmark
  | invalidParameter text => exact prefix_concat file _ (hmark.trans ⟨_, rfl⟩)
  | invalidType text => exact prefix_concat file _ (hmark.trans ⟨_, rfl⟩)
  | noPartner opener => exact absurd rfl (hpartner opener)
  | type e =>
    cases e with
    | size e => exact absurd rfl (hsize e)
    | expected | invalidSize | unclosed | noType | trailing | scan =>
      exact prefix_concat file [AnnotationError.message _] hmark

theorem ofTokens_error {tokens : List Token} {e : SourceError} (h : ofTokens tokens = .error e) :
    (∀ opener, e ≠ .noPartner opener) ∧
      ∀ e', e = .type (.size e') → HasUnreadableSize tokens e' := by
  unfold ofTokens at h
  split at h
  · obtain rfl := Except.error.inj h
    exact ⟨nofun, nofun⟩
  · next hcheck =>
    have hpaired := (Bracket.check_eq_ok_iff.mp hcheck).paired
    cases hscan : declarationsWith tokens.length tokens with
    | ok declarations => rw [hscan] at h; cases h
    | error e' =>
      rw [hscan] at h
      obtain rfl := Except.error.inj h
      obtain ⟨hpartner, hsize⟩ := (readsFrom_declarationsWith _ tokens).blamed _ hscan
      exact ⟨hpartner hpaired, hsize⟩

theorem outcome_parse (file code : Text) : Outcome file code (parse code) := by
  unfold parse
  split
  · exact .reported (prefix_message file nofun nofun)
  · next tokens hscan =>
    cases hread : ofTokens tokens with
    | ok program => exact .program program
    | error e =>
      obtain ⟨hpartner, hsize⟩ := ofTokens_error hread
      by_cases hreported : ∃ e', e = .type (.size e')
      · obtain ⟨e', rfl⟩ := hreported
        exact .size hscan (hsize e' rfl)
      · exact .reported (prefix_message file hpartner fun e' he => hreported ⟨e', he⟩)

/-- An opening bracket among checked tokens has a group, whose inside would pass the check too and is
followed by the bracket that closes it. -/
theorem exists_group {tokens rest : List Token} {token : Token} (hcheck : Bracket.check tokens = .ok ())
    (hrest : token :: rest <:+ tokens) (hopens : token.opens = true) :
    ∃ inside closer after, group (token :: rest) = .ok (inside, after) ∧
      Bracket.check inside = .ok () ∧ closer.closes = true ∧ rest = inside ++ closer :: after := by
  have hpaired := (Bracket.check_eq_ok_iff.mp hcheck).paired.of_suffix hrest
  obtain ⟨inside, after, hinside, hfound⟩ := hpaired.1 hopens
  obtain ⟨c, closer, hc, heq⟩ := Bracket.group?_eq_some hfound
  refine ⟨inside, .mark closer, after, ?_, Bracket.check_eq_ok_iff.mpr hinside, ?_,
    (List.cons.inj heq).2⟩
  · rw [group, hfound]
  · simp [Token.closes, Bracket.opener?_closer hc]

/-- Reading a source, given as text or as bytes, ends with a program, with an error under the name of
the file, or with that of a constant array size that cannot be read. Once the brackets of its tokens
have been checked, the scan finds the partner of every opening bracket it comes upon, and a token
behind every token inside a group, and it comes to the end of the tokens. -/
theorem parse_safe (file : Text) :
    (∀ code, Outcome file code (parse code)) ∧
    (∀ bytes, (∃ code, Utf8.decode bytes = .ok code ∧ Outcome file code (ofBytes bytes)) ∨
      ∃ e, ofBytes bytes = .error e ∧ file ++ (":" : Text) <+: e.message file) ∧
    ∀ tokens, Bracket.check tokens = .ok () →
      (∀ opener, ofTokens tokens ≠ .error (.noPartner opener)) ∧
      (∀ token rest, token :: rest <:+ tokens → token.opens = true →
        ∃ inside closer after, group (token :: rest) = .ok (inside, after) ∧
          Bracket.check inside = .ok () ∧ closer.closes = true ∧ rest = inside ++ closer :: after) ∧
      ∀ fuel, tokens.length ≤ fuel →
        declarationsWith fuel tokens = declarationsWith tokens.length tokens := by
  refine ⟨outcome_parse file, fun bytes => ?_, fun tokens hcheck => ⟨?_, ?_, ?_⟩⟩
  · unfold ofBytes
    split
    · exact .inr ⟨_, rfl, prefix_message file nofun nofun⟩
    · next code hcode => exact .inl ⟨code, hcode, outcome_parse file code⟩
  · exact fun opener herror => (ofTokens_error herror).1 opener rfl
  · exact fun token rest => exists_group hcheck
  · exact fun fuel hfuel => declarationsWith_of_le tokens.length fuel tokens le_rfl hfuel

/-- The size is a digit of no number. The brackets are in order, so the group of the parameters is
found with everything up to the round bracket that closes it. -/
theorem parse_safe_of_size : ∃ tokens,
    Token.scan "fun f(a: [Int; \u00b2]) \x7b\x7d" = .ok tokens ∧ Bracket.check tokens = .ok () ∧
      parse "fun f(a: [Int; \u00b2]) \x7b\x7d" = .error (.type (.size (.malformed 10 "\u00b2"))) ∧
      HasUnreadableSize tokens (.malformed 10 "\u00b2") ∧
      (∃ inside closer after, group (tokens.drop 2) = .ok (inside, after) ∧
        Bracket.check inside = .ok () ∧ closer.closes = true ∧
        tokens.drop 3 = inside ++ closer :: after) ∧
      declarationsWith 20 tokens = declarationsWith tokens.length tokens := by
  obtain ⟨tokens, htokens⟩ : ∃ tokens : List Token, tokens = [.identifier "fun", .identifier "f",
      .mark '(', .identifier "a", .mark ':', .mark '[', .identifier "Int", .mark ';', .mark '\u00b2',
      .mark ']', .mark ')', .mark '\x7b', .mark '\x7d'] := ⟨_, rfl⟩
  have hscan : Token.scan "fun f(a: [Int; \u00b2]) \x7b\x7d" = .ok tokens := by
    rw [htokens]
    cbv
  have hcheck : Bracket.check tokens = .ok () := by
    rw [htokens]
    rfl
  have hparse : parse "fun f(a: [Int; \u00b2]) \x7b\x7d" =
      .error (.type (.size (.malformed 10 "\u00b2"))) := by
    rw [parse, hscan, htokens]
    rfl
  obtain ⟨houtcome, -, hscanned⟩ := parse_safe "f.cdc"
  obtain ⟨-, hgroup, hfuel⟩ := hscanned tokens hcheck
  have hsize : HasUnreadableSize tokens (.malformed 10 "\u00b2") := by
    have hresult := houtcome "fun f(a: [Int; \u00b2]) \x7b\x7d"
    rw [hparse] at hresult
    cases hresult with
    | reported hprefix => exact absurd hprefix (by decide)
    | size hother hsize => exact Except.ok.inj (hscan.symm.trans hother) ▸ hsize
  have hfront : tokens.drop 2 = .mark '(' :: tokens.drop 3 := by
    rw [htokens]
    rfl
  refine ⟨tokens, hscan, hcheck, hparse, hsize, ?_, hfuel 20 (by rw [htokens]; decide)⟩
  rw [hfront]
  exact hgroup _ _ (hfront ▸ List.drop_suffix 2 tokens) (by decide)

end Program

end ContractKit
