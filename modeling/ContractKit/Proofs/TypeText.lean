import ContractKit.Proofs.Annotation
import ContractKit.Proofs.Rendering

/-!
# The text of a type

A type of the grammar is read in full (`Ty.IsType.exists_read`), and the text of what is read is one of
tokens that are read as the same type (`Ty.RoundTrips`). Where the type is known by its text alone, these
are the tokens it was read from, rendered. Otherwise the text is put together from those of the parts.
-/

namespace ContractKit

open Token

/-! ## Tokens of types are found again -/

namespace Token

/-- A separating mark between tokens. -/
theorem Renders.separated {ts us : List Token} (hts : Renders ts) {c : CodePoint}
    (hc : (mark c).IsProper ∧ Separates c) (hus : Renders us) : Renders (ts ++ .mark c :: us) :=
  hts.append_mark hus hc.1 hc.2.2.1 fun a _ t => endsBefore_of_separates hc.2 a t

theorem Renders.commaSeparated {pieces : List (List Token)} (h : ∀ piece ∈ pieces, Renders piece) :
    Renders (commaSeparated pieces) := by
  induction pieces with
  | nil => exact .nil
  | cons first others ih =>
    obtain ⟨hfirst, hothers⟩ := List.forall_mem_cons.mp h
    cases others with
    | nil => rwa [commaSeparated_singleton]
    | cons second others =>
      rw [commaSeparated_cons_cons]
      exact hfirst.separated (by decide) (ih hothers)

theorem mem_commaSeparated {pieces : List (List Token)} {piece : List Token} (hpiece : piece ∈ pieces)
    {token : Token} (h : token ∈ piece) : token ∈ Token.commaSeparated pieces := by
  induction pieces with
  | nil => cases hpiece
  | cons first others ih =>
    cases others with
    | nil =>
      obtain rfl := List.mem_singleton.mp hpiece
      rwa [commaSeparated_singleton]
    | cons second others =>
      rw [commaSeparated_cons_cons]
      rcases List.mem_cons.mp hpiece with rfl | hpiece
      · exact List.mem_append_left _ h
      · exact List.mem_append_right _ (List.mem_cons_of_mem _ (ih hpiece))

/-- The parts of a name and the points between them. -/
theorem Renders.dotted {first : Text} {parts : List Text}
    (h : ∀ part ∈ first :: parts, (identifier part).IsProper) : Renders (dotted first parts) := by
  induction parts generalizing first with
  | nil => exact .word (h first (by simp)) (by simp)
  | cons part parts ih =>
    obtain ⟨hfirst, hparts⟩ := List.forall_mem_cons.mp h
    refine (Renders.word hfirst (by simp)).append_mark (c := '.') (ih hparts) (by decide) (by decide) ?_
    rintro a ⟨⟩ t
    exact fun c hc => Option.some.inj hc ▸ rfl

end Token

namespace Ty

theorem forall_isProper_dotted {first : Text} {parts : List Text}
    (h : ∀ token ∈ dotted first parts, token.IsProper) :
    ∀ part ∈ first :: parts, (identifier part).IsProper := by
  refine fun part hpart => h _ ?_
  rcases List.mem_cons.mp hpart with rfl | hpart
  · exact List.mem_cons_self
  · exact List.mem_cons_of_mem _ (List.mem_flatMap.mpr ⟨part, hpart, by simp⟩)

theorem IsSize.isProper {digits : Text} (h : IsSize digits) : (number digits).IsProper := by
  obtain ⟨hne, -, hdigits⟩ := h
  obtain ⟨c, rest, rfl⟩ := List.exists_cons_of_ne_nil hne
  obtain ⟨hc, hrest⟩ := List.forall_mem_cons.mp hdigits
  refine ⟨c, rest, rfl, hc, fun d hd => ?_⟩
  simp [continuesNumber, CodePoint.continuesIdentifier, hrest d hd]

theorem IsType.renders {ts : List Token} (h : IsType ts) :
    (∀ token ∈ ts, token.IsProper) → Renders ts := by
  have hname : ∀ {ts : List Token}, IsName ts → (∀ token ∈ ts, token.IsProper) → Renders ts := by
    rintro _ ⟨first, parts, -, rfl⟩ hproper
    exact .dotted (forall_isProper_dotted hproper)
  have hnames : ∀ {names : List (List Token)}, (∀ ts ∈ names, IsName ts) →
      (∀ token ∈ commaSeparated names, token.IsProper) → Renders (commaSeparated names) :=
    fun hall hproper => .commaSeparated fun ts hts =>
      hname (hall ts hts) fun token h => hproper token (mem_commaSeparated hts h)
  induction h with
  | name h => exact hname h
  | optional _ ih =>
    exact fun hproper => (ih fun token h => hproper token (by simp [h])).separated (by decide) .nil
  | array _ ih =>
    intro hproper
    have hts := ih fun token h => hproper token (by simp [h])
    exact Renders.nil.separated (by decide) (hts.separated (by decide) .nil)
  | constant _ hdigits ih =>
    intro hproper
    have hts := ih fun token h => hproper token (by simp [h])
    have hsize : Renders [number _] := .word hdigits.isProper (by simp)
    exact Renders.nil.separated (by decide) (hts.separated (by decide)
      (hsize.separated (by decide) .nil))
  | dictionary _ _ ihkey ihvalue =>
    intro hproper
    have hkey := ihkey fun token h => hproper token (by simp [h])
    have hvalue := ihvalue fun token h => hproper token (by simp [h])
    exact Renders.nil.separated (by decide) (hkey.separated (by decide)
      (hvalue.separated (by decide) .nil))
  | reference _ ih =>
    intro hproper
    exact Renders.nil.separated (by decide) (ih fun token h => hproper token (by simp [h]))
  | authorized _ ih =>
    intro hproper
    have hauth : Renders [identifier "auth"] := .word (hproper _ (by simp)) (by simp)
    exact hauth.separated (by decide) (ih fun token h => hproper token (by simp [h]))
  | generic h _ _ ih =>
    intro hproper
    have hts := hname h fun token h => hproper token (by simp [h])
    refine hts.separated (by decide) (.separated (.commaSeparated fun ts hts => ?_) (by decide) .nil)
    exact ih ts hts fun token h => hproper token (by simp [mem_commaSeparated hts h])
  | restricted h _ hall =>
    intro hproper
    have hts := hname h fun token h => hproper token (by simp [h])
    have hinside := hnames hall fun token h => hproper token (by simp [h])
    exact hts.separated (by decide) (hinside.separated (by decide) .nil)
  | restrictions _ hall =>
    intro hproper
    have hinside := hnames hall fun token h => hproper token (by simp [h])
    exact Renders.nil.separated (by decide) (hinside.separated (by decide) .nil)
  | resource _ _ ih =>
    intro hproper
    exact Renders.nil.separated (by decide) (ih fun token h => hproper token (by simp [h]))

/-- No space follows a type in rendered text. -/
theorem IsType.isSpaced_getLast? {ts : List Token} (h : IsType ts) :
    ∀ a ∈ ts.getLast?, a.isSpaced = false := by
  have hlast : ∀ {ts : List Token} {a : Token}, ts.getLast? = some a → a.isSpaced = false →
      ∀ b ∈ ts.getLast?, b.isSpaced = false := by
    intro ts a ha hspaced b hb
    rw [ha] at hb
    exact Option.some.inj hb ▸ hspaced
  have hcons : ∀ {a : Token} {ts : List Token}, ts ≠ [] → (∀ b ∈ ts.getLast?, b.isSpaced = false) →
      ∀ b ∈ (a :: ts).getLast?, b.isSpaced = false := by
    intro a ts hne ih b hb
    exact ih b (by rwa [← List.singleton_append, List.getLast?_append_of_ne_nil _ hne] at hb)
  induction h with
  | name h =>
    rcases h.isOpenEnded with ⟨name, hopen⟩ | hopen
    · exact hlast hopen rfl
    · exact hlast hopen rfl
  | reference hts ih => exact hcons hts.ne_nil ih
  | authorized hts ih => exact hcons (by simp) (hcons hts.ne_nil ih)
  | resource hts _ ih => exact hcons hts.ne_nil ih
  | optional => exact hlast List.getLast?_concat rfl
  | array | constant => exact hlast (a := .mark ']') (by simp [List.getLast?_cons]) rfl
  | generic => exact hlast (a := .mark '>') (by simp [List.getLast?_cons]) rfl
  | dictionary | restricted | restrictions =>
    exact hlast (a := .mark '\x7d') (by simp [List.getLast?_cons]) rfl

theorem IsType.spells_render {ts : List Token} (h : IsType ts)
    (hproper : ∀ token ∈ ts, token.IsProper) : Spells ts (render ts) :=
  (h.renders hproper).spells_render fun a ha =>
    ⟨hproper a (List.mem_of_mem_getLast? ha), h.isSpaced_getLast? a ha⟩

/-! ## Types that are found again in their text -/

/-- A text is the type that its tokens are read as. -/
theorem Reads.parse_eq {ts : List Token} {type : Ty} (h : Reads ts 0 type) {s : Text}
    (hs : scan s = .ok ts) : parse s = .ok type := by
  have hread : Ty.read ts = .ok (type, []) := by
    have := h.read (Nat.le_add_right (2 * ts.length) 2)
      (.of_endsName endsName_nil (by simp) : EndsType ts [])
    rwa [List.append_nil] at this
  rw [parse, hs]
  simp only [hread]

/-- The text of the type consists of tokens that are read as the type. -/
def RoundTrips (type : Ty) : Prop :=
  ∃ us, Reads us 0 type ∧ Spells us type.text

theorem RoundTrips.parse_text {type : Ty} (h : RoundTrips type) : parse type.text = .ok type := by
  obtain ⟨us, hreads, hspells⟩ := h
  exact hreads.parse_eq (hspells.scan_eq fun a _ => endsBefore_nil a)

/-- The optional marks behind a type may as well belong to it. -/
theorem Reads.marks {ts : List Token} {n : Nat} {type : Ty} (h : Reads ts n type) :
    Reads (ts ++ optionalMarks n) 0 type := by
  induction n generalizing ts with
  | zero => rwa [optionalMarks, List.replicate_zero, List.append_nil]
  | succ n ih =>
    have := ih h.optional
    rwa [List.append_assoc] at this

theorem IsType.append_optionalMarks {ts : List Token} (h : IsType ts) (n : Nat) :
    IsType (ts ++ optionalMarks n) := by
  induction n generalizing ts with
  | zero => rwa [optionalMarks, List.replicate_zero, List.append_nil]
  | succ n ih =>
    have := ih h.optional
    rwa [List.append_assoc] at this

theorem forall_isProper_append_optionalMarks {ts : List Token} (h : ∀ token ∈ ts, token.IsProper)
    (n : Nat) : ∀ token ∈ ts ++ optionalMarks n, token.IsProper := by
  refine List.forall_mem_append.mpr ⟨h, fun token htoken => ?_⟩
  rw [List.eq_of_mem_replicate htoken]
  decide

theorem spells_optional {vs : List Token} {type : Ty} (h : Spells vs type.text) (n : Nat) :
    Spells (vs ++ optionalMarks n) (optional^[n] type).text := by
  induction n generalizing vs type with
  | zero => rwa [optionalMarks, List.replicate_zero, List.append_nil]
  | succ n ih =>
    have hmark : Spells (vs ++ [mark '?']) (type.text ++ [('?' : CodePoint)]) :=
      h.append_mark .nil (by decide) (by decide)
    have htext : type.optional.text = type.text ++ [('?' : CodePoint)] := rfl
    have := ih (htext ▸ hmark)
    rwa [List.append_assoc] at this

/-- A type without marker, whose text consists of tokens that are read as it. -/
theorem ReadsBase.roundTrips {vs : List Token} {type : Ty} (h : ReadsBase vs type) (hne : vs ≠ [])
    (hmarker : vs.head? ≠ some (.mark '@')) (hspells : Spells vs type.text) (n : Nat) :
    RoundTrips (optional^[n] type) :=
  ⟨vs ++ optionalMarks n, (h.reads hne hmarker n).marks, spells_optional hspells n⟩

theorem ofName_text (name : Text) : (ofName name).text = name := by
  unfold ofName
  split_ifs with haddress
  · exact haddress.symm
  · split
    · next type htype =>
      have hname : type.name = name := by simpa using List.find?_some htype
      exact hname
    · rfl

/-- The size of a constant array is written in digits that denote it. -/
theorem isSize_ofNat {digits : Text} (h : IsSize digits) :
    IsSize (Numeral.ofNat 10 (sizeOfDigits digits)) ∧
      sizeOfDigits (Numeral.ofNat 10 (sizeOfDigits digits)) = sizeOfDigits digits := by
  have hshort := Numeral.isShort_of_readDecimal (readDecimal_of_isSize h).2
  have hsize : IsSize (Numeral.ofNat 10 (sizeOfDigits digits)) :=
    ⟨Numeral.ofNat_ne_nil 10 _, by rwa [Numeral.ofNat, List.length_map],
      Numeral.isAsciiDigit_of_mem_ofNat⟩
  have hread := (readDecimal_of_isSize hsize).2
  rw [Numeral.readDecimal_ofNat hshort] at hread
  exact ⟨hsize, (Except.ok.inj hread).symm⟩

theorem spells_array {us : List Token} {type : Ty} (h : Spells us type.text) :
    Spells (.mark '[' :: (us ++ [.mark ']'])) (array type).text := by
  have htext : (array type).text = ('[' : CodePoint) :: (type.text ++ [(']' : CodePoint)]) := rfl
  rw [htext]
  exact (h.append_mark .nil (by decide) (by decide)).mark (by decide) (by decide)

theorem spells_constant {us : List Token} {type : Ty} (h : Spells us type.text) {size : Nat}
    (hsize : IsSize (Numeral.ofNat 10 size)) :
    Spells (.mark '[' :: (us ++ [.mark ';', .number (Numeral.ofNat 10 size), .mark ']']))
      (constant type size).text := by
  have htext : (constant type size).text = ('[' : CodePoint) :: (type.text ++ (';' : CodePoint) ::
      (' ' : CodePoint) :: (Numeral.ofNat 10 size ++ [(']' : CodePoint)])) := rfl
  have hnumber : Spells [.number _] (Numeral.ofNat 10 size) := .token hsize.isProper
  have hclose := (hnumber.append_mark (c := ']') .nil (by decide) (by decide)).blank
    (c := ' ') (by decide)
  rw [htext]
  exact (h.append_mark hclose (by decide) (by decide)).mark (by decide) (by decide)

theorem spells_dictionary {us vs : List Token} {key value : Ty} (hkey : Spells us key.text)
    (hvalue : Spells vs value.text) :
    Spells (.mark '\x7b' :: (us ++ .mark ':' :: (vs ++ [.mark '\x7d'])))
      (dictionary key value).text := by
  have htext : (dictionary key value).text = ('\x7b' : CodePoint) :: (key.text ++
      (':' : CodePoint) :: (' ' : CodePoint) :: (value.text ++ [('\x7d' : CodePoint)])) := rfl
  have hclose := (hvalue.append_mark (c := '\x7d') .nil (by decide) (by decide)).blank
    (c := ' ') (by decide)
  rw [htext]
  exact (hkey.append_mark hclose (by decide) (by decide)).mark (by decide) (by decide)

/-! ## Types of the grammar are read -/

/-- Every type of the grammar is read, with any number of optional marks behind it, and read again from
its text. -/
theorem IsType.exists_reads {ts : List Token} (h : IsType ts) :
    ∀ n, ∃ type, Reads ts n type ∧ ((∀ token ∈ ts, token.IsProper) → RoundTrips type) := by
  induction h with
  | @name ts hname =>
    intro n
    have hbase := readsBase_name hname
    have hmarker : ts.head? ≠ some (.mark '@') := by simpa using hname.head_ne []
    refine ⟨_, hbase.reads hname.ne_nil hmarker n, fun hproper => ?_⟩
    refine hbase.roundTrips hname.ne_nil hmarker ?_ n
    rw [ofName_text]
    exact (IsType.name hname).spells_render hproper
  | optional _ ih =>
    intro n
    obtain ⟨type, htype, hround⟩ := ih (n + 1)
    exact ⟨type, htype.optional, fun hproper => hround fun token h => hproper token (by simp [h])⟩
  | array _ ih =>
    intro n
    obtain ⟨type, htype, hround⟩ := ih 0
    refine ⟨_, (readsBase_array htype).reads (by simp) (by simp) n, fun hproper => ?_⟩
    obtain ⟨us, hus, hspells⟩ := hround fun token h => hproper token (by simp [h])
    exact (readsBase_array hus).roundTrips (by simp) (by simp) (spells_array hspells) n
  | @constant ts digits _ hdigits ih =>
    intro n
    obtain ⟨type, htype, hround⟩ := ih 0
    refine ⟨_, (readsBase_constant htype hdigits).reads (by simp) (by simp) n, fun hproper => ?_⟩
    obtain ⟨us, hus, hspells⟩ := hround fun token h => hproper token (by simp [h])
    obtain ⟨hsize, hsame⟩ := isSize_ofNat hdigits
    have hbase := readsBase_constant hus hsize
    rw [hsame] at hbase
    exact hbase.roundTrips (by simp) (by simp) (spells_constant hspells hsize) n
  | dictionary _ _ ihkey ihvalue =>
    intro n
    obtain ⟨keyType, hkey, hroundkey⟩ := ihkey 0
    obtain ⟨valueType, hvalue, hroundvalue⟩ := ihvalue 0
    refine ⟨_, (readsBase_dictionary hkey hvalue).reads (by simp) (by simp) n, fun hproper => ?_⟩
    obtain ⟨us, hus, hspellskey⟩ := hroundkey fun token h => hproper token (by simp [h])
    obtain ⟨vs, hvs, hspellsvalue⟩ := hroundvalue fun token h => hproper token (by simp [h])
    exact (readsBase_dictionary hus hvs).roundTrips (by simp) (by simp)
      (spells_dictionary hspellskey hspellsvalue) n
  | @reference ts hts ih =>
    intro n
    obtain ⟨type, htype, -⟩ := ih n
    refine ⟨_, htype.reference hts.ne_nil,
      fun hproper => ⟨.mark '&' :: (ts ++ optionalMarks n), ?_, ?_⟩⟩
    · simpa [optionalMarks] using htype.marks.reference (by simp [hts.ne_nil])
    · exact (IsType.reference (hts.append_optionalMarks n)).spells_render
        (forall_isProper_append_optionalMarks hproper n)
  | @authorized ts hts ih =>
    intro n
    obtain ⟨type, htype, -⟩ := ih n
    refine ⟨_, htype.authorized hts.ne_nil,
      fun hproper => ⟨.identifier "auth" :: .mark '&' :: (ts ++ optionalMarks n), ?_, ?_⟩⟩
    · simpa [optionalMarks] using htype.marks.authorized (by simp [hts.ne_nil])
    · exact (IsType.authorized (hts.append_optionalMarks n)).spells_render
        (forall_isProper_append_optionalMarks hproper n)
  | generic hname hne hall ih =>
    intro n
    have hbase := readsBase_generic hname hne fun ts hts => (ih ts hts 0).imp fun _ => And.left
    exact ⟨_, hbase.reads (by simp) (hname.head_ne _) n, fun hproper =>
      hbase.roundTrips (by simp) (hname.head_ne _)
        ((IsType.generic hname hne hall).spells_render hproper) n⟩
  | restricted hname hne hall =>
    intro n
    have hbase := readsBase_restricted hname hne hall
    exact ⟨_, hbase.reads (by simp) (hname.head_ne _) n, fun hproper =>
      hbase.roundTrips (by simp) (hname.head_ne _)
        ((IsType.restricted hname hne hall).spells_render hproper) n⟩
  | restrictions hne hall =>
    intro n
    have hbase := readsBase_restrictions hne hall
    exact ⟨_, hbase.reads (by simp) (by simp) n, fun hproper =>
      hbase.roundTrips (by simp) (by simp)
        ((IsType.restrictions hne hall).spells_render hproper) n⟩
  | resource hts hmarker ih =>
    intro n
    obtain ⟨type, htype, hround⟩ := ih n
    exact ⟨type, htype.resource hts.ne_nil hmarker,
      fun hproper => hround fun token h => hproper token (by simp [h])⟩

/-- Every type of the grammar is read in front of tokens that do not go on with it. -/
theorem IsType.exists_read {ts : List Token} (h : IsType ts) :
    ∃ type, ∀ rest, EndsType ts rest → Ty.read (ts ++ rest) = .ok (type, rest) := by
  obtain ⟨type, htype, -⟩ := h.exists_reads 0
  refine ⟨type, fun rest hrest => htype.read ?_ hrest⟩
  simp only [List.length_append]
  omega

end Ty

end ContractKit
