import ContractKit.Proofs.CanonicalKey
import ContractKit.Proofs.UnusableFile

/-!
# Keys that are refused

The error about a text that is no private key is one of four that are fixed for the algorithm
(`PrivateKey.plainErrors`), unless blanks stand between the digits (`PrivateKey.IsSpaced`). Such a text
passes for hexadecimal, and the error that it is no numeral holds the whole key
(`PrivateKey.IsSpaced.validate_eq`). What is reported about the key of an account, of a service account or
of a key file is made from the error alone (`PrivateKey.refusal_of_validate`).
-/

namespace ContractKit.PrivateKey

variable {text algorithm key : Text} {e : KeyError}

/-! ## Numbers of hexadecimal pairs -/

theorem isBlank_or_isHexDigit_of_isHexPairs (h : isHexPairs key = true) :
    ∀ c ∈ key, c.isBlank = true ∨ Numeral.isHexDigit c = true := by
  fun_induction isHexPairs key with
  | case1 => exact fun _ hc => by cases hc
  | case2 c => exact List.forall_mem_singleton.mpr (.inl (CodePoint.isBlank_of_isAsciiBlank h))
  | case3 c d rest hblank ih =>
    exact List.forall_mem_cons.mpr ⟨.inl (CodePoint.isBlank_of_isAsciiBlank hblank), ih h⟩
  | case4 c d rest _ ih =>
    simp only [Bool.and_eq_true] at h
    exact List.forall_mem_cons.mpr ⟨.inr h.1.1, List.forall_mem_cons.mpr ⟨.inr h.1.2, ih h.2⟩⟩

/-- Trimming leaves something of bare hexadecimal pairs, for no blank stands at their end. -/
theorem trim_bare_ne_nil (hpairs : isHexPairs (bare text) = true) (hne : bare text ≠ []) :
    (bare text).trim ≠ [] := by
  have hlast := isBlank_getLast?_bare (isAscii_of_isHexPairs hpairs)
  rw [Text.trim_eq_trimLeft hlast]
  intro hnil
  have hblank := List.dropWhile_eq_nil_iff.mp hnil _ (List.getLast_mem hne)
  rw [hlast _ (List.getLast?_eq_some_getLast hne)] at hblank
  cases hblank

theorem eq_malformed_of_number (h : number key = .error e) : e = .numeral (.malformed 16 key) := by
  unfold number at h
  split at h
  · cases h
  · exact (Except.error.inj h).symm

theorem exists_number (hdigits : ∀ c ∈ key.trim, Numeral.isHexDigit c = true)
    (hne : key.trim ≠ []) : ∃ k, number key = .ok k := by
  obtain ⟨ds, hds⟩ := exists_mapM_eq_some hdigits
  cases ds with
  | nil => exact absurd (List.forall₂_nil_right_iff.mp (forall₂_of_mapM_eq_some hds)) hne
  | cons d ds => exact ⟨Numeral.value 16 (d :: ds), by rw [number, hds]⟩

theorem number_of_isBlank (h : ∃ c ∈ key.trim, c.isBlank = true) :
    number key = .error (.numeral (.malformed 16 key)) := by
  obtain ⟨c, hc, hblank⟩ := h
  have hno : ∀ k, number key ≠ .ok k := by
    intro k hk
    rw [CodePoint.isBlank_of_isHexDigit (isHexDigit_of_mem_trim hk c hc)] at hblank
    cases hblank
  obtain ⟨e, he⟩ := exists_error_of_forall_ne hno
  rw [he, eq_malformed_of_number he]

/-- Hexadecimal pairs are refused as a number for a blank between them. -/
theorem exists_isBlank_of_number (h : number key = .error e) (hpairs : isHexPairs key = true)
    (hne : key.trim ≠ []) : ∃ c ∈ key.trim, c.isBlank = true := by
  by_contra hblank
  have hdigits : ∀ c ∈ key.trim, Numeral.isHexDigit c = true := fun c hc =>
    (isBlank_or_isHexDigit_of_isHexPairs hpairs c ((Text.trim_infix key).subset hc)).resolve_left
      fun hc' => hblank ⟨c, hc, hc'⟩
  obtain ⟨k, hk⟩ := exists_number hdigits hne
  rw [hk] at h
  cases h

/-! ## Errors of validation -/

/-- The errors about a text that show nothing of it. -/
def plainErrors (algorithm : Text) : List KeyError :=
  [.unsupportedAlgorithm algorithm, .wrongLength, .notHex, .outOfRange algorithm]

/-- The text is taken for hexadecimal, although blanks stand between the digits of its key. -/
structure IsSpaced (text algorithm : Text) : Prop where
  known : ∃ curve, Curve.ofAlgorithm? algorithm = some curve
  length : (bare text).length = width
  pairs : isHexPairs (bare text) = true
  blank : ∃ c ∈ (bare text).trim, c.isBlank = true

/-- Blanks between the digits are found last, by an error that holds the key. -/
theorem IsSpaced.validate_eq (h : IsSpaced text algorithm) :
    validate text algorithm = .error (.numeral (.malformed 16 (bare text))) := by
  obtain ⟨curve, hcurve⟩ := h.known
  have hnormal : normalize text = .ok (bare text) :=
    normalize_eq_ok_iff.mpr ⟨rfl, h.length, h.pairs⟩
  rw [validate, curveFor_eq_ok_iff.mpr hcurve, ok_bind, hnormal, ok_bind, number_of_isBlank h.blank]
  rfl

theorem mem_plainErrors_of_curveFor (h : curveFor algorithm = .error e) :
    e ∈ plainErrors algorithm := by
  unfold curveFor at h
  split at h
  · cases h
  · simp [plainErrors, ← Except.error.inj h]

theorem mem_plainErrors_of_normalize (h : normalize text = .error e) : e ∈ plainErrors algorithm := by
  unfold normalize at h
  simp only at h
  split_ifs at h
  · simp [plainErrors, ← Except.error.inj h]
  · simp [plainErrors, ← Except.error.inj h]

theorem mem_plainErrors_or_isSpaced (h : validate text algorithm = .error e) :
    e ∈ plainErrors algorithm ∨ IsSpaced text algorithm := by
  rcases bind_eq_error_iff.mp h with h | ⟨curve, hcurve, h⟩
  · exact .inl (mem_plainErrors_of_curveFor h)
  rcases bind_eq_error_iff.mp h with h | ⟨key, hkey, h⟩
  · exact .inl (mem_plainErrors_of_normalize h)
  rcases bind_eq_error_iff.mp h with h | ⟨k, -, h⟩
  · obtain ⟨rfl, hlength, hpairs⟩ := normalize_eq_ok_iff.mp hkey
    have hne : bare text ≠ [] := List.ne_nil_of_length_pos (hlength ▸ by decide)
    have hblank := exists_isBlank_of_number h hpairs (trim_bare_ne_nil hpairs hne)
    exact .inr ⟨⟨curve, curveFor_eq_ok_iff.mp hcurve⟩, hlength, hpairs, hblank⟩
  · split_ifs at h
    exact .inl (by simp [plainErrors, ← Except.error.inj h])

/-! ## Keys in messages -/

theorem escapedFor_of_isHexDigit {c : CodePoint} (hc : Numeral.isHexDigit c = true) :
    c ≠ '\'' ∧ CodePoint.escapedFor '\'' c = [c] :=
  CodePoint.of_isHexDigit (P := fun c => c ≠ '\'' ∧ CodePoint.escapedFor '\'' c = [c])
    (by decide +kernel) (by decide +kernel) (by decide +kernel) hc

/-- Digits and spaces are shown as they are. -/
theorem quoted_eq_quote (hkey : ∀ c ∈ key, c = ' ' ∨ Numeral.isHexDigit c = true) :
    key.quoted = key.quote := by
  have hshown : ∀ c ∈ key, c ≠ '\'' ∧ CodePoint.escapedFor '\'' c = [c] := by
    intro c hc
    rcases hkey c hc with rfl | hdigit
    · decide +kernel
    · exact escapedFor_of_isHexDigit hdigit
  have hmark : key.quotationMark = '\'' := if_neg fun h => (hshown _ h.1).1 rfl
  rw [Text.quoted, hmark, List.flatMap_congr fun c hc => (hshown c hc).2, List.flatMap_singleton']
  rfl

/-- A key with spaces between its digits stands in the message as it is. -/
theorem message_malformed (hlength : key.length = width)
    (hkey : ∀ c ∈ key, c = ' ' ∨ Numeral.isHexDigit c = true) :
    (KeyError.numeral (.malformed 16 key)).message =
      .concat ["invalid literal for int() with base ", "16", ": ", key.quote] := by
  have hquote : key.quote.length = width + 2 := by
    rw [Text.quote, Text.concat, ← hlength]
    simp [Text.ofString]
  have hshort : key.quote.length ≤ Numeral.shownLimit := hquote ▸ by decide
  have hbase : Numeral.ofNat 10 16 = "16" := by decide +kernel
  rw [KeyError.message, NumeralError.message, quoted_eq_quote hkey, List.take_of_length_le hshort,
    hbase]

/-! ## What is reported -/

theorem readPrivateKey_of_validate (h : validate text algorithm = .error e) (hne : text ≠ [])
    (name : Text) :
    Accounts.readPrivateKey name (.str text) algorithm = .error (.invalidKey name e) := by
  rw [Accounts.readPrivateKey, Format.text_eq_ok_iff.mpr ⟨rfl, hne⟩, ok_bind, h]

theorem initial_of_validate (h : validate text algorithm = .error e) (path : Option Path)
    {settings : Settings} (hsettings : settings.sigAlgo = algorithm) :
    Project.initial text path settings = .error (.serviceKey e) := by
  rw [Project.initial, hsettings, h]

theorem keyOfFile_of_validate (h : validate text algorithm = .error e) (path : Path)
    {bytes : List UInt8} {content : Text} (hdecode : Utf8.decode bytes = .ok content)
    (htext : (Project.unifyLineEnds content).trim = text) :
    Project.keyOfFile path algorithm (.ok bytes) = .error (.invalidKeyFile path e) := by
  rw [Project.keyOfFile, Project.textOfFile_eq_ok_iff.mpr ⟨bytes, rfl, hdecode⟩, ok_bind, htext, h]
  rfl

/-- The error about a text that is refused is one of four, which are fixed for the algorithm, if and only
if the text is not taken for hexadecimal with blanks between its digits. Of a text that is, the error holds
the whole key, and where the blanks are spaces its message shows the key as it is. Readers of accounts, new
projects and readers of key files report about the text only by the error. -/
theorem refusal_of_validate (h : validate text algorithm = .error e) :
    (e ∈ plainErrors algorithm ↔ ¬ IsSpaced text algorithm) ∧
    (IsSpaced text algorithm → e = .numeral (.malformed 16 (bare text)) ∧
      ((∀ c ∈ bare text, c.isBlank = true → c = ' ') →
        e.message =
          .concat ["invalid literal for int() with base ", "16", ": ", (bare text).quote])) ∧
    (text ≠ [] → ∀ name,
      Accounts.readPrivateKey name (.str text) algorithm = .error (.invalidKey name e)) ∧
    (∀ path (settings : Settings), settings.sigAlgo = algorithm →
      Project.initial text path settings = .error (.serviceKey e)) ∧
    ∀ {σ : Type} [FileStore (StateM σ)] (base : Path) (index : Int) (hashAlgo location : Text)
      (log : List LogRecord) (s : σ) (bytes : List UInt8) (content : Text),
      Project.fileAt (Project.keyPath base location) s = .ok bytes →
      Utf8.decode bytes = .ok content → (Project.unifyLineEnds content).trim = text →
      ((Project.resolveKey base ⟨index, algorithm, hashAlgo, .file (some location)⟩ :
        Session Fault (StateM σ) Text) log s).1.1 =
          .error (.invalidKeyFile (Project.keyPath base location) e) := by
  have hspacedError : IsSpaced text algorithm → e = .numeral (.malformed 16 (bare text)) :=
    fun hspaced => Except.error.inj (h.symm.trans hspaced.validate_eq)
  refine ⟨⟨fun hplain hspaced => ?_, (mem_plainErrors_or_isSpaced h).resolve_right⟩,
    fun hspaced => ⟨hspacedError hspaced, fun hspaces => ?_⟩,
    readPrivateKey_of_validate h, fun path _ => initial_of_validate h path, ?_⟩
  · rw [hspacedError hspaced] at hplain
    simp [plainErrors] at hplain
  · rw [hspacedError hspaced]
    refine message_malformed hspaced.length fun c hc => ?_
    exact (isBlank_or_isHexDigit_of_isHexPairs hspaced.pairs c hc).imp_left (hspaces c hc)
  · intro σ _ base index hashAlgo location log s bytes content hfile hdecode htext
    rw [Project.run_resolveKey rfl, hfile]
    exact keyOfFile_of_validate h _ hdecode htext

/-- The key of zeros is refused without being shown. -/
theorem refusal_of_validate_zeros :
    let text : Text := List.replicate width '0'
    validate text "ECDSA_P256" = .error (.outOfRange "ECDSA_P256") ∧
      ¬ IsSpaced text "ECDSA_P256" ∧
      Accounts.readPrivateKey "a" (.str text) "ECDSA_P256" =
        .error (.invalidKey "a" (.outOfRange "ECDSA_P256")) := by
  intro text
  have h : validate text "ECDSA_P256" = .error (.outOfRange "ECDSA_P256") := by decide +kernel
  obtain ⟨hplain, -, hread, -⟩ := refusal_of_validate h
  exact ⟨h, hplain.mp (by decide), hread (by decide) "a"⟩

/-- A key with four spaces in its middle is refused by an error that shows it, and so is an account with
this key. -/
theorem infix_message_of_spaces :
    let key : Text := "111111111111111111111111111111    111111111111111111111111111111"
    let e : KeyError := .numeral (.malformed 16 key)
    validate key "ECDSA_P256" = .error e ∧ e ∉ plainErrors "ECDSA_P256" ∧ key <:+: e.message ∧
      key <:+: (FormatError.invalidKey "a" e).message := by
  intro key e
  have hshown : key <:+: e.message := by
    have hquote : key <:+: key.quote := List.infix_of_mem_flatten (by simp)
    rw [message_malformed (by decide) (by decide)]
    exact hquote.trans (List.infix_of_mem_flatten (by simp))
  refine ⟨by decide +kernel, by decide, hshown, hshown.trans ?_⟩
  exact List.infix_of_mem_flatten (by simp)

end ContractKit.PrivateKey
