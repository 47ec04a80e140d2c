import ContractKit.Project.Keys
import ContractKit.Proofs.Session
import ContractKit.Proofs.WireOutcome

/-!
# Files that cannot be used

Loading a project and looking for a private key in a file end in a fault of the configuration
(`Fault.isConfiguration`) whatever is wrong with the file, with few exceptions: a path that cannot be
handed to the system and bytes that are no UTF-8 are faults of their own (`Project.Escapes`), and so is a
whole number of too many digits in a configuration (`Project.HasLongNumber`). Both sessions depend on
nothing but what reading the file gives (`Project.run_load`, `Project.run_resolveKey`), so
`Project.unusable_file_iff` says for any place that stores files when these faults come up. On a disk
the first exception needs a null character or a surrogate in the path
(`Disk.exists_of_not_isSystem`).
-/

namespace ContractKit

/-- Whether the fault is one of the configuration: of its form, of its records or of its files. The
others are the faults of bytes, of numbers, of values, of paths and of writing. -/
def Fault.isConfiguration : Fault → Bool
  | .numeral _ | .notUtf8 _ | .encode (.wire _) | .key _ => false
  | .file _ _ | .noLocation | .unwritten _ => false
  | _ => true

/-! ## Disks -/

namespace Disk

variable {disk : Disk}

theorem isSystem_of_step {place : Place} {name : Text} {e : FileError}
    (h : disk.step place name = .error e) : e.isSystem = true := by
  unfold step at h
  split at h
  · exact Except.error.inj h ▸ rfl
  · exact Except.error.inj h ▸ rfl
  · split_ifs at h
    exact Except.error.inj h ▸ rfl

theorem isSystem_of_foldlM_step {names : List Text} {e : FileError} : ∀ {start : Place},
    names.foldlM disk.step start = .error e → e.isSystem = true := by
  induction names with
  | nil => exact fun h => by cases h
  | cons name rest ih =>
    intro start h
    rw [List.foldlM_cons] at h
    rcases bind_eq_error_iff.mp h with h | ⟨next, -, h⟩
    · exact isSystem_of_step h
    · exact ih h

/-- What is wrong with a path itself is that it is too long or holds a character that no path can
hold. -/
theorem exists_pathFault?_iff {text : Text} :
    (∃ e, pathFault? text = some e ∧ e.isSystem = false) ↔
      ∃ c ∈ text, c.val = 0 ∨ isBadSurrogate c = true := by
  unfold pathFault?
  constructor
  · rintro ⟨e, h, hsystem⟩
    split at h
    · next c hc => exact ⟨c, List.mem_of_find?_eq_some hc, .inr (List.find?_some hc)⟩
    · split_ifs at h with hnull
      · obtain ⟨c, hc, hzero⟩ := List.any_eq_true.mp hnull
        exact ⟨c, hc, .inl (of_decide_eq_true hzero)⟩
      · obtain rfl := Option.some.inj h
        cases hsystem
  · rintro ⟨c, hc, h⟩
    split
    · exact ⟨_, rfl, rfl⟩
    · next hnone =>
      have hzero : c.val = 0 := h.resolve_right (List.find?_eq_none.mp hnone c hc)
      rw [if_pos (List.any_eq_true.mpr ⟨c, hc, decide_eq_true hzero⟩)]
      exact ⟨_, rfl, rfl⟩

/-- Only a path that holds a null character or a surrogate is refused without asking the system. -/
theorem exists_not_isSystem_iff {path : Path} :
    (∃ e, disk.read path = .error e ∧ e.isSystem = false) ↔
      ∃ c ∈ path.text, c.val = 0 ∨ isBadSurrogate c = true := by
  rw [← exists_pathFault?_iff]
  constructor
  · rintro ⟨e, h, hsystem⟩
    rcases bind_eq_error_iff.mp h with h | ⟨place, -, h⟩
    · unfold locate at h
      split at h
      · next e' he' => exact ⟨e, Except.error.inj h ▸ he', hsystem⟩
      · rw [isSystem_of_foldlM_step h] at hsystem
        cases hsystem
    · split at h
      · obtain rfl := Except.error.inj h
        cases hsystem
      · obtain rfl := Except.error.inj h
        cases hsystem
      · cases h
  · rintro ⟨e, he, hsystem⟩
    refine ⟨e, bind_eq_error_iff.mpr (.inl ?_), hsystem⟩
    rw [locate, he]

end Disk

namespace Project

open Session

variable {σ : Type} [FileStore (StateM σ)] {path : Path} {settings : Settings} {algorithm : Text}
  {found : Except FileError (List UInt8)}

/-! ## Sessions that read one file -/

/-- What reading the file under a path gives. -/
def fileAt (path : Path) (s : σ) : Except FileError (List UInt8) :=
  ((FileStore.read path : StateM σ _) s).1

/-- The text of a file, from what reading it has given. An error of the system is a fault of the given
kind. -/
def textOfFile (kind : Path → FileError → Fault) (path : Path)
    (found : Except FileError (List UInt8)) : Except Fault Text := do
  let bytes ← found.mapError fun e => if e.isSystem then kind path e else .file path e
  (Utf8.decode bytes).mapError .notUtf8

/-- Why a file holds no configuration, from why its text holds no JSON. -/
def jsonFault (path : Path) : Json.ReadError → Fault
  | .malformed => .notJson path
  | .numeral e => .numeral e

/-- The project of a file, from what reading it has given. -/
def ofFile (path : Path) (settings : Settings) (found : Except FileError (List UInt8)) :
    Except Fault Project := do
  let text ← textOfFile .unreadable path found
  let raw ← (Json.parse text).mapError (jsonFault path)
  let document ← (Document.decode raw settings).mapError .format
  .ok { document, path := some path, settings }

/-- The private key of a file, from what reading it has given. -/
def keyOfFile (path : Path) (algorithm : Text) (found : Except FileError (List UInt8)) :
    Except Fault Text := do
  let text ← textOfFile .keyFile path found
  (PrivateKey.validate (unifyLineEnds text).trim algorithm).mapError (.invalidKeyFile path)

/-- How loading ends depends on what reading the file gives. -/
theorem run_load (log : List LogRecord) (s : σ) :
    ((load path settings : Session Fault (StateM σ) Project) log s).1.1 =
      ofFile path settings (fileAt path s) := by
  obtain ⟨⟨found, after⟩, hread⟩ : ∃ read, (FileStore.read path : StateM σ _) s = read := ⟨_, rfl⟩
  rw [load, fileAt, run_bind, run_perform, hread]
  cases found with
  | error e => rfl
  | ok bytes =>
    simp only [pure_bind, readJson, ofFile, textOfFile, Except.mapError, ok_bind]
    cases Utf8.decode bytes with
    | error e => rfl
    | ok text =>
      simp only [ok_bind]
      cases Json.parse text with
      | error e => cases e <;> rfl
      | ok raw =>
        simp only [require, pure_bind, ok_bind]
        cases Document.decode raw settings <;> rfl

/-- The path of a key file, whose location is taken from a directory. -/
def keyPath (base : Path) (location : Text) : Path :=
  base.within (.ofText location)

/-- How looking for the key of an account in a file ends depends on what reading the file gives. -/
theorem run_resolveKey {base : Path} {key : AccountKey} {location : Text}
    (hkey : key.material = .file (some location)) (log : List LogRecord) (s : σ) :
    ((resolveKey base key : Session Fault (StateM σ) Text) log s).1.1 =
      keyOfFile (keyPath base location) key.sigAlgo (fileAt (keyPath base location) s) := by
  obtain ⟨⟨found, after⟩, hread⟩ :
    ∃ read, (FileStore.read (keyPath base location) : StateM σ _) s = read := ⟨_, rfl⟩
  simp only [resolveKey, hkey]
  rw [← keyPath, fileAt, run_bind, run_perform, hread]
  cases found with
  | error e => rfl
  | ok bytes =>
    simp only [readKeyFile, keyOfFile, textOfFile, Except.mapError, ok_bind]
    cases Utf8.decode bytes with
    | error e => rfl
    | ok text =>
      simp only [ok_bind]
      cases PrivateKey.validate (unifyLineEnds text).trim key.sigAlgo <;> rfl

/-! ## Faults that are not of the configuration -/

/-- `Escapes path found e` : what reading the file under the path has given leads to the fault `e`, which
is not one of the configuration. -/
inductive Escapes (path : Path) : Except FileError (List UInt8) → Fault → Prop
  /-- The path cannot be handed to the system. -/
  | path {e : FileError} : e.isSystem = false → Escapes path (.error e) (.file path e)
  /-- The bytes are no UTF-8. -/
  | bytes {bytes : List UInt8} {e : Utf8.DecodeError} : Utf8.decode bytes = .error e →
      Escapes path (.ok bytes) (.notUtf8 e)

/-- The file holds a text with more digits in a row than a whole number may have, and they keep the text
from being read as JSON. -/
def HasLongNumber (found : Except FileError (List UInt8)) : Prop :=
  ∃ bytes text, found = .ok bytes ∧ Utf8.decode bytes = .ok text ∧ Json.HasLongRun text ∧
    Json.parse text = .error (.numeral .tooManyDigits)

theorem textOfFile_eq_ok_iff {kind : Path → FileError → Fault} {text : Text} :
    textOfFile kind path found = .ok text ↔
      ∃ bytes, found = .ok bytes ∧ Utf8.decode bytes = .ok text := by
  simp only [textOfFile, bind_eq_ok_iff, mapError_eq_ok_iff]

/-- A file has no text for a reason that belongs to the configuration, unless it escapes. -/
theorem textOfFile_eq_error_iff (kind : Path → FileError → Fault)
    (hkind : ∀ path e, (kind path e).isConfiguration = true) {e : Fault} :
    textOfFile kind path found = .error e ∧ e.isConfiguration = false ↔ Escapes path found e := by
  constructor
  · rintro ⟨h, he⟩
    rcases bind_eq_error_iff.mp h with h | ⟨bytes, hbytes, h⟩
    · obtain ⟨e', rfl, rfl⟩ := mapError_eq_error_iff.mp h
      split_ifs at he ⊢ with hsystem
      · rw [hkind] at he
        cases he
      · exact .path (Bool.eq_false_iff.mpr hsystem)
    · obtain rfl := mapError_eq_ok_iff.mp hbytes
      obtain ⟨e', hdecode, rfl⟩ := mapError_eq_error_iff.mp h
      exact .bytes hdecode
  · rintro (hsystem | hdecode)
    · refine ⟨bind_eq_error_iff.mpr (.inl (mapError_eq_error_iff.mpr ⟨_, rfl, ?_⟩)), rfl⟩
      rw [hsystem]
      rfl
    · exact ⟨bind_eq_error_iff.mpr
        (.inr ⟨_, rfl, mapError_eq_error_iff.mpr ⟨_, hdecode, rfl⟩⟩), rfl⟩

theorem ofFile_eq_error_iff {e : Fault} :
    ofFile path settings found = .error e ∧ e.isConfiguration = false ↔
      Escapes path found e ∨ HasLongNumber found ∧ e = .numeral .tooManyDigits := by
  rw [← textOfFile_eq_error_iff .unreadable fun _ _ => rfl]
  constructor
  · rintro ⟨h, he⟩
    rcases bind_eq_error_iff.mp h with h | ⟨text, htext, h⟩
    · exact .inl ⟨h, he⟩
    rcases bind_eq_error_iff.mp h with h | ⟨raw, -, h⟩
    · obtain ⟨bytes, hbytes, hdecode⟩ := textOfFile_eq_ok_iff.mp htext
      obtain ⟨e', hparse, rfl⟩ := mapError_eq_error_iff.mp h
      rcases Json.parse_eq_error hparse with rfl | ⟨rfl, hlong⟩
      · cases he
      · exact .inr ⟨⟨bytes, text, hbytes, hdecode, hlong, hparse⟩, rfl⟩
    · rcases bind_eq_error_iff.mp h with h | ⟨_, -, h⟩
      · obtain ⟨e', -, rfl⟩ := mapError_eq_error_iff.mp h
        cases he
      · cases h
  · rintro (⟨h, he⟩ | ⟨⟨bytes, text, hbytes, hdecode, -, hparse⟩, rfl⟩)
    · exact ⟨bind_eq_error_iff.mpr (.inl h), he⟩
    · have hrefused : (Json.parse text).mapError (jsonFault path) =
          .error (.numeral .tooManyDigits) := mapError_eq_error_iff.mpr ⟨_, hparse, rfl⟩
      exact ⟨bind_eq_error_iff.mpr (.inr ⟨text, textOfFile_eq_ok_iff.mpr ⟨bytes, hbytes, hdecode⟩,
        bind_eq_error_iff.mpr (.inl hrefused)⟩), rfl⟩

theorem keyOfFile_eq_error_iff {e : Fault} :
    keyOfFile path algorithm found = .error e ∧ e.isConfiguration = false ↔ Escapes path found e := by
  rw [← textOfFile_eq_error_iff .keyFile fun _ _ => rfl]
  refine and_congr_left fun he => ⟨fun h => ?_, fun h => bind_eq_error_iff.mpr (.inl h)⟩
  rcases bind_eq_error_iff.mp h with h | ⟨text, -, h⟩
  · exact h
  · obtain ⟨e', -, rfl⟩ := mapError_eq_error_iff.mp h
    cases he

/-- A fault of the configuration names the key file. -/
theorem quote_infix_of_keyOfFile {e : Fault} (h : keyOfFile path algorithm found = .error e)
    (he : e.isConfiguration = true) : path.text.quote <:+: e.message := by
  rcases bind_eq_error_iff.mp h with h | ⟨text, -, h⟩
  · rcases bind_eq_error_iff.mp h with h | ⟨bytes, -, h⟩
    · obtain ⟨e', -, rfl⟩ := mapError_eq_error_iff.mp h
      split_ifs at he ⊢
      · exact List.infix_of_mem_flatten (by simp)
      · cases he
    · obtain ⟨e', -, rfl⟩ := mapError_eq_error_iff.mp h
      cases he
  · obtain ⟨e', -, rfl⟩ := mapError_eq_error_iff.mp h
    exact List.infix_of_mem_flatten (by simp)

theorem keyOfFile_eq_ok_iff {key : Text} :
    keyOfFile path algorithm found = .ok key ↔ ∃ bytes text, found = .ok bytes ∧
      Utf8.decode bytes = .ok text ∧
      PrivateKey.validate (unifyLineEnds text).trim algorithm = .ok key := by
  simp only [keyOfFile, bind_eq_ok_iff, textOfFile_eq_ok_iff, mapError_eq_ok_iff]
  exact ⟨fun ⟨text, ⟨bytes, hbytes, hdecode⟩, h⟩ => ⟨bytes, text, hbytes, hdecode, h⟩,
    fun ⟨bytes, text, hbytes, hdecode, h⟩ => ⟨text, ⟨bytes, hbytes, hdecode⟩, h⟩⟩

/-- Whatever is under the path, loading gives a project or ends in a fault of the configuration, unless
the path cannot be handed to the system, the bytes are no UTF-8 or a whole number has too many digits.
Looking for a private key in a file gives the key that the text of the file is validated to, or ends in a
fault of the configuration that names the file, unless the path or the bytes are of these kinds. The
paths that a disk does not take are those with a null character or a surrogate. -/
theorem unusable_file_iff (path base : Path) (settings : Settings) (index : Int)
    (sigAlgo hashAlgo location : Text) (log : List LogRecord) (s : σ) :
    let loaded := ((load path settings : Session Fault (StateM σ) Project) log s).1.1
    let file := keyPath base location
    let key : AccountKey := ⟨index, sigAlgo, hashAlgo, .file (some location)⟩
    let resolved := ((resolveKey base key : Session Fault (StateM σ) Text) log s).1.1
    (∀ e, loaded = .error e ∧ e.isConfiguration = false ↔
      Escapes path (fileAt path s) e ∨
        HasLongNumber (fileAt path s) ∧ e = .numeral .tooManyDigits) ∧
    (∀ e, resolved = .error e ∧ e.isConfiguration = false ↔ Escapes file (fileAt file s) e) ∧
    (∀ e, resolved = .error e → e.isConfiguration = true → file.text.quote <:+: e.message) ∧
    (∀ privateKey, resolved = .ok privateKey ↔ ∃ bytes text, fileAt file s = .ok bytes ∧
      Utf8.decode bytes = .ok text ∧
      PrivateKey.validate (unifyLineEnds text).trim sigAlgo = .ok privateKey) ∧
    ∀ (disk : Disk) (place : Path), (∃ e, disk.read place = .error e ∧ e.isSystem = false) ↔
      ∃ c ∈ place.text, c.val = 0 ∨ Disk.isBadSurrogate c = true := by
  intro loaded file key resolved
  have hloaded : loaded = ofFile path settings (fileAt path s) := run_load log s
  have hresolved : resolved = keyOfFile file sigAlgo (fileAt file s) := run_resolveKey rfl log s
  rw [hloaded, hresolved]
  exact ⟨fun _ => ofFile_eq_error_iff, fun _ => keyOfFile_eq_error_iff,
    fun _ => quote_infix_of_keyOfFile, fun _ => keyOfFile_eq_ok_iff,
    fun _ _ => Disk.exists_not_isSystem_iff⟩

/-- A file of one byte that starts no character is no configuration and no key file, and neither session
says so by a fault of the configuration. -/
theorem not_forall_isConfiguration :
    (¬ ∀ (disk : Disk) (path : Path) (e : Fault),
      ((load path .standard : Session Fault Disk.Action Project) [] disk).1.1 = .error e →
        e.isConfiguration = true) ∧
    ¬ ∀ (disk : Disk) (location : Text) (e : Fault),
      ((resolveKey .current ⟨0, "ECDSA_P256", "SHA3_256", .file (some location)⟩ :
        Session Fault Disk.Action Text) [] disk).1.1 = .error e → e.isConfiguration = true := by
  let disk : Disk := ⟨[(⟨.above 0, ["flow.json"]⟩, .file [0xff])]⟩
  let fault : Fault := .notUtf8 ⟨0xff, 0, 1, .badStart⟩
  have hdecode : Utf8.decode [0xff] = .error ⟨0xff, 0, 1, .badStart⟩ := by
    rw [Utf8.decode, Utf8.decodeFrom]
    rfl
  have hfile : fileAt (.ofText "flow.json") disk = .ok [0xff] := by decide +kernel
  have hescapes : Escapes (.ofText "flow.json") (fileAt (.ofText "flow.json") disk) fault := by
    rw [hfile]
    exact .bytes hdecode
  constructor
  · intro hall
    refine Bool.noConfusion (hall disk (.ofText "flow.json") fault ?_)
    rw [run_load]
    exact (ofFile_eq_error_iff.mpr (.inl hescapes)).1
  · intro hall
    have hpath : keyPath .current "flow.json" = .ofText "flow.json" := by decide +kernel
    refine Bool.noConfusion (hall disk "flow.json" fault ?_)
    rw [run_resolveKey rfl, hpath]
    exact (keyOfFile_eq_error_iff.mpr hescapes).1

end Project

end ContractKit
