import ContractKit.Project.Basic
import ContractKit.Proofs.Disk
import ContractKit.Proofs.Draft
import ContractKit.Proofs.JsonNormal
import ContractKit.Proofs.Plain
import ContractKit.Proofs.Session

/-!
# Projects are loaded as they were saved

A project that has been saved on a disk is loaded again, its contracts grouped by name, exactly when
its document is storable and plain (`Disk.loaded_of_read_iff`). The other documents leave a file that is
not accepted, or that holds other texts.
-/

namespace ContractKit

/-- The configuration that is loaded from under a path of the disk. -/
def Disk.loaded (disk : Disk) (path : Path) : Except Fault Document :=
  ((Project.load path .standard : Session Fault Disk.Action Project) [] disk).1.1.map (·.document)

namespace Project

open Session

variable {start stop : Stage} {path : Path} {settings : Settings}

/-! ## Loading -/

theorem returns_load_iff {project : Project} :
    (load path settings).Returns start project stop ↔ ∃ bytes raw document,
      start.2.read path = .ok bytes ∧ readJson path bytes = .ok raw ∧
      Document.decode raw settings = .ok document ∧ project = ⟨document, some path, settings⟩ ∧
      stop = (start.1 ++ Document.notes raw ++ [loadedNote path document], start.2) := by
  unfold load
  rw [returns_bind_iff]
  constructor
  · rintro ⟨found, between, hfound, h⟩
    obtain ⟨hread, rfl⟩ := returns_perform_iff.mp hfound
    cases found with
    | ok bytes =>
      simp only [returns_bind_iff, returns_require_iff, returns_note_iff, returns_pure_iff] at h
      obtain ⟨_, _, ⟨rfl, rfl⟩, raw, _, ⟨hraw, rfl⟩, _, _, rfl, document, _, ⟨hdocument, rfl⟩, _, _,
        rfl, rfl, rfl⟩ := h
      exact ⟨_, raw, document, hread, hraw, hdocument, rfl, rfl⟩
    | error e =>
      obtain ⟨_, _, h, -⟩ := returns_bind_iff.mp h
      exact absurd h not_returns_throw
  · rintro ⟨bytes, raw, document, hread, hraw, hdocument, rfl, rfl⟩
    refine ⟨.ok bytes, start, returns_perform_iff.mpr ⟨hread, rfl⟩, ?_⟩
    simp only [returns_bind_iff, returns_require_iff, returns_note_iff, returns_pure_iff]
    exact ⟨bytes, start, ⟨rfl, rfl⟩, raw, start, ⟨hraw, rfl⟩, (), _, rfl, document, _,
      ⟨hdocument, rfl⟩, (), _, rfl, rfl, rfl⟩

/-! ## Saving -/

theorem renders_fileDraft (json : Json) :
    Draft.Renders json.HasShortNumbers (fileText json) (fileDraft json) :=
  ((Json.renders_draft json).append ((Draft.Renders.whole "\n").append (.whole []))).congr
    (by rw [true_and, and_true]) rfl

/-- A document is stored as the file that holds its text. -/
theorem read_of_store {json : Json} {u : Unit} (h : (store path json).Returns start u stop) :
    stop.2.read path = .ok (asciiBytes (fileText json)) := by
  unfold store at h
  simp only [returns_bind_iff, returns_perform_iff, returns_require_iff] at h
  obtain ⟨_, _, -, _, ready, -, _, opened, ⟨hcreate, rfl⟩, _, _, ⟨rfl, rfl⟩, _, _, ⟨happend, rfl⟩, _,
    _, ⟨rfl, rfl⟩, hfinish, rfl⟩ := h
  obtain ⟨-, hwhole⟩ := (renders_fileDraft json).of_finish hfinish
  rw [hwhole] at happend ⊢
  obtain ⟨after, hafter, hread⟩ := Disk.append_opened hcreate (asciiBytes (fileText json))
  exact (congrArg (·.2.read path) hafter).trans hread

/-- A project that has been saved has a JSON value, whose text is in the file it was saved to. -/
theorem read_of_save {project saved : Project} {target : Option Path}
    (hpath : project.path = some path) (h : (project.save target).Returns start saved stop) :
    ∃ json, project.json = .ok json ∧
      stop.2.read (target.getD path) = .ok (asciiBytes (fileText json)) := by
  have htarget : (target <|> project.path) = some (target.getD path) := by
    rw [hpath]
    cases target <;> rfl
  simp only [save, htarget, returns_bind_iff, returns_require_iff, returns_note_iff,
    returns_pure_iff] at h
  obtain ⟨json, _, ⟨hjson, rfl⟩, _, stored, hstore, _, _, rfl, -, rfl⟩ := h
  have hread : stored.2.read (target.getD path) = .ok (asciiBytes (fileText json)) :=
    read_of_store hstore
  exact ⟨json, hjson, hread⟩

/-- The text of a normal JSON value is read back from the file. -/
theorem readJson_asciiBytes {json : Json} (path : Path) (h : json.IsNormal False) :
    readJson path (asciiBytes (fileText json)) = .ok json := by
  have htext : fileText json = json.pretty ++ "\n" := by simp [fileText, Text.concat]
  have hascii : (fileText json).IsAscii := by
    rw [htext]
    exact (Json.isAscii_pretty json).append (by decide)
  have hdecode : Utf8.decode (asciiBytes (fileText json)) = .ok (fileText json) :=
    Utf8.decodeFrom_ascii hascii 0
  have hparse : Json.parse (fileText json) = .ok json := by
    rw [htext]
    exact Json.parse_pretty h (by decide)
  simp only [readJson, hdecode, hparse]

theorem isNormal_of_readJson {bytes : List UInt8} {raw : Json}
    (h : readJson path bytes = .ok raw) : raw.IsNormal True := by
  unfold readJson at h
  split at h
  · cases h
  · next text htext =>
    split at h
    · cases h
    · cases h
    · next found hfound =>
      obtain rfl := Except.ok.inj h
      exact Json.isNormal_of_parse (Utf8.isSurrogate_of_decode htext) hfound

end Project

namespace Disk

variable {disk : Disk} {path : Path} {document : Document}

theorem loaded_eq_ok_iff : disk.loaded path = .ok document ↔ ∃ bytes raw,
    disk.read path = .ok bytes ∧ Project.readJson path bytes = .ok raw ∧
      Document.decode raw .standard = .ok document := by
  have hloaded : disk.loaded path = .ok document ↔ ∃ project stop,
      (Project.load path .standard).Returns ([], disk) project stop ∧
        project.document = document := by
    rw [loaded, map_eq_ok_iff]
    refine exists_congr fun project => ?_
    constructor
    · rintro ⟨h, rfl⟩
      exact ⟨(_, _), Prod.ext (Prod.ext h rfl) rfl, rfl⟩
    · rintro ⟨stop, h, rfl⟩
      exact ⟨congrArg (·.1.1) h, rfl⟩
  simp only [hloaded, Project.returns_load_iff]
  constructor
  · rintro ⟨_, stop, ⟨bytes, raw, _, hread, hraw, hdocument, rfl, -⟩, rfl⟩
    exact ⟨bytes, raw, hread, hraw, hdocument⟩
  · rintro ⟨bytes, raw, hread, hraw, hdocument⟩
    exact ⟨_, _, ⟨bytes, raw, document, hread, hraw, hdocument, rfl, rfl⟩, rfl⟩

/-- A loaded document is proper and plain, and its contracts stand grouped by name. -/
theorem of_loaded (h : disk.loaded path = .ok document) :
    document.IsProper ∧ document.IsPlain ∧ document.regrouped = document := by
  obtain ⟨bytes, raw, -, hraw, hdocument⟩ := loaded_eq_ok_iff.mp h
  have hnormal := Project.isNormal_of_readJson hraw
  exact ⟨Document.isProper_of_decode hnormal.hasDistinctNames hdocument,
    Document.isPlain_of_decode hnormal hdocument,
    (Document.contracts_of_decode hnormal.hasDistinctNames hdocument).2.1⟩

/-- The file that holds the text of a proper document is loaded as the document, its contracts grouped
by name, exactly if the document is storable and plain. -/
theorem loaded_of_read_iff {json : Json} (hproper : document.IsProper)
    (hjson : document.encode .standard = .ok json)
    (hread : disk.read path = .ok (Project.asciiBytes (Project.fileText json))) :
    disk.loaded path = .ok document.regrouped ↔ document.IsStorable ∧ document.IsPlain := by
  -- For a plain document the file holds the very JSON value that was saved.
  have hplain : document.IsPlain → Project.readJson path
      (Project.asciiBytes (Project.fileText json)) = .ok json := fun h =>
    Project.readJson_asciiBytes path (Document.isNormal_of_encode hproper h hjson)
  constructor
  · intro hloaded
    have hdocument : document.IsPlain := Document.isPlain_regrouped.mp (of_loaded hloaded).2.1
    obtain ⟨bytes, raw, hbytes, hraw, hdecode⟩ := loaded_eq_ok_iff.mp hloaded
    obtain rfl := Except.ok.inj (hread.symm.trans hbytes)
    obtain rfl := Except.ok.inj ((hplain hdocument).symm.trans hraw)
    exact ⟨Document.isStorable_of_decode_encode hproper hjson hdecode, hdocument⟩
  · rintro ⟨hstorable, hdocument⟩
    exact loaded_eq_ok_iff.mpr ⟨_, json, hread, hplain hdocument,
      Document.decode_encode hproper hstorable hjson⟩

end Disk

/-- A session that loads a project returns the one that is loaded from the disk. -/
theorem Project.of_returns_load {start stop : Stage} {path : Path} {project : Project}
    (h : (load path .standard).Returns start project stop) :
    ∃ document, start.2.loaded path = .ok document ∧
      project = ⟨document, some path, .standard⟩ := by
  obtain ⟨bytes, raw, document, hread, hraw, hdocument, hproject, -⟩ := returns_load_iff.mp h
  exact ⟨document, Disk.loaded_eq_ok_iff.mpr ⟨bytes, raw, hread, hraw, hdocument⟩, hproject⟩

end ContractKit
