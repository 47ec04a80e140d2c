import ContractKit.Proofs.Project

/-!
# Saved files are in normal form

A project that was loaded can be saved where it is kept: its file is there, so the directory is there
too (`Disk.makeDirectories_parent`) and the file can be written to (`Project.returns_save_of_read`). The
bytes that are written hold the JSON value of the project. If they are loaded, the project is the same,
and saving it once more writes the same bytes (`Disk.saved_normal`).
-/

namespace ContractKit

/-! ## The directory of a file -/

/-- Without the last piece the text breaks off earlier. -/
theorem Text.intercalate_dropLast_prefix (separator : Text) : ∀ pieces : List Text,
    intercalate separator pieces.dropLast <+: intercalate separator pieces
  | [] => List.prefix_rfl
  | [_] => List.nil_prefix
  | [first, second] => by
    have hpair : intercalate separator [first, second] = first ++ (separator ++ second) := by
      rw [intercalate, List.intercalate_cons_cons, List.intercalate_singleton, List.append_assoc]
    have hsingle : intercalate separator [first] = first := List.intercalate_singleton
    rw [List.dropLast_cons_cons, List.dropLast_singleton, hpair, hsingle]
    exact List.prefix_append _ _
  | first :: second :: third :: rest => by
    have ih := intercalate_dropLast_prefix separator (second :: third :: rest)
    rw [intercalate, intercalate] at ih ⊢
    rw [List.dropLast_cons_cons, List.dropLast_cons_cons, List.intercalate_cons_cons,
      List.intercalate_cons_cons, List.append_assoc, List.append_assoc,
      List.prefix_append_right_inj, List.prefix_append_right_inj]
    exact ih

theorem Path.text_parent (path : Path) :
    path.parent.text = "." ∨ path.parent.text <+: path.text := by
  by_cases hempty : path.anchor = [] ∧ path.parts.dropLast = []
  · exact Or.inl (if_pos hempty)
  · have hself : ¬ (path.anchor = [] ∧ path.parts = []) := fun h =>
      hempty ⟨h.1, by rw [h.2, List.dropLast_nil]⟩
    have hparent : path.parent.text =
        .concat [path.anchor, .intercalate "/" path.parts.dropLast] := if_neg hempty
    have htext : path.text = .concat [path.anchor, .intercalate "/" path.parts] := if_neg hself
    refine Or.inr ?_
    simp only [hparent, htext, Text.concat, List.flatten_cons, List.flatten_nil, List.append_nil,
      List.prefix_append_right_inj]
    exact Text.intercalate_dropLast_prefix "/" path.parts

namespace Disk

variable {disk : Disk} {path : Path} {place : Place}

theorem byteLength_le_of_prefix {part text : Text} (h : part <+: text) :
    byteLength part ≤ byteLength text := by
  obtain ⟨rest, rfl⟩ := h
  simp only [byteLength, ← List.sum_eq_foldr, List.map_append, List.sum_append]
  exact Nat.le_add_right _ _

/-- The start of a text that a disk can hold as a path can be held as well. -/
theorem pathFault?_eq_none_of_prefix {part text : Text} (htext : pathFault? text = none)
    (h : part <+: text) : pathFault? part = none := by
  unfold pathFault? at htext ⊢
  split at htext
  · cases htext
  next hsurrogate =>
  split_ifs at htext with hnull hlong
  rw [List.find?_eq_none] at hsurrogate
  have hnone : part.find? isBadSurrogate = none :=
    List.find?_eq_none.mpr fun c hc => hsurrogate c (h.subset hc)
  have hnull' : ¬ part.any (·.val = 0) = true := by
    simp only [List.any_eq_true, not_exists] at hnull ⊢
    exact fun c hc => hnull c ⟨h.subset hc.1, hc.2⟩
  have hlong' : ¬ 4095 < byteLength part := by
    have := byteLength_le_of_prefix h
    omega
  simp only [hnone, if_neg hnull', if_neg hlong']

/-- Where a path leads, its directory is there. -/
theorem locate_parent (h : disk.locate path = .ok place) (hparts : path.parts ≠ []) :
    ∃ directory, disk.locate path.parent = .ok directory ∧
      disk.node? directory = some .directory := by
  unfold locate at h ⊢
  split at h
  · cases h
  next hfault =>
  have hfault' : pathFault? path.parent.text = none := by
    rcases path.text_parent with htext | htext
    · rw [htext]
      rfl
    · exact pathFault?_eq_none_of_prefix hfault htext
  rw [← List.dropLast_append_getLast hparts, List.foldlM_append] at h
  obtain ⟨directory, hdirectory, h⟩ := bind_eq_ok_iff.mp h
  rw [hfault']
  refine ⟨directory, hdirectory, ?_⟩
  rw [List.foldlM_cons] at h
  obtain ⟨_, hstep, -⟩ := bind_eq_ok_iff.mp h
  unfold step at hstep
  split at hstep
  · cases hstep
  · cases hstep
  · assumption

/-- Nothing has to be made for a path that leads somewhere. -/
theorem makeDirectories_parent (h : disk.locate path = .ok place) (hparts : path.parts ≠ []) :
    makeDirectories path.parent disk = (.ok (), disk) := by
  obtain ⟨directory, hdirectory, hnode⟩ := locate_parent h hparts
  have hpresent : disk.makeDirectory path.parent = .error .present := by
    rw [makeDirectory, hdirectory, ok_bind, hnode]
    rfl
  have hallowed : disk.allowDirectory path.parent .present = .ok () := by
    refine if_pos ⟨rfl, ?_⟩
    rw [isDirectory, hdirectory]
    exact decide_eq_true hnode
  unfold makeDirectories makeDirectoriesWith
  rw [hpresent]
  simp only [hallowed]

/-- A file that can be read is at a place, which its path leads to. -/
theorem read_eq_ok_iff {bytes : List UInt8} : disk.read path = .ok bytes ↔
    ∃ place, disk.locate path = .ok place ∧ disk.node? place = some (.file bytes) := by
  unfold read
  rw [bind_eq_ok_iff]
  refine exists_congr fun place => and_congr_right fun _ => ?_
  split <;> simp_all

/-- A file that can be read can be opened to be written. -/
theorem create_of_read {found : List UInt8} (h : disk.read path = .ok found) : path.parts ≠ [] ∧
    ∃ place, disk.locate path = .ok place ∧
      disk.create path = .ok (disk.put place (.file [])) := by
  obtain ⟨place, hplace, hnode⟩ := read_eq_ok_iff.mp h
  refine ⟨fun hparts => ?_, place, hplace, create_eq_ok_iff.mpr ⟨place, hplace, ?_, rfl⟩⟩
  · have hroot : place.names = [] := by
      unfold locate at hplace
      split at hplace
      · cases hplace
      · rw [hparts] at hplace
        rw [← Except.ok.inj hplace]
    rw [node?_root hroot] at hnode
    cases hnode
  · rw [hnode]
    exact nofun

end Disk

/-! ## Saving what was loaded -/

namespace Project

open Session

/-- A document that can be written is stored where a file can be read. -/
theorem returns_store_of_read (start : Stage) {path : Path} {json : Json} {found : List UInt8}
    (hread : start.2.read path = .ok found) (hshort : json.HasShortNumbers) : ∃ disk,
      (store path json).Returns start () (start.1, disk) ∧
        disk.read path = .ok (asciiBytes (fileText json)) := by
  obtain ⟨log, disk⟩ := start
  obtain ⟨hparts, place, hplace, hcreate⟩ := Disk.create_of_read hread
  have hmake : (FileStore.makeDirectories path.parent : Disk.Action _) disk = (.ok (), disk) :=
    Disk.makeDirectories_parent hplace hparts
  have hopen : ((FileStore.create path : Disk.Action _) disk).1 = .ok () := by
    simp only [FileStore.create, hcreate, Disk.settle]
  obtain ⟨after, happend, hafter⟩ := Disk.append_opened hopen (asciiBytes (fileText json))
  refine ⟨after, ?_, hafter⟩
  simp only [store, (renders_fileDraft json).eq_whole hshort, returns_bind_iff, returns_perform_iff,
    returns_require_iff, hmake]
  exact ⟨_, _, ⟨rfl, rfl⟩, (), _, ⟨rfl, rfl⟩, _, _, ⟨rfl, rfl⟩, (), _, ⟨hopen, rfl⟩, _, _,
    ⟨rfl, rfl⟩, (), _, ⟨congrArg Prod.fst happend, rfl⟩, rfl, (congrArg (Prod.mk log ·.2) happend).symm⟩

/-- A project whose file can be read is saved to it, if its numbers are short. -/
theorem returns_save_of_read (project : Project) (start : Stage) {path : Path} {json : Json}
    {found : List UInt8} (hpath : project.path = some path)
    (hread : start.2.read path = .ok found) (hjson : project.json = .ok json)
    (hshort : json.HasShortNumbers) : ∃ stop,
      (project.save none).Returns start project stop ∧
        stop.2.read path = .ok (asciiBytes (fileText json)) := by
  obtain ⟨disk, hstore, hafter⟩ := returns_store_of_read start hread hshort
  have hsave : (project.save none).Returns start project (start.1 ++ [savedNote path], disk) := by
    have htarget : ((none : Option Path) <|> project.path) = some path := hpath
    simp only [save, htarget, returns_bind_iff, returns_require_iff, returns_note_iff,
      returns_pure_iff]
    refine ⟨json, _, ⟨hjson, rfl⟩, (), _, hstore, (), _, rfl, ?_, rfl⟩
    rw [← hpath]
  exact ⟨_, hsave, hafter⟩

/-- The project of a document that is kept under a path, under the standard settings. -/
def kept (path : Path) (document : Document) : Project :=
  ⟨document, some path, .standard⟩

end Project

namespace Disk

variable {disk : Disk} {path : Path} {document : Document}

/-- The text of a loaded document holds its JSON value, and nothing else is loaded from it than the
document. -/
theorem of_text_loaded (h : disk.loaded path = .ok document) : ∃ json,
    document.encode .standard = .ok json ∧ json.HasShortNumbers ∧
      (∀ target, Project.readJson target (Project.asciiBytes (Project.fileText json)) = .ok json) ∧
      ∀ found, Document.decode json .standard = .ok found → found = document := by
  obtain ⟨hproper, hplain, hregrouped⟩ := of_loaded h
  obtain ⟨_, raw, -, hraw, hdecode⟩ := loaded_eq_ok_iff.mp h
  obtain ⟨json, hjson⟩ := Document.exists_encode_of_decode
    (Project.isNormal_of_readJson hraw).hasDistinctNames hdecode
  refine ⟨json, hjson,
    Document.hasShortNumbers_of_encode (hplain.hasShortNumbers hproper) hjson,
    fun target => ?_, fun found hfound => ?_⟩
  · exact Project.readJson_asciiBytes target (Document.isNormal_of_encode hproper hplain hjson)
  · have hstorable := Document.isStorable_of_decode_encode hproper hjson hfound
    rw [Document.decode_encode hproper hstorable hjson, hregrouped] at hfound
    exact (Except.ok.inj hfound).symm

/-- A project that is loaded can be saved where it is kept. Wherever it is saved, the file holds its
JSON value. If that file is loaded, the project is the same, and it can be saved once more, which leaves
the same bytes. -/
theorem saved_normal (h : disk.loaded path = .ok document) : ∃ json,
    (Project.kept path document).json = .ok json ∧
    (∀ target, Project.readJson target (Project.asciiBytes (Project.fileText json)) = .ok json) ∧
    (∃ stop, ((Project.kept path document).save none).Returns ([], disk)
      (Project.kept path document) stop) ∧
    ∀ (target : Option Path) (start stop : Stage) (saved : Project),
      ((Project.kept path document).save target).Returns start saved stop →
        stop.2.read (target.getD path) = .ok (Project.asciiBytes (Project.fileText json)) ∧
          ∀ found, stop.2.loaded (target.getD path) = .ok found → found = document ∧
            ∃ last, ((Project.kept (target.getD path) found).save none).Returns stop
              (Project.kept (target.getD path) found) last ∧
              last.2.read (target.getD path) =
                .ok (Project.asciiBytes (Project.fileText json)) := by
  obtain ⟨json, hjson, hshort, hparse, hunique⟩ := of_text_loaded h
  obtain ⟨_, _, hread, -, -⟩ := loaded_eq_ok_iff.mp h
  refine ⟨json, hjson, hparse, ?_, fun target start stop saved hsave => ?_⟩
  · obtain ⟨stop, hsave, -⟩ :=
      Project.returns_save_of_read (Project.kept path document) ([], disk) rfl hread hjson hshort
    exact ⟨stop, hsave⟩
  · obtain ⟨written, hwritten, hfile⟩ := Project.read_of_save rfl hsave
    obtain rfl := Except.ok.inj (hjson.symm.trans hwritten)
    refine ⟨hfile, fun found hfound => ?_⟩
    obtain ⟨bytes, raw, hbytes, hraw, hdecode⟩ := loaded_eq_ok_iff.mp hfound
    obtain rfl := Except.ok.inj (hfile.symm.trans hbytes)
    obtain rfl := Except.ok.inj ((hparse _).symm.trans hraw)
    obtain rfl := hunique found hdecode
    obtain ⟨last, hlast, hagain⟩ :=
      Project.returns_save_of_read (Project.kept (target.getD path) found) stop rfl hfile hjson hshort
    exact ⟨rfl, last, hlast, hagain⟩

/-- A file with a repeated member and a member that is no section is brought into normal form, which is
loaded and saved again. -/
theorem saved_normal_of_repeated :
    ∃ (disk : Disk) (path : Path) (document : Document) (stop last : Stage),
      disk.read path = .ok (Project.asciiBytes
        "\x7b\"x\": 1, \"contracts\": \x7b\"A\": \"a\", \"A\": \"b\"\x7d\x7d") ∧
      disk.loaded path = .ok document ∧
      ((Project.kept path document).save none).Returns ([], disk) (Project.kept path document)
        stop ∧
      stop.2.read path = .ok (Project.asciiBytes
        "\x7b\n  \"contracts\": \x7b\n    \"A\": \"b\"\n  \x7d\n\x7d\n") ∧
      stop.2.loaded path = .ok document ∧
      ((Project.kept path document).save none).Returns stop (Project.kept path document) last ∧
      last.2.read path = stop.2.read path := by
  obtain ⟨content, hcontent⟩ : ∃ content : Text, content =
      "\x7b\"x\": 1, \"contracts\": \x7b\"A\": \"a\", \"A\": \"b\"\x7d\x7d" := ⟨_, rfl⟩
  obtain ⟨path, hpath⟩ : ∃ path : Path, path = ⟨[], ["flow.json"]⟩ := ⟨_, rfl⟩
  let disk := empty.put ⟨.above 0, ["flow.json"]⟩ (.file (Project.asciiBytes content))
  let document : Document := { Document.empty with contracts := [⟨"A", "b", "emulator", []⟩] }
  have hread : disk.read path = .ok (Project.asciiBytes content) := by
    rw [hpath]
    rfl
  have hparse : Project.readJson path (Project.asciiBytes content) =
      .ok (.obj [("x", .int 1), ("contracts", .obj [("A", .str "b")])]) := by
    rw [hcontent]
    cbv
  have hloaded : disk.loaded path = .ok document :=
    loaded_eq_ok_iff.mpr ⟨_, _, hread, hparse, rfl⟩
  have hjson : (Project.kept path document).json =
    .ok (.obj [("contracts", .obj [("A", .str "b")])]) := rfl
  obtain ⟨json, hjson', hparse', ⟨stop, hsave⟩, hsaved⟩ := saved_normal hloaded
  obtain rfl := Except.ok.inj (hjson.symm.trans hjson')
  obtain ⟨hfile, hagain⟩ := hsaved none _ _ _ hsave
  have hreloaded : stop.2.loaded path = .ok document :=
    loaded_eq_ok_iff.mpr ⟨_, _, hfile, hparse' path, rfl⟩
  obtain ⟨-, last, hlast, hlastFile⟩ := hagain document hreloaded
  refine ⟨disk, path, document, stop, last, ?_, hloaded, hsave, ?_, hreloaded, hlast,
    hlastFile.trans hfile.symm⟩
  · rw [hread, hcontent]
  · exact hfile.trans (by rfl)

end Disk

end ContractKit
