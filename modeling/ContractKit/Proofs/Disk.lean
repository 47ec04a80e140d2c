import ContractKit.Proofs.Result
import ContractKit.Workspace.Disk

/-!
# Files that are written are read back

Putting a node at a place changes nothing elsewhere (`Disk.node?_put`). A path leads where it led when
what is put stands where no directory was, so a file that was opened takes any bytes and is read back
under the same path (`Disk.append_of_create`).
-/

namespace ContractKit.Disk

variable {disk : Disk}

/-! ## Nodes -/

/-- What is at a place after a node was put somewhere. -/
theorem node?_put (disk : Disk) {place other : Place} (node : Node) (hother : other.names ≠ []) :
    (disk.put place node).node? other = if other = place then some node else disk.node? other := by
  unfold node? put
  rw [if_neg hother, if_neg hother]
  split_ifs with heq
  · rw [heq, List.find?_cons_of_pos (by simp)]
    rfl
  · rw [List.find?_cons_of_neg (by simpa using Ne.symm heq), List.find?_filter]
    congr 2
    funext entry
    by_cases hentry : entry.1 = other
    · simp [hentry, heq]
    · simp [hentry]

theorem node?_root {place : Place} (h : place.names = []) : disk.node? place = some .directory :=
  if_pos h

/-- A directory that was there is there when something else than a directory gives way to a node. -/
theorem node?_put_of_directory {place other : Place} {node : Node}
    (hplace : disk.node? place ≠ some .directory) (h : disk.node? other = some .directory) :
    (disk.put place node).node? other = some .directory := by
  by_cases hroot : other.names = []
  · exact node?_root hroot
  · have hne : other ≠ place := by
      rintro rfl
      exact hplace h
    rw [node?_put disk node hroot, if_neg hne, h]

/-! ## Ways through the directories -/

variable {place : Place} {node : Node}

theorem step_put (hplace : disk.node? place ≠ some .directory) {start next : Place} {name : Text}
    (h : disk.step start name = .ok next) : (disk.put place node).step start name = .ok next := by
  unfold step at h ⊢
  split at h
  · cases h
  · cases h
  · next hstart => rw [node?_put_of_directory hplace hstart]; exact h

theorem foldlM_step_put (hplace : disk.node? place ≠ some .directory) {names : List Text} :
    ∀ {start target : Place}, names.foldlM disk.step start = .ok target →
      names.foldlM (disk.put place node).step start = .ok target := by
  induction names with
  | nil => exact fun h => h
  | cons name rest ih =>
    intro start target h
    rw [List.foldlM_cons] at h ⊢
    obtain ⟨next, hnext, h⟩ := bind_eq_ok_iff.mp h
    rw [step_put hplace hnext, ok_bind]
    exact ih h

/-- A path leads where it led when nothing but a directory was replaced. -/
theorem locate_put (hplace : disk.node? place ≠ some .directory) {path : Path} {target : Place}
    (h : disk.locate path = .ok target) : (disk.put place node).locate path = .ok target := by
  unfold locate at h ⊢
  split at h
  · cases h
  · exact foldlM_step_put hplace h

/-! ## Reading what was written -/

/-- A file is opened where the path leads, unless to a directory. -/
theorem create_eq_ok_iff {opened : Disk} {path : Path} : disk.create path = .ok opened ↔
    ∃ place, disk.locate path = .ok place ∧ disk.node? place ≠ some .directory ∧
      opened = disk.put place (.file []) := by
  unfold create
  rw [bind_eq_ok_iff]
  refine exists_congr fun place => and_congr_right fun _ => ?_
  split_ifs with hdirectory
  · exact iff_of_false nofun fun h => h.1 hdirectory
  · rw [Except.ok.injEq, eq_comm]
    exact (and_iff_right hdirectory).symm

/-- A file that was opened takes all bytes that are put into it, and holds no others. -/
theorem append_of_create {opened : Disk} {path : Path} (h : disk.create path = .ok opened)
    (bytes : List UInt8) :
    ∃ after, opened.append path bytes = .ok after ∧ after.read path = .ok bytes := by
  obtain ⟨place, hplace, hdirectory, rfl⟩ := create_eq_ok_iff.mp h
  have hnames : place.names ≠ [] := fun hroot => hdirectory (node?_root hroot)
  have hopened : (disk.put place (.file [])).locate path = .ok place :=
    locate_put hdirectory hplace
  have hnode : (disk.put place (.file [])).node? place = some (.file []) := by
    rw [node?_put disk _ hnames, if_pos rfl]
  have hfile : (disk.put place (.file [])).node? place ≠ some .directory := by
    rw [hnode]
    exact nofun
  refine ⟨(disk.put place (.file [])).put place (.file bytes), ?_, ?_⟩
  · rw [append, hopened, ok_bind, hnode]
    rfl
  · rw [read, locate_put hfile hopened, ok_bind, node?_put _ _ hnames, if_pos rfl]

/-- On a disk no bytes are refused by a file that was opened. -/
theorem append_opened {path : Path} {u : Unit}
    (h : ((FileStore.create path : Action _) disk).1 = .ok u) (bytes : List UInt8) : ∃ after,
      (FileStore.append path bytes : Action _) ((FileStore.create path : Action _) disk).2 =
        (.ok (), after) ∧ after.read path = .ok bytes := by
  simp only [FileStore.create, FileStore.append] at h ⊢
  cases hcreate : disk.create path with
  | error e =>
    rw [hcreate] at h
    cases h
  | ok opened =>
    obtain ⟨after, happend, hread⟩ := append_of_create hcreate bytes
    refine ⟨after, ?_, hread⟩
    simp only [settle, happend]

end ContractKit.Disk
