import Mathlib.Tactic
import ContractKit.Project.Fault
import ContractKit.Workspace.Disk

/-!
# Sessions on a disk

A session on a disk goes from one stage to another, a stage being the log so far and the disk
(`Session.Returns`). The lemmas say for each way of building sessions when it returns something: the
parts of a sequence return one after the other (`Session.returns_bind_iff`), and only actions on the
disk change the disk.
-/

namespace ContractKit

/-- The log so far and the disk. -/
abbrev Stage := List LogRecord × Disk

namespace Session

variable {α β ε φ ψ : Type} {start stop : Stage}

/-- A session that begins at the stage `start` returns `a` at the stage `stop`. -/
def Returns (session : Session φ Disk.Action α) (start : Stage) (a : α) (stop : Stage) : Prop :=
  session start.1 start.2 = ((.ok a, stop.1), stop.2)

theorem returns_iff_of_run {session : Session φ Disk.Action α} {result : Except φ α}
    {log : List LogRecord} {disk : Disk} (h : session start.1 start.2 = ((result, log), disk))
    {a : α} : session.Returns start a stop ↔ result = .ok a ∧ stop = (log, disk) := by
  rw [Returns, h, Prod.mk.injEq, Prod.mk.injEq, Prod.ext_iff, and_assoc, eq_comm (a := stop.1),
    eq_comm (a := stop.2)]

theorem returns_pure_iff {a b : α} :
    (pure a : Session φ Disk.Action α).Returns start b stop ↔ b = a ∧ stop = start := by
  have hrun : (pure a : Session φ Disk.Action α) start.1 start.2 = ((.ok a, start.1), start.2) := rfl
  rw [returns_iff_of_run hrun, Except.ok.injEq, eq_comm, Prod.mk.eta]

theorem not_returns_throw {e : φ} {a : α} :
    ¬ (throw e : Session φ Disk.Action α).Returns start a stop := by
  have hrun : (throw e : Session φ Disk.Action α) start.1 start.2 =
      ((.error e, start.1), start.2) := rfl
  rw [returns_iff_of_run hrun]
  exact fun h => by cases h.1

/-- A sequence goes on from where its first part has returned. -/
theorem run_bind {σ : Type} {session : Session φ (StateM σ) α} {next : α → Session φ (StateM σ) β}
    (log : List LogRecord) (s : σ) :
    (session >>= next) log s = match session log s with
      | ((.ok a, log), s) => next a log s
      | ((.error e, log), s) => ((.error e, log), s) := by
  simp only [bind, ExceptT.bind, ExceptT.mk, StateT.bind]
  obtain ⟨⟨result, log⟩, s⟩ := session log s
  cases result <;> rfl

/-- A sequence returns what its second part returns after the first part. -/
theorem returns_bind_iff {session : Session φ Disk.Action α} {next : α → Session φ Disk.Action β}
    {b : β} : (session >>= next).Returns start b stop ↔
      ∃ a between, session.Returns start a between ∧ (next a).Returns between b stop := by
  unfold Returns
  rw [run_bind]
  constructor
  · intro h
    split at h
    · next a log disk hfirst => exact ⟨a, (log, disk), hfirst, h⟩
    · cases (Prod.mk.inj (Prod.mk.inj h).1).1
  · rintro ⟨a, between, hfirst, h⟩
    rw [hfirst]
    exact h

/-- A session that ends in a fault under a condition returns only without it. -/
theorem returns_unless_iff {c : Prop} [Decidable c] {e : φ} {next : β → Session φ Disk.Action α}
    {rest : Session φ Disk.Action α} {a : α} :
    (if c then throw e >>= next else rest).Returns start a stop ↔
      ¬ c ∧ rest.Returns start a stop := by
  split_ifs with h
  · rw [returns_bind_iff]
    exact ⟨fun ⟨_, _, hthrow, _⟩ => absurd hthrow not_returns_throw, fun hno => absurd h hno.1⟩
  · exact (and_iff_right h).symm

theorem run_perform {σ : Type} (action : StateM σ α) (log : List LogRecord) (s : σ) :
    (perform action : Session φ (StateM σ) α) log s = ((.ok (action s).1, log), (action s).2) :=
  rfl

theorem returns_perform_iff {action : Disk.Action α} {a : α} :
    (perform action : Session φ Disk.Action α).Returns start a stop ↔
      (action start.2).1 = a ∧ stop = (start.1, (action start.2).2) := by
  rw [returns_iff_of_run (run_perform action start.1 start.2), Except.ok.injEq]

theorem returns_note_iff {records : List LogRecord} {u : Unit} :
    (note records : Session φ Disk.Action Unit).Returns start u stop ↔
      stop = (start.1 ++ records, start.2) := by
  have hrun : (note records : Session φ Disk.Action Unit) start.1 start.2 =
      ((.ok (), start.1 ++ records), start.2) := rfl
  rw [returns_iff_of_run hrun]
  exact and_iff_right rfl

theorem returns_require_iff {fault : ε → φ} {result : Except ε α} {a : α} :
    (require fault result : Session φ Disk.Action α).Returns start a stop ↔
      result = .ok a ∧ stop = start := by
  cases result with
  | ok b =>
    rw [require, returns_pure_iff, Except.ok.injEq]
    exact and_congr_left fun _ => eq_comm
  | error e => exact ⟨fun h => absurd h not_returns_throw, nofun⟩

/-- A session whose fault is turned into another one does nothing else. -/
theorem run_adapt {σ : Type} {fault : φ → ψ} {session : Session φ (StateM σ) α}
    (log : List LogRecord) (s : σ) :
    (adapt fault session) log s = match session log s with
      | ((.ok a, log), s) => ((.ok a, log), s)
      | ((.error e, log), s) => ((.error (fault e), log), s) := by
  simp only [adapt, bind, StateT.bind]
  obtain ⟨⟨result, log⟩, s⟩ := session log s
  cases result <;> rfl

theorem returns_adapt_iff {fault : φ → ψ} {session : Session φ Disk.Action α} {a : α} :
    (adapt fault session).Returns start a stop ↔ session.Returns start a stop := by
  have hrun := @run_adapt _ _ _ _ fault session start.1 start.2
  match h : session start.1 start.2 with
  | ((.ok b, log), disk) =>
    rw [h] at hrun
    rw [returns_iff_of_run hrun, returns_iff_of_run h, Except.ok.injEq, Except.ok.injEq]
  | ((.error e, log), disk) =>
    rw [h] at hrun
    rw [returns_iff_of_run hrun, returns_iff_of_run h]
    constructor <;> exact fun h => by cases h.1

end Session

end ContractKit
