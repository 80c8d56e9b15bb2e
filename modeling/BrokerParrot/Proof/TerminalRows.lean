import BrokerParrot.Proof.RowSteps

/-!
# Finished rows

The statements that finish or park a row are guarded by a list of statuses, and the list has no
entry for a skipped row. So a skipped row is the one that can move again, and only by such a
statement: every other status is safe in every history, and a history is safe exactly when no mark
hits a skipped row.
-/

namespace BrokerParrot

open QueueOp

variable {status : JobStatus} {d : Dialect} {id : JobId}

def JobStatus.Terminal (status : JobStatus) : Prop :=
  status = .completed ∨ status = .failed ∨ status = .cancelled ∨ status = .skipped

def QueueOp.MarksSkipped (op : QueueOp) (db : Db) : Prop :=
  ∃ id status row, op.marks = some (id, status) ∧ db.jobs.get? id = some row ∧
    row.status = .skipped

theorem JobStatus.Terminal.skipped_of_open (hterminal : status.Terminal) (hopen : status.Open) :
    status = .skipped := by
  obtain ⟨hcompleted, hfailed, hcancelled⟩ := hopen
  rcases hterminal with hstatus | hstatus | hstatus | hstatus
  · exact absurd hstatus hcompleted
  · exact absurd hstatus hfailed
  · exact absurd hstatus hcancelled
  · exact hstatus

theorem JobStatus.Terminal.ne (hterminal : status.Terminal) :
    status ≠ .queued ∧ status ≠ .running := by
  rcases hterminal with rfl | rfl | rfl | rfl <;> decide

section

variable {db : Db} {op : QueueOp} {row after : NodeJob}

theorem terminal_step (hspares : ¬ op.MarksSkipped db) (hget : db.jobs.get? id = some row)
    (hterminal : row.status.Terminal) (hafter : (op.step d db).jobs.get? id = some after) :
    after.status = row.status := by
  obtain ⟨hqueued, hrunning⟩ := hterminal.ne
  have hstep := step_row d db op id
  rw [hget, hafter] at hstep
  cases hstep with
  | same => rfl
  | take _ _ hstatus => exact absurd hstatus hqueued
  | leave hwas => exact absurd hwas hrunning
  | finish hmarks hopen =>
    exact absurd ⟨id, after.status, row, hmarks, hget, hterminal.skipped_of_open hopen⟩ hspares
  | cancel hwas => exact absurd hwas hqueued
  | edit hstatus => exact hstatus

theorem marks_ne_skipped (hmarks : op.marks = some (id, status)) : status ≠ .skipped := by
  rintro rfl
  cases op <;> simp [QueueOp.marks] at hmarks

theorem marksSkipped_moves (hmarks : op.MarksSkipped db) :
    ∃ id row after, db.jobs.get? id = some row ∧ row.status.Terminal ∧
      (op.step d db).jobs.get? id = some after ∧ after.status ≠ row.status := by
  obtain ⟨id, status, row, hmarks, hget, hskipped⟩ := hmarks
  obtain ⟨after, hafter, hstatus⟩ := step_marks (d := d) hmarks hget (by rw [hskipped]; decide)
  refine ⟨id, row, after, hget, Or.inr (Or.inr (Or.inr hskipped)), hafter, ?_⟩
  rw [hstatus, hskipped]
  exact marks_ne_skipped hmarks

end

theorem terminal_run {db : Db} {row : NodeJob} {history : List QueueOp}
    (hget : db.jobs.get? id = some row) (hterminal : row.status.Terminal)
    (hspares : ∀ before op, before ++ [op] <+: history →
      ¬ op.MarksSkipped (QueueOp.run d db before)) {after : NodeJob}
    (hafter : (QueueOp.run d db history).jobs.get? id = some after) :
    after.status = row.status := by
  induction history using List.reverseRecOn generalizing after with
  | nil =>
    obtain rfl := Option.mem_unique hget hafter
    rfl
  | append_singleton rest op ih =>
    -- The key stays issued, so a row that is gone does not come back under it.
    have hkept : id < (QueueOp.run d db rest).jobs.nextKey := by
      refine run_invariant (fun db => id < db.jobs.nextKey) (Table.lt_nextKey hget) ?_
      intro db op _ hlt
      exact Nat.lt_of_lt_of_le hlt (step_extends d db op).nextKey_le
    rw [run_append] at hafter
    change (op.step d (QueueOp.run d db rest)).jobs.get? id = some after at hafter
    cases hmiddle : (QueueOp.run d db rest).jobs.get? id with
    | none =>
      rw [(step_extends d _ op).gone id hkept hmiddle] at hafter
      cases hafter
    | some middle =>
      have hsame : middle.status = row.status :=
        ih (fun before other hinit => hspares before other
          (hinit.trans (List.prefix_append rest [op]))) hmiddle
      rw [← hsame]
      exact terminal_step (hspares rest op (List.prefix_refl _)) hmiddle (hsame ▸ hterminal)
        hafter

/-- **Finished rows are absorbing, skipped ones conditionally.** They keep their status until they
are deleted if and only if no operation completes, fails or parks a row that is skipped. -/
theorem finished_rows_absorbing_iff (d : Dialect) (db : Db) (history : List QueueOp) :
    (∀ before after, before ++ after <+: history → ∀ id row final,
        (QueueOp.run d db before).jobs.get? id = some row → row.status.Terminal →
        (QueueOp.run d db (before ++ after)).jobs.get? id = some final →
          final.status = row.status) ↔
      ∀ before op, before ++ [op] <+: history → ¬ op.MarksSkipped (QueueOp.run d db before) := by
  constructor
  · intro habsorbing before op hinit hmarks
    obtain ⟨id, row, after, hget, hterminal, hafter, hmoved⟩ := marksSkipped_moves (d := d) hmarks
    exact hmoved (habsorbing before [op] hinit id row after hget hterminal
      (by rw [run_append]; exact hafter))
  · intro hspares before after hinit id row final hget hterminal hfinal
    rw [run_append] at hfinal
    refine terminal_run hget hterminal ?_ hfinal
    intro middle op hmiddle
    rw [← run_append]
    refine hspares (before ++ middle) op ?_
    rw [List.append_assoc]
    exact ((List.prefix_append_right_inj before).mpr hmiddle).trans hinit

/-- A node skipped by its condition, then marked completed. -/
theorem skipped_row_completed :
    let db : Db :=
      { runs := OrdDict.empty.insert "run" { workflowName := "w", status := .running } }
    let before : List QueueOp := [.insertSkipped "run" "a" ""]
    ((QueueOp.run .pg db before).jobs.get? 0).map NodeJob.status = some .skipped ∧
      ((QueueOp.run .pg db (before ++ [.markCompleted 0 [] 1 none])).jobs.get? 0).map
        NodeJob.status = some .completed := by
  decide +kernel

end BrokerParrot
