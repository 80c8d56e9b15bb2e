import BrokerParrot.Proof.NodeOutcome

/-!
# The worker that lost its row

A worker that cannot put its row back after a transient GPU error falls through to the fail path.
That path has a guard of its own, which lets every row through that is not finished: a row that a
sweep has queued again, or that was claimed again and parked, is failed by the worker that lost it.
-/

namespace BrokerParrot

variable {row : NodeJob}

namespace NodeExecutor

def ExecDb.SameRow (id : JobId) (before after : ExecDb) : Prop :=
  after.db.jobs.get? id = before.db.jobs.get? id ∧ after.db.events = before.db.events

theorem requeueJobForRetry_of_not_running {db : Db} {id : JobId}
    (hget : db.jobs.get? id = some row) (hlost : row.status ≠ .running) :
    requeueJobForRetry id db = (db, none) := by
  have hjobs : (db.updateRunning (fun other _ => other = id) NodeJob.retry) = db := by
    unfold Db.updateRunning Db.updateJobs
    rw [Table.update_eq_self]
    intro key other hother
    by_cases hkey : key = id
    · subst hkey
      obtain rfl := Option.mem_unique hget hother
      simp [hlost]
    · simp [hkey]
  unfold requeueJobForRetry
  simp [hjobs, hget, hlost]

section

variable {env : ExecEnv} {job : HeldJob} {text : PyStr} {state : ExecDb}

theorem left_requeueForTransientGpu_of_lost (hget : state.db.jobs.get? job.id = some row)
    (hlost : row.status ≠ .running) :
    (requeueForTransientGpu env job text).left state =
      (finaliseFailed env job text).left state := by
  unfold requeueForTransientGpu
  split
  · rfl
  · have hrequeue : requeue job state = (state, none) := by
      unfold requeue
      rw [requeueJobForRetry_of_not_running hget hlost]
    rw [Prog.left_exec_bind, hrequeue]

theorem left_finaliseFailed_of_unstorable
    (hstores : storesText env.dialect (text.take 8000) = false) :
    (finaliseFailed env job text).left state = state := by
  unfold finaliseFailed
  rw [if_neg (by simp [hstores])]
  rfl

theorem left_finaliseFailed_of_finished (hget : state.db.jobs.get? job.id = some row)
    (hfinished : ¬ row.status.Open) : (finaliseFailed env job text).left state = state := by
  unfold finaliseFailed
  split
  · change (writeFailed env job text state).1 = state
    unfold writeFailed BrokerParrot.finaliseFailed markFailedInTxn Db.transition
    simp [hget, hfinished]
  · rfl

theorem left_finaliseFailed_of_open (hget : state.db.jobs.get? job.id = some row)
    (hopen : row.status.Open) (hstores : storesText env.dialect (text.take 8000) = true) :
    (((finaliseFailed env job text).left state).db.jobs.get? job.id).map NodeJob.status =
        some .failed ∧
      ((finaliseFailed env job text).left state).db.events =
        state.db.events ++ [⟨job.row.runId, job.row.nodeId, .failed⟩] := by
  unfold finaliseFailed
  rw [if_pos hstores]
  change (((writeFailed env job text state).1).db.jobs.get? job.id).map NodeJob.status = _ ∧
    ((writeFailed env job text state).1).db.events = _
  unfold writeFailed BrokerParrot.finaliseFailed markFailedInTxn Db.transition
  simp [hget, hopen, enqueueDispatchEventInTxn, NodeJob.fail]

end

/-- **A lost race.** A call on a row that is not `running` leaves it and the outbox alone if and
only if the row is finished, or the text of the error cannot be stored. -/
theorem lost_race_unchanged_iff (env : ExecEnv) (job : HeldJob) (text : PyStr) (state : ExecDb)
    (row : NodeJob) (hget : state.db.jobs.get? job.id = some row)
    (hlost : row.status ≠ .running) :
    state.SameRow job.id ((requeueForTransientGpu env job text).left state) ↔
      (row.status = .completed ∨ row.status = .failed ∨ row.status = .cancelled) ∨
        storesText env.dialect (text.take 8000) = false := by
  rw [left_requeueForTransientGpu_of_lost hget hlost]
  have hfinished : ¬ row.status.Open ↔
      row.status = .completed ∨ row.status = .failed ∨ row.status = .cancelled := by
    unfold JobStatus.Open
    cases row.status <;> simp
  rw [← hfinished]
  constructor
  · intro hsame
    by_contra hnone
    obtain ⟨hopen, hstores⟩ := not_or.mp hnone
    have hevents : ((finaliseFailed env job text).left state).db.events =
        state.db.events ++ [⟨job.row.runId, job.row.nodeId, .failed⟩] :=
      (left_finaliseFailed_of_open hget (not_not.mp hopen) (by simpa using hstores)).2
    -- The event of the failure is one more than before.
    have hlength := congrArg List.length (hevents.symm.trans hsame.2)
    simp at hlength
  · rintro (hdone | hunstorable)
    · rw [left_finaliseFailed_of_finished hget hdone]
      exact ⟨rfl, rfl⟩
    · rw [left_finaliseFailed_of_unstorable hunstorable]
      exact ⟨rfl, rfl⟩

/-- The row was cancelled while its body ran into a CUDA error. -/
theorem lost_race_unchanged_iff_cancelled :
    let held : HeldJob := ⟨0, { heldJob.row with status := .running }⟩
    let state : ExecDb :=
      { db := { jobs := Table.ofRows [{ heldJob.row with status := .cancelled }] } }
    state.SameRow 0
      ((requeueForTransientGpu (bodyEnv fun _ => .ok .other) held (.of "CUDA error")).left
        state) := by
  intro held state
  exact (lost_race_unchanged_iff _ held _ state _ rfl (by decide)).mpr (Or.inl (by decide))

/-- A sweep has put the row back in the queue. The worker that lost it hits a CUDA error, fails the
queued row and announces the failure of its node. -/
theorem lost_race_fails_queued_row :
    let held : HeldJob := ⟨0, { heldJob.row with status := .running, claimedBy := some "box-a" }⟩
    let state : ExecDb :=
      { db := requeueOverClaimedRunning 0 { heldState.db with jobs := Table.ofRows [held.row] } }
    let after := (requeueForTransientGpu (bodyEnv fun _ => .ok .other) held
      (.of "CUDA error")).left state
    (state.db.jobs.get? 0).map NodeJob.status = some .queued ∧
      (after.db.jobs.get? 0).map NodeJob.status = some .failed ∧
      after.db.events = state.db.events ++ [⟨held.row.runId, held.row.nodeId, .failed⟩] := by
  decide +kernel

end NodeExecutor

end BrokerParrot
