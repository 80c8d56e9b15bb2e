import Mathlib.Data.List.Infix
import BrokerParrot.Proof.RowSteps

/-!
# The displaced worker

A sweep takes a running row away from a worker that looks dead, and another worker claims it. The
first worker may still be alive. Its finalisers and its retry check only the status of the row,
which is running again, so they hit the second worker's claim; its lease renewal also checks the
host label and misses, unless both workers share the label.
-/

namespace BrokerParrot

def ClaimedBy (host : String) (id : JobId) (db : Db) : Prop :=
  ∃ row ∈ db.jobs.get? id, row.status = .running ∧ row.claimedBy = some host

instance (host : String) (id : JobId) (db : Db) : Decidable (ClaimedBy host id db) :=
  decidable_of_iff
    ((db.jobs.get? id).any fun row => row.status = .running ∧ row.claimedBy = some host)
    (by simp [ClaimedBy, Option.any_eq_true])

def ClaimLasts (d : Dialect) (host : String) (id : JobId) (db : Db) (history : List QueueOp) :
    Prop :=
  ∀ before ∈ history.inits, ClaimedBy host id (QueueOp.run d db before)

instance (d : Dialect) (host : String) (id : JobId) (db : Db) (history : List QueueOp) :
    Decidable (ClaimLasts d host id db history) :=
  inferInstanceAs (Decidable (∀ before ∈ history.inits, _))

structure QueueOp.Takes (d : Dialect) (op : QueueOp) (host : String) (id : JobId) (db : Db) :
    Prop where
  isClaim : (op.claimSql d).isSome
  wasQueued : (db.jobs.get? id).map NodeJob.status = some .queued
  taken : ClaimedBy host id (op.step d db)

def QueueOp.Displaces : QueueOp → Prop
  | .reclaimExpiredLeases => True
  | .requeueIfLeaseFrozen _ _ => True
  | .requeueOverClaimed _ => True
  | .reapOverClaimed _ => True
  | .requeueIfWorkerStale _ _ => True
  | _ => False

structure Displacement (d : Dialect) where
  start : Db
  id : JobId
  first : String
  second : String
  firstClaim : QueueOp
  whileFirst : List QueueOp
  sweep : QueueOp
  between : List QueueOp
  secondClaim : QueueOp
  firstTakes : firstClaim.Takes d first id start
  firstLasts : ClaimLasts d first id (firstClaim.step d start) whileFirst
  displaces : sweep.Displaces
  lost : ¬ ClaimedBy first id (QueueOp.run d start (firstClaim :: whileFirst ++ [sweep]))
  secondTakes : secondClaim.Takes d second id
    (QueueOp.run d start (firstClaim :: whileFirst ++ sweep :: between))

def Displacement.claimed {d : Dialect} (displacement : Displacement d) : Db :=
  QueueOp.run d displacement.start
    (displacement.firstClaim :: displacement.whileFirst ++
      displacement.sweep :: displacement.between ++ [displacement.secondClaim])

def QueueOp.WrittenFor (id : JobId) (host : String) : QueueOp → Prop
  | .finaliseCompleted job _ _ _ => job.id = id
  | .finaliseFailed job _ _ => job.id = id
  | .failJob target _ => target = id
  | .requeueForRetry target => target = id
  | .renewLease target claimedBy _ => target = id ∧ claimedBy = host
  | _ => False

def QueueOp.Harmless (id : JobId) (holder : String) (db : Db) : QueueOp → Prop
  | .renewLease _ claimedBy leaseS =>
    claimedBy ≠ holder ∨
      ∃ row ∈ db.jobs.get? id, row.leaseExpiresAt = some (db.now + leaseS)
  | _ => False

section

variable {d : Dialect} {db : Db} {id : JobId} {row : NodeJob} {first second : String}

theorem get?_renewLease (hget : db.jobs.get? id = some row) (hrunning : row.status = .running)
    (claimedBy : String) (leaseS : ℤ) :
    (renewLease id claimedBy leaseS db).jobs.get? id =
      some (if row.claimedBy = some claimedBy then
        { row with leaseExpiresAt := some (db.now + leaseS) } else row) := by
  unfold renewLease Db.updateRunning Db.updateJobs
  simp [hget, hrunning]

theorem get?_requeueJobForRetry (hget : db.jobs.get? id = some row)
    (hrunning : row.status = .running) :
    (requeueJobForRetry id db).1.jobs.get? id = some row.retry := by
  unfold requeueJobForRetry Db.updateRunning Db.updateJobs
  simp [hget, hrunning]

theorem mark_changes {op : QueueOp} {status : JobStatus}
    (hmarks : op.marks = some (id, status)) (hstatus : status ≠ .running)
    (hget : db.jobs.get? id = some row) (hrunning : row.status = .running) :
    (op.step d db).jobs.get? id ≠ db.jobs.get? id := by
  obtain ⟨after, hafter, hmarked⟩ := step_marks (d := d) hmarks hget (by rw [hrunning]; decide)
  rw [hafter, hget]
  intro hsame
  cases hsame
  exact hstatus (hmarked.symm.trans hrunning)

/-- **One late write.** It spares the row that the second worker runs exactly if it is harmless. -/
theorem late_write_spares_iff {write : QueueOp} (hwrite : write.WrittenFor id first)
    (hclaimed : ClaimedBy second id db) :
    (write.step d db).jobs.get? id = db.jobs.get? id ↔ write.Harmless id second db := by
  obtain ⟨row, hget, hrunning, hholder⟩ := hclaimed
  cases write with
  -- The marks and the retry ask for the status only, and the row is running again.
  | finaliseCompleted job contextDelta seconds vmRssMbPeak =>
    obtain rfl : job.id = id := hwrite
    exact iff_of_false (mark_changes rfl (by decide) hget hrunning) id
  | finaliseFailed job error seconds =>
    obtain rfl : job.id = id := hwrite
    exact iff_of_false (mark_changes rfl (by decide) hget hrunning) id
  | failJob target error =>
    obtain rfl : target = id := hwrite
    exact iff_of_false (mark_changes rfl (by decide) hget hrunning) id
  | requeueForRetry target =>
    obtain rfl : target = id := hwrite
    refine iff_of_false ?_ id
    change (requeueJobForRetry target db).1.jobs.get? target ≠ db.jobs.get? target
    rw [get?_requeueJobForRetry hget hrunning, hget]
    intro hsame
    have hstatus : JobStatus.queued = row.status :=
      congrArg NodeJob.status (Option.some.inj hsame)
    rw [hrunning] at hstatus
    cases hstatus
  | renewLease target claimedBy leaseS =>
    obtain ⟨rfl, rfl⟩ := hwrite
    change (renewLease target claimedBy leaseS db).jobs.get? target = db.jobs.get? target ↔
      claimedBy ≠ second ∨
        ∃ row ∈ db.jobs.get? target, row.leaseExpiresAt = some (db.now + leaseS)
    -- The one write that asks for the label: it hits the claim of a worker of the same label.
    rw [get?_renewLease hget hrunning, hget]
    by_cases hlabel : claimedBy = second
    · subst hlabel
      rw [if_pos hholder]
      simp only [Option.some.injEq, Option.mem_def, ne_eq, not_true_eq_false, false_or,
        exists_eq_left']
      constructor
      · intro hsame
        rw [← hsame]
      · intro hlease
        rw [← hlease]
    · have hother : row.claimedBy ≠ some claimedBy := by
        rw [hholder]
        exact fun heq => hlabel (Option.some.inj heq).symm
      simp [hother, hlabel]
  | _ => cases hwrite

end

/-- **The displaced worker.** Its late writes leave the row alone while the second claim lasts if
and only if each is a lease renewal that matches another host label or changes nothing. -/
theorem displaced_writes_spare_iff (d : Dialect) (displacement : Displacement d)
    (later : List QueueOp) :
    (∀ before write, before ++ [write] <+: later →
        ClaimLasts d displacement.second displacement.id displacement.claimed before →
        write.WrittenFor displacement.id displacement.first →
          (write.step d (QueueOp.run d displacement.claimed before)).jobs.get? displacement.id =
            (QueueOp.run d displacement.claimed before).jobs.get? displacement.id) ↔
      ∀ before write, before ++ [write] <+: later →
        ClaimLasts d displacement.second displacement.id displacement.claimed before →
        write.WrittenFor displacement.id displacement.first →
          write.Harmless displacement.id displacement.second
            (QueueOp.run d displacement.claimed before) := by
  refine forall₂_congr fun before write => ?_
  refine forall₃_congr fun _ hlasts hwrite => ?_
  have hnow := hlasts before ((List.mem_inits _ _).mpr (List.prefix_refl before))
  exact late_write_spares_iff hwrite hnow

def oneQueued : Db where
  jobs := Table.ofRows
    [{ runId := "run", nodeId := "a", nodeModule := "m", queue := .cpu, project := "",
       status := .queued, createdAt := 0 }]
  runs := OrdDict.empty.insert "run" { workflowName := "w", status := .running }

def lateFinish : Displacement .pg where
  start := oneQueued
  id := 0
  first := "slow"
  second := "fast"
  firstClaim := .claimCpu { host := some "slow" } {}
  whileFirst := [.clock 1000]
  sweep := .reclaimExpiredLeases
  between := []
  secondClaim := .claimCpu { host := some "fast" } {}
  firstTakes := ⟨rfl, by decide +kernel, by decide +kernel⟩
  firstLasts := by decide +kernel
  displaces := trivial
  lost := by decide +kernel
  secondTakes := ⟨rfl, by decide +kernel, by decide +kernel⟩

/-- The slow worker then finishes its job, and the fast one's row is completed under it. -/
theorem late_finish_completes_claimed_row :
    let held : NodeJob :=
      { runId := "run", nodeId := "a", nodeModule := "m", queue := .cpu, project := "",
        status := .running, claimedBy := some "slow", createdAt := 0 }
    let write : QueueOp := .finaliseCompleted ⟨0, held⟩ [] 1000 none
    ClaimedBy "fast" 0 lateFinish.claimed ∧ write.WrittenFor lateFinish.id lateFinish.first ∧
      ((write.step .pg lateFinish.claimed).jobs.get? 0).map NodeJob.status = some .completed := by
  intro held write
  exact ⟨by decide +kernel, rfl, by decide +kernel⟩

end BrokerParrot
