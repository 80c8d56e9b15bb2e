import Mathlib.Data.List.Lex
import BrokerParrot.NodeQueue

/-!
# What an operation does to a row

Every operation of the queue treats the rows one by one. `RowStep` lists what can happen to one row,
with the facts the invariants need about the row before and after, and `step_row` shows that nothing
else happens.
-/

namespace BrokerParrot

open List

variable {after db : Db} {row : NodeJob} {d : Dialect} {id : JobId} {op : QueueOp}
  {runId : String} {now : ℚ}

def QueueOp.claimSql (d : Dialect) : QueueOp → Option ClaimSql
  | .claimCpu args _ => some (args.sql d)
  | .claimDownload args _ => some (args.sql d)
  | .claimGpu args _ => some (args.sql d)
  | _ => none

def QueueOp.marks : QueueOp → Option (JobId × JobStatus)
  | .finaliseCompleted job _ _ _ => some (job.id, .completed)
  | .finaliseFailed job _ _ => some (job.id, .failed)
  | .failJob id _ => some (id, .failed)
  | .parkInput job => some (job.id, .awaitingInput)
  | .markCompleted id _ _ _ => some (id, .completed)
  | .markFailed id _ _ => some (id, .failed)
  | .markAwaitingInput id => some (id, .awaitingInput)
  | _ => none

def QueueOp.insertedRow (now : ℚ) : QueueOp → Option NodeJob
  | .enqueue spec => (spec.row now).toOption
  | .insertSkipped runId nodeId project => some (skippedRow runId nodeId project now)
  | _ => none

def QueueOp.restamps : QueueOp → Option JobId
  | .restamp id _ => some id
  | _ => none

structure NodeJob.SameCell (row after : NodeJob) : Prop where
  runId : after.runId = row.runId
  nodeId : after.nodeId = row.nodeId
  queue : after.queue = row.queue
  project : after.project = row.project
  inputs : after.inputs = row.inputs

variable {sql : ClaimSql} {spec : NodeJobSpec} {env : ClaimEnv}

theorem NodeJob.SameCell.rfl : row.SameCell row :=
  ⟨by rfl, by rfl, by rfl, by rfl, by rfl⟩

inductive RowStep (d : Dialect) (op : QueueOp) (id : JobId) :
    Option NodeJob → Option NodeJob → Prop where
  | same (row : Option NodeJob) : RowStep d op id row row
  | insert {row : NodeJob} (now : ℚ) (hrow : op.insertedRow now = some row)
      (hstatus : row.status = .queued ∨ row.status = .skipped) (hclaim : row.claimedBy = none) :
      RowStep d op id none (some row)
  | take {row : NodeJob} {sql : ClaimSql} (now : ℚ) (hsql : op.claimSql d = some sql)
      (hstatus : row.status = .queued) (hqueue : row.queue = sql.queue)
      (hproject : row.project = sql.project) :
      RowStep d op id (some row) (some (sql.take now row))
  | leave {row after : NodeJob} (hrunning : row.status = .running)
      (hstatus : after.status = .queued ∨ after.status = .cancelled) (hcell : row.SameCell after)
      (hretries : after.watchdogRetries = row.watchdogRetries ∨ op = .requeueForRetry id) :
      RowStep d op id (some row) (some after)
  | finish {row after : NodeJob} (hmarks : op.marks = some (id, after.status))
      (hopen : row.status.Open) (hcell : row.SameCell after)
      (hretries : after.watchdogRetries = row.watchdogRetries) :
      RowStep d op id (some row) (some after)
  | cancel {row after : NodeJob} (hqueued : row.status = .queued)
      (hstatus : after.status = .cancelled) (hcell : row.SameCell after)
      (hretries : after.watchdogRetries = row.watchdogRetries) :
      RowStep d op id (some row) (some after)
  | delete {row : NodeJob} (hop : op = .deleteNonTerminalForRun row.runId)
      (hcompleted : row.status ≠ .completed) (hskipped : row.status ≠ .skipped) :
      RowStep d op id (some row) none
  | edit {row after : NodeJob} (hstatus : after.status = row.status)
      (hclaim : after.claimedBy = row.claimedBy) (hslots : after.gpuSlots = row.gpuSlots)
      (hstamp : after.resolvedServer = row.resolvedServer ∨ op.restamps = some id)
      (hcell : row.SameCell after) (hstarted : after.startedAt = row.startedAt)
      (hretries : after.watchdogRetries = row.watchdogRetries) :
      RowStep d op id (some row) (some after)

theorem Db.transition_cases (db : Db) (id : JobId) (set : NodeJob → NodeJob) :
    db.transition id set = (db, none) ∨
      ∃ row, db.jobs.get? id = some row ∧ row.status.Open ∧
        db.transition id set = ({ db with jobs := db.jobs.modify id set }, some (set row)) := by
  unfold Db.transition
  cases hget : db.jobs.get? id with
  | none => exact Or.inl rfl
  | some row =>
    by_cases hopen : row.status.Open
    · exact Or.inr ⟨row, rfl, hopen, by simp [hopen]⟩
    · exact Or.inl (by simp [hopen])

theorem Db.insertOrRaise_cases (db : Db) (row : NodeJob) :
    (∃ violation, db.insertOrRaise row = .error (.integrity violation)) ∨
      db.stores row = true ∧ ¬ db.NodeTaken row.runId row.nodeId ∧
        db.insertOrRaise row = .ok { db with jobs := db.jobs.append row } := by
  unfold Db.insertOrRaise Db.insertJob
  by_cases hstores : db.stores row = false
  · exact Or.inl ⟨.dataError, by rw [if_pos hstores]⟩
  by_cases horphan : (db.runs.get? row.runId).isNone = true
  · exact Or.inl ⟨.foreignKeyViolation, by rw [if_neg hstores, if_pos horphan]⟩
  by_cases htaken : db.NodeTaken row.runId row.nodeId
  · exact Or.inl ⟨.uniqueViolation, by rw [if_neg hstores, if_neg horphan, if_pos htaken]⟩
  · exact Or.inr ⟨by simpa using hstores, htaken, by rw [if_neg hstores, if_neg horphan,
      if_neg htaken]⟩

namespace RowStep

variable {table : Table NodeJob}

theorem of_update {rewrite : JobId → NodeJob → NodeJob} (hstep : ∀ row, table.get? id = some row →
      RowStep d op id (some row) (some (rewrite id row))) :
    RowStep d op id (table.get? id) ((table.update rewrite).get? id) := by
  rw [Table.get?_update]
  cases hget : table.get? id with
  | none => exact same none
  | some row => exact hstep row hget

variable {set : NodeJob → NodeJob} {selects : JobId → NodeJob → Bool} {target : JobId}

theorem of_updateWhere {selects : JobId → NodeJob → Prop} [∀ key row, Decidable (selects key row)]
    (hstep : ∀ row, selects id row → RowStep d op id (some row) (some (set row))) :
    RowStep d op id (table.get? id)
      ((table.update fun key row => if selects key row then set row else row).get? id) := by
  refine of_update fun row _ => ?_
  split
  · rename_i hselected
    exact hstep row hselected
  · exact same _

theorem of_updateRunning (hstep : ∀ row, row.status = .running → selects id row = true →
      RowStep d op id (some row) (some (set row))) :
    RowStep d op id (db.jobs.get? id) ((db.updateRunning selects set).jobs.get? id) :=
  of_updateWhere fun row hselected => hstep row hselected.1 hselected.2

theorem of_requeue (front : Bool) (hrunning : row.status = .running) :
    RowStep d op id (some row) (some (row.requeue front)) :=
  leave hrunning (Or.inl rfl) ⟨rfl, rfl, rfl, rfl, rfl⟩ (Or.inl rfl)

theorem of_recover (parentRunning : Bool) (now : ℚ) (hrunning : row.status = .running) :
    RowStep d op id (some row) (some (row.recover parentRunning now)) := by
  cases parentRunning with
  | true => exact of_requeue true hrunning
  | false => exact leave hrunning (Or.inr rfl) ⟨rfl, rfl, rfl, rfl, rfl⟩ (Or.inl rfl)

theorem of_recoverWhere :
    RowStep d op id (db.jobs.get? id) ((db.recoverWhere selects).jobs.get? id) := by
  refine of_update fun row _ => ?_
  split
  · exact same _
  split
  · rename_i hselected
    exact of_recover _ db.now hselected.1
  · exact same _

theorem of_mark (hget : db.jobs.get? target = some row) (hopen : row.status.Open)
    (hmarks : op.marks = some (target, (set row).status)) (hcell : row.SameCell (set row))
    (hretries : (set row).watchdogRetries = row.watchdogRetries) :
    RowStep d op id (db.jobs.get? id) ((db.jobs.modify target set).get? id) := by
  by_cases heq : id = target
  · subst heq
    rw [Table.get?_modify_self, hget]
    exact finish hmarks hopen hcell hretries
  · rw [Table.get?_modify_of_ne _ _ heq]
    exact same _

theorem of_transition (hmarks : ∀ row, op.marks = some (target, (set row).status))
    (hcell : ∀ row : NodeJob, row.SameCell (set row))
    (hretries : ∀ row, (set row).watchdogRetries = row.watchdogRetries) :
    RowStep d op id (db.jobs.get? id) ((db.transition target set).1.jobs.get? id) := by
  rcases db.transition_cases target set with hmiss | ⟨row, hget, hopen, hhit⟩
  · rw [hmiss]
    exact same _
  · rw [hhit]
    exact of_mark hget hopen (hmarks row) (hcell row) (hretries row)

theorem of_deleteNonTerminal :
    RowStep d (.deleteNonTerminalForRun runId) id (db.jobs.get? id)
      ((deleteNonTerminalJobsForRun runId db).1.jobs.get? id) := by
  unfold deleteNonTerminalJobsForRun
  rw [Table.get?_filter]
  cases hget : db.jobs.get? id with
  | none => exact same none
  | some row =>
    rw [Option.filter_some]
    split
    · exact same _
    · rename_i hdoomed
      simp only [Bool.not_eq_true', decide_eq_false_iff_not, not_not] at hdoomed
      exact delete (by rw [hdoomed.1]) hdoomed.2.1 hdoomed.2.2

theorem of_insertOrRaise {result : Except PyError Db}
    (hresult : result = db.insertOrRaise row) (hrow : op.insertedRow db.now = some row)
    (hstatus : row.status = .queued ∨ row.status = .skipped) (hclaim : row.claimedBy = none) :
    RowStep d op id (db.jobs.get? id) ((db.orSame result).jobs.get? id) := by
  subst hresult
  rcases db.insertOrRaise_cases row with ⟨_, hraised⟩ | ⟨-, -, hinsert⟩
  · rw [hraised]
    exact same _
  · rw [hinsert]
    change RowStep d op id _ ((db.jobs.append row).get? id)
    by_cases heq : id = db.jobs.nextKey
    · subst heq
      rw [Table.get?_append_self, Table.get?_nextKey]
      exact insert db.now hrow hstatus hclaim
    · rw [Table.get?_append_of_ne _ _ heq]
      exact same _

end RowStep

/-! ### The claim -/

theorem ClaimSql.eligible_holds : (sql.eligible d db row).Holds ↔
      row.queue = sql.queue ∧ row.status = .queued ∧ row.project = sql.project ∧
        runClaimable db row.runId = true ∧ (placementTerms d sql.box row).Holds ∧
        (sql.capability db row).Holds := by
  simp [ClaimSql.eligible, Tri.holds_all]

theorem GpuClaim.capability_holds {args : GpuClaim} : (args.capability d db row).Holds ↔
      (args.eligibility d row).Holds ∧ (args.reservationsGate d row).Holds ∧
        (args.boxSlotGate db row).Holds ∧ (args.reservationGate d db row).Holds ∧
        (args.kindGate db row).Holds := by
  simp [GpuClaim.capability, Tri.holds_all]

theorem ClaimSql.mem_of_pick (hpick : sql.pick d env db = some (id, row)) :
    db.jobs.get? id = some row ∧ (sql.eligible d db row).Holds := by
  have hfirst : (id, row) ∈ sql.firsts (sql.candidates d env db) :=
    mem_of_getElem? hpick
  have hcandidate : (id, row) ∈ sql.candidates d env db := (mem_filter.mp hfirst).1
  obtain ⟨hmem, hholds⟩ := mem_filter.mp hcandidate
  exact ⟨Table.mem_entries.mp hmem, (of_decide_eq_true hholds).1⟩

theorem ClaimSql.firsts_ne_nil (sql : ClaimSql) {rows : List (JobId × NodeJob)}
    (hrows : rows ≠ []) : sql.firsts rows ≠ [] := by
  obtain ⟨first, hfirst⟩ : ∃ first, first ∈ rows.argmin fun entry => sql.order entry.1 entry.2 := by
    cases hmin : rows.argmin fun entry => sql.order entry.1 entry.2 with
    | none => exact absurd (argmin_eq_none.mp hmin) hrows
    | some first => exact ⟨first, rfl⟩
  apply ne_nil_of_mem
  refine mem_filter.mpr ⟨argmin_mem hfirst, decide_eq_true ?_⟩
  intro other hother
  exact not_lt_of_mem_argmin hother hfirst

theorem ClaimSql.exists_pick (hget : db.jobs.get? id = some row)
    (heligible : (sql.eligible d db row).Holds) (hfree : env.locked id = false) :
    ∃ entry, sql.pick d env db = some entry := by
  have hpassed : d.skipLocked env.locked id = false := by
    cases d with
    | pg => exact hfree
    | sqlite => rfl
  have hmem : (id, row) ∈ sql.candidates d env db :=
    mem_filter.mpr ⟨Table.mem_entries.mpr hget, decide_eq_true ⟨heligible, hpassed⟩⟩
  have hbest := sql.firsts_ne_nil (ne_nil_of_mem hmem)
  have hlength := length_pos_iff.mpr hbest
  exact ⟨_, getElem?_eq_getElem (Nat.mod_lt _ hlength)⟩

theorem ClaimSql.execute_cases (sql : ClaimSql) (d : Dialect) (env : ClaimEnv) (db : Db) :
    sql.execute d env db = (db, none) ∨
      ∃ id row, db.jobs.get? id = some row ∧ (sql.eligible d db row).Holds ∧
        sql.execute d env db =
          ({ db with jobs := db.jobs.modify id (sql.take db.now) },
            some (id, sql.take db.now row)) := by
  unfold ClaimSql.execute
  cases hpick : sql.pick d env db with
  | none => exact Or.inl rfl
  | some entry =>
    obtain ⟨id, row⟩ := entry
    obtain ⟨hget, hholds⟩ := mem_of_pick hpick
    dsimp only
    split
    · exact Or.inl rfl
    · exact Or.inr ⟨id, row, hget, hholds, rfl⟩

theorem ClaimSql.execute_of_pick (hpick : sql.pick d env db = some (id, row)) :
    sql.execute d env db = if sql.Raises env db row then (db, none) else
      ({ db with jobs := db.jobs.modify id (sql.take db.now) },
        some (id, sql.take db.now row)) := by
  rw [ClaimSql.execute, hpick]

theorem ClaimSql.not_raises_of_execute {entry : JobId × NodeJob}
    (hclaim : (sql.execute d env db).2 = some entry) : ∃ row, ¬ sql.Raises env db row := by
  cases hpick : sql.pick d env db with
  | none =>
    rw [ClaimSql.execute, hpick] at hclaim
    cases hclaim
  | some found =>
    refine ⟨found.2, fun hraises => ?_⟩
    rw [execute_of_pick hpick, if_pos hraises] at hclaim
    cases hclaim

theorem ClaimSql.execute_taken {taken : NodeJob}
    (hclaim : sql.execute d env db = (after, some (id, taken))) :
    after.jobs.get? id = some taken ∧ ∃ row, db.jobs.get? id = some row ∧
      (sql.eligible d db row).Holds ∧ taken = sql.take db.now row := by
  rcases sql.execute_cases d env db with hnone | ⟨key, row, hget, hholds, htaken⟩
  · cases congrArg Prod.snd (hnone.symm.trans hclaim)
  · cases htaken.symm.trans hclaim
    refine ⟨?_, row, hget, hholds, rfl⟩
    rw [Table.get?_modify_self, hget, Option.map_some]

theorem RowStep.of_execute (env : ClaimEnv) (hsql : op.claimSql d = some sql) :
    RowStep d op id (db.jobs.get? id) ((sql.execute d env db).1.jobs.get? id) := by
  rcases sql.execute_cases d env db with hnone | ⟨taken, row, hget, hholds, htaken⟩
  · rw [hnone]
    exact same _
  · rw [htaken]
    obtain ⟨hqueue, hstatus, hproject, -⟩ := ClaimSql.eligible_holds.mp hholds
    by_cases heq : id = taken
    · subst heq
      rw [Table.get?_modify_self, hget]
      exact take db.now hsql hstatus hqueue hproject
    · rw [Table.get?_modify_of_ne _ _ heq]
      exact same _

/-! ### Inserts and the reaper -/

theorem Db.insertOrRaise_ok (hinsert : db.insertOrRaise row = .ok after) :
    ¬ db.NodeTaken row.runId row.nodeId ∧ after = { db with jobs := db.jobs.append row } := by
  rcases db.insertOrRaise_cases row with ⟨_, hraised⟩ | ⟨-, hfree, hinserted⟩
  · cases hraised.symm.trans hinsert
  · exact ⟨hfree, (Except.ok.inj (hinserted.symm.trans hinsert)).symm⟩

theorem Db.get?_of_insertOrRaise {found : NodeJob}
    (hinsert : db.insertOrRaise row = .ok after) (hget : db.jobs.get? id = some found) :
    after.jobs.get? id = some found := by
  rw [(Db.insertOrRaise_ok hinsert).2]
  exact (Table.get?_append_of_ne _ row (Nat.ne_of_lt (Table.lt_nextKey hget))).trans hget

theorem enqueueNodeJob_ok (hinsert : enqueueNodeJob spec db = .ok after) :
    ∃ row, spec.row db.now = .ok row ∧ db.insertOrRaise row = .ok after := by
  unfold enqueueNodeJob at hinsert
  cases hrow : spec.row db.now with
  | error =>
    rw [hrow] at hinsert
    cases hinsert
  | ok row =>
    rw [hrow] at hinsert
    exact ⟨row, rfl, hinsert⟩

theorem NodeJobSpec.row_ok (hrow : spec.row now = .ok row) : ∃ contextLength gpuSlots,
      row = spec.rowWith contextLength gpuSlots now := by
  unfold NodeJobSpec.row at hrow
  cases hchecked : spec.validated with
  | error =>
    rw [hchecked] at hrow
    cases hrow
  | ok checked =>
    rw [hchecked] at hrow
    exact ⟨checked.1, checked.2, (Except.ok.inj hrow).symm⟩

theorem QueueOp.insertedRow_enqueue (hrow : (QueueOp.enqueue spec).insertedRow now = some row) :
    ∃ contextLength gpuSlots, row = spec.rowWith contextLength gpuSlots now := by
  change (spec.row now).toOption = some row at hrow
  cases hresult : spec.row now with
  | error =>
    rw [hresult] at hrow
    cases hrow
  | ok =>
    rw [hresult] at hrow
    cases hrow
    exact NodeJobSpec.row_ok hresult

theorem RowStep.of_enqueue (spec : NodeJobSpec) : RowStep d (.enqueue spec) id (db.jobs.get? id)
      ((db.orSame (enqueueNodeJob spec db)).jobs.get? id) := by
  unfold enqueueNodeJob
  cases hrow : spec.row db.now with
  | error => exact same _
  | ok row =>
    have hinserted : (QueueOp.enqueue spec).insertedRow db.now = some row := by
      change (spec.row db.now).toOption = some row
      rw [hrow]
      rfl
    obtain ⟨contextLength, gpuSlots, rfl⟩ := NodeJobSpec.row_ok hrow
    exact of_insertOrRaise rfl hinserted (Or.inl rfl) rfl

theorem get?_requeueOverClaimedRunning (victim id : JobId) (db : Db) :
    (requeueOverClaimedRunning victim db).jobs.get? id = db.jobs.get? id ∨
      ∃ row parentRunning, id = victim ∧ db.jobs.get? id = some row ∧ row.status = .running ∧
        (requeueOverClaimedRunning victim db).jobs.get? id =
          some (row.recover parentRunning db.now) := by
  unfold requeueOverClaimedRunning Db.recoverWhere Db.updateJobs
  rw [Table.get?_update]
  cases hget : db.jobs.get? id with
  | none => exact Or.inl rfl
  | some row =>
    rw [Option.map_some]
    split
    · exact Or.inl rfl
    · rename_i parent hparent
      split
      · rename_i hselected
        exact Or.inr ⟨row, _, of_decide_eq_true hselected.2, rfl, hselected.1, rfl⟩
      · exact Or.inl rfl

theorem NodeJob.recover_not_running (parentRunning : Bool) (now : ℚ) (row : NodeJob) :
    (row.recover parentRunning now).status ≠ .running := by
  cases parentRunning <;> simp [NodeJob.recover, NodeJob.requeue]

theorem get?_recoverAll_of_spared {victims : List JobId}
    (hspared : ∀ row, db.jobs.get? id = some row → row.status = .running → id ∉ victims) :
    (recoverAll victims db).jobs.get? id = db.jobs.get? id := by
  induction victims generalizing db with
  | nil => rfl
  | cons victim rest ih =>
    rcases get?_requeueOverClaimedRunning victim id db with
      hsame | ⟨row, _, rfl, hget, hrunning, -⟩
    · refine (ih fun row hget hrunning hmem => ?_).trans hsame
      exact hspared row (hsame ▸ hget) hrunning (mem_cons_of_mem _ hmem)
    · exact absurd mem_cons_self (hspared row hget hrunning)

theorem RowStep.of_recoverAll (victims : List JobId) :
    RowStep d op id (db.jobs.get? id) ((recoverAll victims db).jobs.get? id) := by
  induction victims generalizing db with
  | nil => exact same _
  | cons victim rest ih =>
    change RowStep d op id _
      ((recoverAll rest (requeueOverClaimedRunning victim db)).jobs.get? id)
    -- A row that was recovered no longer runs, so the later victims leave it alone.
    rcases get?_requeueOverClaimedRunning victim id db with
      hsame | ⟨row, parent, -, hget, hrunning, hnew⟩
    · rw [← hsame]
      exact ih
    · rw [get?_recoverAll_of_spared, hnew, hget]
      · exact of_recover parent db.now hrunning
      · intro after hafter hstill
        rw [hnew] at hafter
        cases hafter
        exact absurd hstill (NodeJob.recover_not_running parent db.now row)

/-! ### Every operation

A finaliser writes its row and its event, or nothing. -/

theorem finaliseCompleted_cases (job : HeldJob) (contextDelta : List (String × Value))
    (seconds : ℚ) (vmRssMbPeak : Option ℤ) (db : Db) :
    finaliseCompleted job contextDelta seconds vmRssMbPeak db = (db, .skipped) ∨
      ∃ row, db.jobs.get? job.id = some row ∧ row.status.Open ∧
        finaliseCompleted job contextDelta seconds vmRssMbPeak db =
          ({ db with
              jobs := db.jobs.modify job.id
                (NodeJob.complete db.now contextDelta seconds vmRssMbPeak)
              events := db.events ++ [⟨job.row.runId, job.row.nodeId, .completed⟩] },
            .completed) := by
  unfold finaliseCompleted markCompletedInTxn
  rcases db.transition_cases job.id (NodeJob.complete db.now contextDelta seconds vmRssMbPeak) with
    hmiss | ⟨row, hget, hopen, hhit⟩
  · exact Or.inl (by rw [hmiss])
  · exact Or.inr ⟨row, hget, hopen, by rw [hhit]; rfl⟩

theorem finaliseFailed_cases (job : HeldJob) (error : String) (seconds : ℚ) (db : Db) :
    finaliseFailed job error seconds db = (db, .skipped) ∨
      ∃ row, db.jobs.get? job.id = some row ∧ row.status.Open ∧
        finaliseFailed job error seconds db =
          ({ db with
              jobs := db.jobs.modify job.id (NodeJob.fail db.now error (some seconds))
              events := db.events ++ [⟨job.row.runId, job.row.nodeId, .failed⟩] },
            .failed) := by
  unfold finaliseFailed markFailedInTxn
  rcases db.transition_cases job.id (NodeJob.fail db.now error (some seconds)) with
    hmiss | ⟨row, hget, hopen, hhit⟩
  · exact Or.inl (by rw [hmiss])
  · exact Or.inr ⟨row, hget, hopen, by rw [hhit]; rfl⟩

theorem failJobAndExit_cases (id : JobId) (error : String) (db : Db) :
    failJobAndExit id error db = db ∨
      ∃ row, db.jobs.get? id = some row ∧ row.status.Open ∧
        failJobAndExit id error db =
          { db with
            jobs := db.jobs.modify id (NodeJob.fail db.now error none)
            events := db.events ++ [⟨row.runId, row.nodeId, .failed⟩] } := by
  unfold failJobAndExit markFailedInTxn
  rcases db.transition_cases id (NodeJob.fail db.now error none) with
    hmiss | ⟨row, hget, hopen, hhit⟩
  · exact Or.inl (by rw [hmiss])
  · exact Or.inr ⟨row, hget, hopen, by rw [hhit]; rfl⟩

def QueueOp.finaliser : QueueOp → Option JobId
  | .finaliseCompleted job _ _ _ => some job.id
  | .finaliseFailed job _ _ => some job.id
  | .failJob id _ => some id
  | _ => none

def Finalises (op : QueueOp) (db after : Db) : Prop :=
  after = db ∨ ∃ (id : JobId) (row : NodeJob) (set : NodeJob → NodeJob) (event : DispatchEvent),
    op.marks = some (id, (set row).status) ∧ db.jobs.get? id = some row ∧ row.status.Open ∧
      row.SameCell (set row) ∧ (set row).watchdogRetries = row.watchdogRetries ∧
      after = { db with jobs := db.jobs.modify id set, events := db.events ++ [event] }

namespace Finalises

theorem of_step (d : Dialect) (db : Db) (hop : op.finaliser.isSome = true) :
    Finalises op db (op.step d db) := by
  cases op with
  | finaliseCompleted job contextDelta seconds vmRssMbPeak =>
    rcases finaliseCompleted_cases job contextDelta seconds vmRssMbPeak db with
      hmiss | ⟨row, hget, hopen, hhit⟩
    · exact Or.inl (congrArg Prod.fst hmiss)
    · exact Or.inr ⟨job.id, row, _, _, rfl, hget, hopen, ⟨rfl, rfl, rfl, rfl, rfl⟩, rfl,
        congrArg Prod.fst hhit⟩
  | finaliseFailed job error seconds =>
    rcases finaliseFailed_cases job error seconds db with hmiss | ⟨row, hget, hopen, hhit⟩
    · exact Or.inl (congrArg Prod.fst hmiss)
    · exact Or.inr ⟨job.id, row, _, _, rfl, hget, hopen, ⟨rfl, rfl, rfl, rfl, rfl⟩, rfl,
        congrArg Prod.fst hhit⟩
  | failJob id error =>
    rcases failJobAndExit_cases id error db with hmiss | ⟨row, hget, hopen, hhit⟩
    · exact Or.inl hmiss
    · exact Or.inr ⟨id, row, _, _, rfl, hget, hopen, ⟨rfl, rfl, rfl, rfl, rfl⟩, rfl, hhit⟩
  | _ => cases hop

variable (hfinalises : Finalises op db after)

include hfinalises

theorem rowStep : RowStep d op id (db.jobs.get? id) (after.jobs.get? id) := by
  rcases hfinalises with rfl | ⟨target, row, set, event, hmarks, hget, hopen, hcell, hretries, rfl⟩
  · exact RowStep.same _
  · exact RowStep.of_mark hget hopen hmarks hcell hretries

theorem runs : after.runs = db.runs := by
  rcases hfinalises with rfl | ⟨_, _, _, _, -, -, -, -, -, rfl⟩ <;> rfl

theorem events : ∃ tail, after.events = db.events ++ tail := by
  rcases hfinalises with rfl | ⟨_, _, _, event, -, -, -, -, -, rfl⟩
  · exact ⟨[], (append_nil _).symm⟩
  · exact ⟨[event], rfl⟩

theorem extends_jobs : db.jobs.Extends after.jobs := by
  rcases hfinalises with rfl | ⟨_, _, _, _, -, -, -, -, -, rfl⟩
  · exact Table.Extends.refl _
  · exact Table.Extends.update _ _

end Finalises

theorem step_row (d : Dialect) (db : Db) (op : QueueOp) (id : JobId) :
    RowStep d op id (db.jobs.get? id) ((op.step d db).jobs.get? id) := by
  cases op with
  | claimCpu args env | claimDownload args env | claimGpu args env =>
    exact RowStep.of_execute env rfl
  | enqueue spec => exact RowStep.of_enqueue spec
  | insertSkipped => exact RowStep.of_insertOrRaise rfl rfl (Or.inr rfl) rfl
  | reclaimExpiredLeases | requeueIfLeaseFrozen | requeueOverClaimed =>
    exact RowStep.of_recoverWhere
  | reapOverClaimed => exact RowStep.of_recoverAll _
  | reclaimAllForResume =>
    exact RowStep.of_updateRunning fun row hrunning _ => RowStep.of_requeue false hrunning
  | requeueForWorker | requeueRunningJob | requeueIfWorkerStale =>
    exact RowStep.of_updateRunning fun row hrunning _ => RowStep.of_requeue true hrunning
  | requeueForRetry =>
    refine RowStep.of_updateRunning fun row hrunning hselected => ?_
    obtain rfl := of_decide_eq_true hselected
    exact RowStep.leave hrunning (Or.inl rfl) ⟨rfl, rfl, rfl, rfl, rfl⟩ (Or.inr rfl)
  | finaliseCompleted | finaliseFailed | failJob => exact (Finalises.of_step d db rfl).rowStep
  | parkInput | markCompleted | markFailed | markAwaitingInput =>
    exact RowStep.of_transition (fun _ => rfl) (fun _ => ⟨rfl, rfl, rfl, rfl, rfl⟩) fun _ => rfl
  | renewLease =>
    exact RowStep.of_updateRunning fun row _ _ =>
      RowStep.edit rfl rfl rfl (Or.inl rfl) ⟨rfl, rfl, rfl, rfl, rfl⟩ rfl rfl
  | restamp target serverType =>
    change RowStep d _ id _ ((restampResolvedServer target serverType db).jobs.get? id)
    unfold restampResolvedServer
    split
    · exact RowStep.same _
    · refine RowStep.of_updateRunning fun row _ hselected => ?_
      obtain rfl := of_decide_eq_true hselected
      exact RowStep.edit rfl rfl rfl (Or.inr rfl) ⟨rfl, rfl, rfl, rfl, rfl⟩ rfl rfl
  | prioritize | setInputSpec =>
    exact RowStep.of_updateWhere fun row _ =>
      RowStep.edit rfl rfl rfl (Or.inl rfl) ⟨rfl, rfl, rfl, rfl, rfl⟩ rfl rfl
  | cancelQueuedForRun =>
    exact RowStep.of_updateWhere fun row hselected =>
      RowStep.cancel hselected.2 rfl ⟨rfl, rfl, rfl, rfl, rfl⟩ rfl
  | cancelOrphanedQueued =>
    exact RowStep.of_updateWhere fun row hselected =>
      RowStep.cancel hselected.2.1 rfl ⟨rfl, rfl, rfl, rfl, rfl⟩ rfl
  | deleteNonTerminalForRun => exact RowStep.of_deleteNonTerminal
  | heartbeat | writeRun | clock => exact RowStep.same _

theorem Db.get?_transition_of_open (set : NodeJob → NodeJob)
    (hget : db.jobs.get? id = some row) (hopen : row.status.Open) :
    (db.transition id set).1.jobs.get? id = some (set row) := by
  unfold Db.transition
  simp [hget, hopen]

theorem step_marks {status : JobStatus} (hmarks : op.marks = some (id, status))
    (hget : db.jobs.get? id = some row) (hopen : row.status.Open) :
    ∃ after, (op.step d db).jobs.get? id = some after ∧ after.status = status := by
  cases op with
  | finaliseCompleted job contextDelta seconds vmRssMbPeak =>
    cases hmarks
    refine ⟨row.complete db.now contextDelta seconds vmRssMbPeak, ?_, rfl⟩
    change (BrokerParrot.finaliseCompleted job contextDelta seconds vmRssMbPeak db).1.jobs.get? _
      = _
    unfold BrokerParrot.finaliseCompleted markCompletedInTxn Db.transition
    simp [hget, hopen, enqueueDispatchEventInTxn]
  | finaliseFailed job error seconds =>
    cases hmarks
    refine ⟨row.fail db.now error (some seconds), ?_, rfl⟩
    change (BrokerParrot.finaliseFailed job error seconds db).1.jobs.get? _ = _
    unfold BrokerParrot.finaliseFailed markFailedInTxn Db.transition
    simp [hget, hopen, enqueueDispatchEventInTxn]
  | failJob target error =>
    cases hmarks
    refine ⟨row.fail db.now error none, ?_, rfl⟩
    change (failJobAndExit id error db).jobs.get? _ = _
    unfold failJobAndExit markFailedInTxn Db.transition
    simp [hget, hopen, enqueueDispatchEventInTxn]
  | parkInput | markAwaitingInput =>
    cases hmarks
    exact ⟨row.park, Db.get?_transition_of_open _ hget hopen, rfl⟩
  | markCompleted | markFailed =>
    cases hmarks
    exact ⟨_, Db.get?_transition_of_open _ hget hopen, rfl⟩
  | _ => cases hmarks

/-! ### Frames

Most operations write no other table than the node jobs. -/

structure Db.JobsOnly (db after : Db) : Prop where
  runs : after.runs = db.runs
  events : after.events = db.events
  heartbeats : after.heartbeats = db.heartbeats

theorem ClaimSql.execute_jobsOnly (sql : ClaimSql) (d : Dialect) (env : ClaimEnv) (db : Db) :
    db.JobsOnly (sql.execute d env db).1 := by
  rcases sql.execute_cases d env db with hnone | ⟨_, _, -, -, htaken⟩
  · rw [hnone]
    exact ⟨rfl, rfl, rfl⟩
  · rw [htaken]
    exact ⟨rfl, rfl, rfl⟩

theorem Db.insertOrRaise_jobsOnly (db : Db) (row : NodeJob) :
    db.JobsOnly (db.orSame (db.insertOrRaise row)) := by
  cases hinsert : db.insertOrRaise row with
  | error => exact ⟨rfl, rfl, rfl⟩
  | ok =>
    rw [(Db.insertOrRaise_ok hinsert).2]
    exact ⟨rfl, rfl, rfl⟩

theorem enqueueNodeJob_jobsOnly (spec : NodeJobSpec) (db : Db) :
    db.JobsOnly (db.orSame (enqueueNodeJob spec db)) := by
  cases hinsert : enqueueNodeJob spec db with
  | error => exact ⟨rfl, rfl, rfl⟩
  | ok =>
    obtain ⟨row, -, hrow⟩ := enqueueNodeJob_ok hinsert
    rw [← hrow]
    exact db.insertOrRaise_jobsOnly row

theorem recoverAll_jobsOnly (victims : List JobId) (db : Db) :
    db.JobsOnly (recoverAll victims db) := by
  induction victims generalizing db with
  | nil => exact ⟨rfl, rfl, rfl⟩
  | cons victim rest ih =>
    obtain ⟨hruns, hevents, hbeats⟩ := ih (requeueOverClaimedRunning victim db)
    exact ⟨hruns, hevents, hbeats⟩

theorem Db.transition_jobsOnly (db : Db) (id : JobId) (set : NodeJob → NodeJob) :
    db.JobsOnly (db.transition id set).1 := by
  rcases db.transition_cases id set with hmiss | ⟨_, -, -, hhit⟩
  · rw [hmiss]
    exact ⟨rfl, rfl, rfl⟩
  · rw [hhit]
    exact ⟨rfl, rfl, rfl⟩

def QueueOp.WritesJobs : QueueOp → Prop
  | .finaliseCompleted _ _ _ _ => False
  | .finaliseFailed _ _ _ => False
  | .failJob _ _ => False
  | .parkInput _ => False
  | .heartbeat _ _ => False
  | .writeRun _ _ => False
  | .clock _ => False
  | _ => True

theorem step_jobsOnly (d : Dialect) (db : Db) (hop : op.WritesJobs) :
    db.JobsOnly (op.step d db) := by
  cases op with
  | claimCpu args env | claimDownload args env | claimGpu args env =>
    exact ClaimSql.execute_jobsOnly _ d env db
  | enqueue spec => exact enqueueNodeJob_jobsOnly spec db
  | insertSkipped => exact db.insertOrRaise_jobsOnly _
  | reapOverClaimed => exact recoverAll_jobsOnly _ db
  | markCompleted | markFailed | markAwaitingInput => exact db.transition_jobsOnly _ _
  | restamp id serverType =>
    change db.JobsOnly (restampResolvedServer id serverType db)
    unfold restampResolvedServer
    split <;> exact ⟨rfl, rfl, rfl⟩
  | finaliseCompleted | finaliseFailed | failJob | parkInput | heartbeat | writeRun | clock =>
    exact hop.elim
  | _ => exact ⟨rfl, rfl, rfl⟩

theorem step_runs (d : Dialect) (db : Db)
    (hop : ∀ runId run, op ≠ .writeRun runId run) : (op.step d db).runs = db.runs := by
  cases op with
  | finaliseCompleted | finaliseFailed | failJob => exact (Finalises.of_step d db rfl).runs
  | parkInput job => exact (db.transition_jobsOnly job.id _).runs
  | heartbeat | clock => rfl
  | writeRun runId run => exact absurd rfl (hop runId run)
  | _ => exact (step_jobsOnly d db (by trivial)).runs

theorem step_events (d : Dialect) (db : Db) (op : QueueOp) :
    ∃ tail, (op.step d db).events = db.events ++ tail := by
  have hsame (hevents : (op.step d db).events = db.events) :
      ∃ tail, (op.step d db).events = db.events ++ tail :=
    ⟨[], hevents.trans (append_nil _).symm⟩
  cases op with
  | finaliseCompleted | finaliseFailed | failJob => exact (Finalises.of_step d db rfl).events
  | parkInput job =>
    have hevents := (db.transition_jobsOnly job.id NodeJob.park).events
    exact ⟨_, congrArg (· ++ _) hevents⟩
  | heartbeat | writeRun | clock => exact hsame rfl
  | _ => exact hsame (step_jobsOnly d db (by trivial)).events

theorem Finalises.heartbeats (hfinalises : Finalises op db after) :
    after.heartbeats = db.heartbeats := by
  rcases hfinalises with rfl | ⟨_, _, _, _, -, -, -, -, -, rfl⟩ <;> rfl

theorem step_heartbeats (d : Dialect) (db : Db)
    (hop : ∀ worker concurrency, op ≠ .heartbeat worker concurrency) :
    (op.step d db).heartbeats = db.heartbeats := by
  cases op with
  | finaliseCompleted | finaliseFailed | failJob => exact (Finalises.of_step d db rfl).heartbeats
  | parkInput job => exact (db.transition_jobsOnly job.id _).heartbeats
  | heartbeat worker concurrency => exact absurd rfl (hop worker concurrency)
  | writeRun | clock => rfl
  | _ => exact (step_jobsOnly d db (by trivial)).heartbeats

/-! ### No key comes back -/

theorem Table.Extends.of_execute (sql : ClaimSql) (d : Dialect) (env : ClaimEnv) (db : Db) :
    db.jobs.Extends (sql.execute d env db).1.jobs := by
  rcases sql.execute_cases d env db with hnone | ⟨id, row, -, -, htaken⟩
  · rw [hnone]
    exact Table.Extends.refl _
  · rw [htaken]
    exact Table.Extends.update _ _

theorem Table.Extends.of_insertOrRaise (db : Db) (row : NodeJob) :
    db.jobs.Extends (db.orSame (db.insertOrRaise row)).jobs := by
  rcases db.insertOrRaise_cases row with ⟨_, hraised⟩ | ⟨-, -, hinsert⟩
  · rw [hraised]
    exact Table.Extends.refl _
  · rw [hinsert]
    exact Table.Extends.append _ _

theorem Table.Extends.of_recoverAll (victims : List JobId) (db : Db) :
    db.jobs.Extends (recoverAll victims db).jobs := by
  induction victims generalizing db with
  | nil => exact Table.Extends.refl _
  | cons victim rest ih =>
    exact (Table.Extends.update _ _).trans (ih (requeueOverClaimedRunning victim db))

theorem Table.Extends.of_transition (db : Db) (id : JobId) (set : NodeJob → NodeJob) :
    db.jobs.Extends (db.transition id set).1.jobs := by
  rcases db.transition_cases id set with hmiss | ⟨row, -, -, hhit⟩
  · rw [hmiss]
    exact Table.Extends.refl _
  · rw [hhit]
    exact Table.Extends.update _ _

theorem step_extends (d : Dialect) (db : Db) (op : QueueOp) :
    db.jobs.Extends (op.step d db).jobs := by
  cases op with
  | claimCpu args env | claimDownload args env | claimGpu args env =>
    exact Table.Extends.of_execute _ d env db
  | enqueue spec =>
    change db.jobs.Extends (db.orSame (enqueueNodeJob spec db)).jobs
    unfold enqueueNodeJob
    cases spec.row db.now with
    | error => exact Table.Extends.refl _
    | ok row => exact Table.Extends.of_insertOrRaise db row
  | insertSkipped => exact Table.Extends.of_insertOrRaise db _
  | reapOverClaimed => exact Table.Extends.of_recoverAll _ db
  | finaliseCompleted | finaliseFailed | failJob => exact (Finalises.of_step d db rfl).extends_jobs
  | parkInput | markFailed | markAwaitingInput => exact Table.Extends.of_transition db _ _
  | markCompleted => exact Table.Extends.of_transition db _ _
  | restamp target serverType =>
    change db.jobs.Extends (restampResolvedServer target serverType db).jobs
    unfold restampResolvedServer
    split
    · exact Table.Extends.refl _
    · exact Table.Extends.update _ _
  | deleteNonTerminalForRun => exact Table.Extends.filter _ _
  | heartbeat | writeRun | clock => exact Table.Extends.refl _
  | _ => exact Table.Extends.update _ _

theorem step_sameCell {after : NodeJob}
    (hget : db.jobs.get? id = some row) (hafter : (op.step d db).jobs.get? id = some after) :
    row.SameCell after := by
  have hstep := step_row d db op id
  rw [hget, hafter] at hstep
  cases hstep with
  | same => exact NodeJob.SameCell.rfl
  | take => exact ⟨rfl, rfl, rfl, rfl, rfl⟩
  | leave _ _ hcell | finish _ _ hcell | cancel _ _ hcell | edit _ _ _ _ hcell => exact hcell

structure IssuedTo (id : JobId) (runId nodeId : String) (db : Db) : Prop where
  issued : id < db.jobs.nextKey
  cell : ∀ row, db.jobs.get? id = some row → row.runId = runId ∧ row.nodeId = nodeId

theorem IssuedTo.of_get?
    (hrow : db.jobs.get? id = some row) : IssuedTo id row.runId row.nodeId db where
  issued := Table.lt_nextKey hrow
  cell := fun other hother => by
    obtain rfl := Option.mem_unique hrow hother
    exact ⟨rfl, rfl⟩

theorem IssuedTo.step {nodeId : String} (hissued : IssuedTo id runId nodeId db) (op : QueueOp) :
    IssuedTo id runId nodeId (op.step d db) where
  issued := Nat.lt_of_lt_of_le hissued.issued (step_extends d db op).nextKey_le
  cell := fun after hafter => by
    cases hget : db.jobs.get? id with
    | none =>
      have hgone := (step_extends d db op).gone id hissued.issued hget
      rw [hgone] at hafter
      cases hafter
    | some row =>
      have hsame := step_sameCell hget hafter
      rw [hsame.runId, hsame.nodeId]
      exact hissued.cell row hget

theorem QueueOp.run_append (d : Dialect) (db : Db) (before after : List QueueOp) :
    QueueOp.run d db (before ++ after) = QueueOp.run d (QueueOp.run d db before) after :=
  foldl_append

theorem QueueOp.run_invariant {history : List QueueOp} (Inv : Db → Prop)
    (hstart : Inv db) (hstep : ∀ db op, op ∈ history → Inv db → Inv (op.step d db)) :
    Inv (QueueOp.run d db history) :=
  List.foldlRecOn history (QueueOp.step d) hstart fun db hinv op hmem => hstep db op hmem hinv

/-- **No job is lost** unless its run is reset, and none becomes that of another node. -/
theorem job_never_lost {history : List QueueOp} (hrow : db.jobs.get? id = some row)
    (hkeeps : .deleteNonTerminalForRun row.runId ∉ history) :
    ∃ later, (QueueOp.run d db history).jobs.get? id = some later ∧
      later.runId = row.runId ∧ later.nodeId = row.nodeId := by
  induction history generalizing db row with
  | nil => exact ⟨row, hrow, rfl, rfl⟩
  | cons op rest ih =>
    have hstep := step_row d db op id
    cases hnext : (op.step d db).jobs.get? id with
    | none =>
      rw [hrow, hnext] at hstep
      cases hstep with
      | delete hreset => exact absurd (hreset ▸ mem_cons_self) hkeeps
    | some next =>
      have hcell := step_sameCell hrow hnext
      rw [← hcell.runId, mem_cons, not_or] at hkeeps
      rw [← hcell.runId, ← hcell.nodeId]
      exact ih hnext hkeeps.2

/-- The row is claimed, given back when its lease has expired, claimed again and completed. -/
theorem job_never_lost_retried :
    let row : NodeJob :=
      { runId := "r", nodeId := "a", nodeModule := "m", queue := .cpu, project := "",
        status := .queued, createdAt := 0 }
    let db : Db :=
      { jobs := .ofRows [row]
        runs := OrdDict.empty.insert "r" { workflowName := "w", status := .running } }
    let claim (host : String) : QueueOp := .claimCpu { host := some host } {}
    let history : List QueueOp :=
      [claim "x", .clock 10000, .reclaimExpiredLeases, claim "y", .markCompleted 0 [] 1 none]
    ∃ later, (QueueOp.run .pg db history).jobs.get? 0 = some later ∧
      later.status = .completed ∧ later.claimedBy = some "y" ∧
      later.runId = row.runId ∧ later.nodeId = row.nodeId := by
  intro row db claim history
  have hrow : db.jobs.get? 0 = some row := rfl
  have hkeeps : .deleteNonTerminalForRun row.runId ∉ history := by simp [history, claim]
  obtain ⟨later, hget, hcell⟩ := job_never_lost (d := .pg) hrow hkeeps
  have hend : ((QueueOp.run .pg db history).jobs.get? 0).map
      (fun later => (later.status, later.claimedBy)) = some (.completed, some "y") := by
    decide +kernel
  rw [hget] at hend
  exact ⟨later, hget, by simp_all, by simp_all, hcell⟩

end BrokerParrot
