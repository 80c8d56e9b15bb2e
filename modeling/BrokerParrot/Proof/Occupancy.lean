import BrokerParrot.Proof.RowSteps

/-!
# What runs on a host

Both arbiters of the gpu claim count the rows that run on a host for a project. Only a claim of that
host and project adds to them, and it adds one row; every other operation can only take rows away.
-/

namespace BrokerParrot

section

variable {β : Type} (host project : String) (attr : NodeJob → β)

def occupant (row : NodeJob) : Option β :=
  if RunningHere (some host) project row then some (attr row) else none

def occupants (db : Db) : List β := db.jobs.collect fun _ => occupant host project attr

variable {host project attr} {d : Dialect} {db : Db} {op : QueueOp} {row : NodeJob} {id : JobId}
  {before : Option NodeJob}

theorem runningHere_iff :
    RunningHere (some host) project row ↔
      row.status = .running ∧ row.queue = .gpu ∧ row.claimedBy = some host ∧
        row.project = project := by
  unfold RunningHere
  rw [Tri.holds_eq]
  constructor
  · rintro ⟨hstatus, hqueue, ⟨hclaim, -⟩, hproject⟩
    exact ⟨hstatus, hqueue, hclaim, hproject⟩
  · rintro ⟨hstatus, hqueue, hclaim, hproject⟩
    exact ⟨hstatus, hqueue, ⟨hclaim, by simp [hclaim]⟩, hproject⟩

theorem map_runningHere (db : Db) :
    (runningHere db (some host) project).map attr = occupants host project attr db := by
  unfold runningHere occupants
  rw [Table.map_collect]
  congr 1
  funext id row
  unfold occupant
  split <;> rfl

theorem occupant_eq_some {item : β} :
    occupant host project attr row = some item ↔
      RunningHere (some host) project row ∧ attr row = item := by
  unfold occupant
  split <;> simp [*]

theorem occupant_of_not_running (hstatus : row.status ≠ .running) :
    occupant host project attr row = none :=
  if_neg fun hhere => hstatus hhere.1

theorem QueueOp.marks_ne_running {status : JobStatus} (hmarks : op.marks = some (id, status)) :
    status ≠ .running := by
  rintro rfl
  cases op <;> simp [QueueOp.marks] at hmarks

theorem RowStep.running_cases {after : NodeJob} (hstep : RowStep d op id before (some after))
    (hrunning : after.status = .running) :
    (∃ row, before = some row ∧ row.status = .running ∧ after.claimedBy = row.claimedBy ∧
        after.gpuSlots = row.gpuSlots ∧
        (after.resolvedServer = row.resolvedServer ∨ op.restamps = some id) ∧ row.SameCell after) ∨
      ∃ sql, op.claimSql d = some sql ∧ after.queue = sql.queue ∧ after.project = sql.project ∧
        after.claimedBy = sql.host := by
  cases hstep with
  | same => exact Or.inl ⟨after, rfl, hrunning, rfl, rfl, Or.inl rfl, .rfl⟩
  | insert _ _ hstatus | leave _ hstatus =>
    rcases hstatus with hstatus | hstatus <;> exact absurd hrunning (by simp [hstatus])
  | take now hsql hstatus hqueue hproject => exact Or.inr ⟨_, hsql, hqueue, hproject, rfl⟩
  | finish hmarks => exact absurd hrunning (QueueOp.marks_ne_running hmarks)
  | cancel _ hstatus => exact absurd hrunning (by simp [hstatus])
  | edit hstatus hclaimed hslots hstamp hcell =>
    exact Or.inl ⟨_, rfl, hstatus ▸ hrunning, hclaimed, hslots, hstamp, hcell⟩

def QueueOp.ClaimsHere (host project : String) (op : QueueOp) : Prop :=
  ∃ args env, op = .claimGpu args env ∧ args.host = some host ∧ args.project = project

def QueueOp.Respects (op : QueueOp) (attr : NodeJob → β) : Prop :=
  ∀ row after : NodeJob, after.gpuSlots = row.gpuSlots →
    (after.resolvedServer = row.resolvedServer ∨ op.restamps ≠ none) → attr after = attr row

theorem RowStep.occupant_of_after {after : Option NodeJob} {item : β}
    (hstep : RowStep d op id before after) (hattr : op.Respects attr)
    (hclaim : ¬ op.ClaimsHere host project)
    (hitem : after.bind (occupant host project attr) = some item) :
    before.bind (occupant host project attr) = some item := by
  obtain ⟨shown, rfl, hshown⟩ := Option.bind_eq_some_iff.mp hitem
  obtain ⟨hhere, hvalue⟩ := occupant_eq_some.mp hshown
  obtain ⟨hrunning, hgpu, hhost, hproj⟩ := runningHere_iff.mp hhere
  rcases hstep.running_cases hrunning with
    ⟨row, rfl, hbefore, hclaimed, hslots, hstamp, hcell⟩ | ⟨sql, hsql, hqueue, hproject, hclaimed⟩
  · refine occupant_eq_some.mpr ⟨runningHere_iff.mpr ?_, ?_⟩
    · exact ⟨hbefore, hcell.queue ▸ hgpu, hclaimed ▸ hhost, hcell.project ▸ hproj⟩
    · rw [← hvalue]
      refine (hattr _ _ hslots (hstamp.imp_right ?_)).symm
      intro hrestamps
      simp [hrestamps]
  · refine absurd ?_ hclaim
    -- Of the three claims only the gpu one leaves a gpu row running.
    cases op <;> simp only [QueueOp.claimSql, Option.some.injEq, reduceCtorEq] at hsql
    case claimCpu args env =>
      subst hsql
      cases hqueue.symm.trans hgpu
    case claimDownload args env =>
      subst hsql
      cases hqueue.symm.trans hgpu
    case claimGpu args env =>
      subst hsql
      exact ⟨args, env, rfl, hclaimed.symm.trans hhost, hproject.symm.trans hproj⟩

theorem occupants_subperm (hattr : op.Respects attr) (hclaim : ¬ op.ClaimsHere host project) :
    (occupants host project attr (op.step d db)).Subperm (occupants host project attr db) :=
  Table.collect_subperm fun id _ hitem =>
    (step_row d db op id).occupant_of_after hattr hclaim hitem

theorem occupants_claim (attr : NodeJob → β) (d : Dialect) (db : Db) {args : GpuClaim}
    (env : ClaimEnv) (hhost : args.host = some host) (hproject : args.project = project) :
    occupants host project attr (claimNextGpuJob d args env db).1 =
        occupants host project attr db ∨
      ∃ row, (args.capability d db row).Holds ∧
        (occupants host project attr (claimNextGpuJob d args env db).1).Perm
          (attr ((args.sql d).take db.now row) :: occupants host project attr db) := by
  unfold claimNextGpuJob
  rcases (args.sql d).execute_cases d env db with hnone | ⟨id, row, hget, hholds, htaken⟩
  · rw [hnone]
    exact Or.inl rfl
  · rw [htaken]
    obtain ⟨hqueue, hstatus, hrowProject, -, -, hcapability⟩ := ClaimSql.eligible_holds.mp hholds
    refine Or.inr ⟨row, hcapability, Table.collect_perm_cons id ?_ ?_ ?_⟩
    · unfold Table.seen
      rw [hget, Option.bind_some]
      exact occupant_of_not_running (by simp [hstatus])
    · unfold Table.seen
      rw [Table.get?_modify_self, hget, Option.map_some, Option.bind_some]
      refine occupant_eq_some.mpr ⟨runningHere_iff.mpr ⟨rfl, hqueue, hhost, ?_⟩, rfl⟩
      exact hrowProject.trans hproject
    · intro other hne
      unfold Table.seen
      rw [Table.get?_modify_of_ne _ _ hne]

end

end BrokerParrot
