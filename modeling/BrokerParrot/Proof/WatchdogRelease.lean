import BrokerParrot.Watchdog
import BrokerParrot.Proof.DisplacedWorker
import BrokerParrot.Proof.Occupancy

/-!
# What a tripping worker releases

The worker's siblings share its host label, so only the start time tells its claim from theirs. Read
backwards: a row that runs with that start time was so before every operation that is not a claim
with the same time, and the isolation of the transaction carries the comparison over to the update.
-/

namespace BrokerParrot

open List

variable {d : Dialect}

def UnderClaim (host : String) (startedAt : ℚ) (id : JobId) (db : Db) : Prop :=
  ∃ row ∈ db.jobs.get? id, row.status = .running ∧ row.claimedBy = some host ∧
    row.startedAt = some startedAt

/-- A worker claims a row, things happen, and the worker releases what it believes it holds. No
other claim of the row under its label has the same start time. -/
structure WorkerRelease (d : Dialect) where
  start : Db
  claim : QueueOp
  history : List QueueOp
  txn : ReleaseTxn
  takes : claim.Takes d txn.worker.hostLabel txn.id start
  returned : ∀ row ∈ (claim.step d start).jobs.get? txn.id, row.startedAt = some txn.startedAt
  fresh : ∀ before op, before ++ [op] <+: history ++ txn.between →
    op.Takes d txn.worker.hostLabel txn.id (QueueOp.run d (claim.step d start) before) →
      ∀ row ∈ (QueueOp.run d (claim.step d start) (before ++ [op])).jobs.get? txn.id,
        row.startedAt ≠ some txn.startedAt
  isolated : txn.Isolated d (QueueOp.run d (claim.step d start) history)

namespace WorkerRelease

def after (release : WorkerRelease d) (ops : List QueueOp) : Db :=
  QueueOp.run d (release.claim.step d release.start) ops

def Requeues (release : WorkerRelease d) : Prop :=
  (release.txn.exec d (release.after release.history)).jobs.get? release.txn.id ≠
    (release.after (release.history ++ release.txn.between)).jobs.get? release.txn.id

end WorkerRelease

section

variable {host : String} {startedAt : ℚ} {id : JobId} {db : Db}

theorem UnderClaim.before_step {op : QueueOp}
    (hfresh : op.Takes d host id db →
      ∀ row ∈ (op.step d db).jobs.get? id, row.startedAt ≠ some startedAt)
    (hunder : UnderClaim host startedAt id (op.step d db)) : UnderClaim host startedAt id db := by
  obtain ⟨after, hafter, hrunning, hclaim, hstarted⟩ := hunder
  have hstep := step_row d db op id
  rw [hafter] at hstep
  generalize hbefore : db.jobs.get? id = before at hstep
  cases hstep with
  | same => exact ⟨after, hbefore, hrunning, hclaim, hstarted⟩
  | insert _ _ hstatus =>
    rcases hstatus with hstatus | hstatus <;>
      cases hstatus.symm.trans hrunning
  | take now hsql hqueued =>
    refine absurd hstarted (hfresh ⟨by rw [hsql]; rfl, ?_, ?_⟩ _ hafter)
    · rw [hbefore, Option.map_some, hqueued]
    · exact ⟨_, hafter, hrunning, hclaim⟩
  | leave _ hleft =>
    rcases hleft with hleft | hleft <;> exact absurd (hleft.symm.trans hrunning) (by decide)
  | finish hmarks => exact absurd hrunning (QueueOp.marks_ne_running hmarks)
  | cancel _ hstatus => cases hstatus.symm.trans hrunning
  | @edit row _ hstatus hsame _ _ _ hstart =>
    exact ⟨row, hbefore, hstatus.symm.trans hrunning, hsame.symm.trans hclaim,
      hstart.symm.trans hstarted⟩

theorem UnderClaim.before_run {ops : List QueueOp}
    (hfresh : ∀ before op, before ++ [op] <+: ops → op.Takes d host id (QueueOp.run d db before) →
      ∀ row ∈ (QueueOp.run d db (before ++ [op])).jobs.get? id, row.startedAt ≠ some startedAt)
    (hunder : UnderClaim host startedAt id (QueueOp.run d db ops)) :
    ∀ before, before <+: ops → UnderClaim host startedAt id (QueueOp.run d db before) := by
  induction ops using List.reverseRecOn with
  | nil =>
    intro before hinit
    rwa [prefix_nil.mp hinit]
  | append_singleton ops op ih =>
    intro before hinit
    rcases prefix_concat_iff.mp hinit with rfl | hinit
    · exact hunder
    have hlast := hfresh ops op (prefix_refl _)
    rw [QueueOp.run_append] at hunder hlast
    refine ih ?_ (hunder.before_step hlast) before hinit
    exact fun earlier op hearlier => hfresh earlier op (hearlier.trans (prefix_append _ _))

end

theorem ReleaseTxn.Isolated.get? {txn : ReleaseTxn} {db : Db} (hisolated : txn.Isolated d db)
    (hfound : txn.found db) (hraises : txn.raises = false) {before : List QueueOp}
    (hinit : before <+: txn.between) :
    (QueueOp.run d db before).jobs.get? txn.id = db.jobs.get? txn.id := by
  have hsame := hisolated hfound hraises before hinit
  cases d with
  | pg => exact hsame
  | sqlite => exact congrArg (·.get? txn.id) hsame

/-- **A trip releases its own claims.** If the release changes the row, the row has been running
under that claim from the claim to the update. -/
theorem release_only_own_claim {d : Dialect} (release : WorkerRelease d)
    (hrequeues : release.Requeues) :
    ∀ before, before <+: release.history ++ release.txn.between →
      UnderClaim release.txn.worker.hostLabel release.txn.startedAt release.txn.id
        (release.after before) := by
  have hgoes : release.txn.found (release.after release.history) ∧ release.txn.raises = false := by
    by_contra hnot
    refine hrequeues ?_
    rw [ReleaseTxn.exec, if_neg hnot, WorkerRelease.after, WorkerRelease.after,
      QueueOp.run_append]
  have hnow : UnderClaim release.txn.worker.hostLabel release.txn.startedAt release.txn.id
      (release.after release.history) := by
    obtain ⟨row, hget, hmatch⟩ := (Option.any_eq_true _ _).mp hgoes.1
    obtain ⟨hrunning, howned, hstarted⟩ := of_decide_eq_true hmatch
    exact ⟨row, hget, hrunning, howned.1, hstarted⟩
  intro before hinit
  rcases prefix_or_prefix_of_prefix hinit (prefix_append _ _) with hearly | hlate
  · refine hnow.before_run (fun earlier op hearlier => ?_) before hearly
    exact release.fresh earlier op (hearlier.trans (prefix_append _ _))
  · -- Between the two statements the row is what the first one saw.
    obtain ⟨rest, rfl⟩ := hlate
    have hsame := release.isolated.get? hgoes.1 hgoes.2
      ((prefix_append_right_inj release.history).mp hinit)
    rw [← QueueOp.run_append] at hsame
    obtain ⟨row, hget, hclaim⟩ := hnow
    exact ⟨row, hsame.trans hget, hclaim⟩

def renewedRelease : WorkerRelease .pg where
  start := { oneQueued with now := 7 }
  claim := .claimCpu { host := some "box" } {}
  history := [.clock 20, .renewLease 0 "box" 60]
  txn := ⟨0, ⟨"box", .cpu, ""⟩, 7, [], false⟩
  takes := ⟨rfl, by decide +kernel, by decide +kernel⟩
  returned := by decide +kernel
  fresh before op hinit htakes := by
    have hop : op ∈ [QueueOp.clock 20, .renewLease 0 "box" 60] := hinit.subset (by simp)
    rcases List.mem_pair.mp hop with rfl | rfl <;> exact nomatch htakes.isClaim
  isolated _ _ before hinit := by rw [List.prefix_nil.mp hinit]; rfl

theorem release_only_own_claim_renewed :
    renewedRelease.Requeues ∧
      UnderClaim "box" 7 0 (renewedRelease.after renewedRelease.history) := by
  have hrequeues : renewedRelease.Requeues := by
    intro hsame
    exact absurd (congrArg (Option.map NodeJob.status) hsame) (by decide +kernel)
  exact ⟨hrequeues, release_only_own_claim renewedRelease hrequeues _ (prefix_append _ _)⟩

end BrokerParrot
