import BrokerParrot.NodePool
import BrokerParrot.Proof.Reconcile

/-!
# The reconciler and failures that wait in the outbox

A worker that fails marks its row and leaves an event in one transaction; the run is failed when the
orchestrator drains the event. A reconciliation that finds nothing ready there drops the failed row,
and the late event fails the run while the node is on its way again.
-/

namespace BrokerParrot

open Prog

variable {runId : String} {row : NodeJob} {s t : PoolDb}

def PoolDb.FailurePending (runId node : String) (state : PoolDb) : Prop :=
  ∃ index event, state.db.events[index]? = some event ∧ event.runId = runId ∧
    event.nodeId = node ∧ event.kind = .failed ∧ (state.marks index).processed = false

def PoolDb.Unhandled (row : NodeJob) (state : PoolDb) : Prop :=
  row.status = .failed ∧ state.FailurePending row.runId row.nodeId

def RespectsFailures (s t : PoolDb) : Prop :=
  ∀ id row, s.db.jobs.get? id = some row → s.Unhandled row → t.db.jobs.get? id = some row

def NoFailureReported (runId : String) (s t : PoolDb) : Prop :=
  ∀ node, t.FailurePending runId node → s.FailurePending runId node

def Wedged (host : Host) (runId : String) (db : Db) : Prop :=
  ∃ run workflow nodes, db.runs.get? runId = some run ∧ ¬ run.status.Terminal ∧ db.Idle runId ∧
    host.loadWorkflow run.workflowName = .ok workflow ∧
    nodesOf host workflow run.outDir = .ok nodes ∧
    allSettled (db.listJobsForRun runId) nodes = false ∧
    findReadyNodes (db.listJobsForRun runId) nodes = []

/-! ### The statements of a reconciliation -/

structure SparesOthers (runId : String) (s t : Db) : Prop where
  rows : ∀ id row, s.jobs.get? id = some row → row.runId ≠ runId → t.jobs.get? id = some row
  keys : s.jobs.Extends t.jobs
  events : t.events = s.events

namespace SparesOthers

variable {s t u : Db}

theorem of_jobs (hjobs : t.jobs = s.jobs) (hevents : t.events = s.events) :
    SparesOthers runId s t := by
  refine ⟨fun id row hget _ => ?_, ?_, hevents⟩
  · rwa [hjobs]
  · rw [hjobs]
    exact Table.Extends.refl _

theorem trans (hst : SparesOthers runId s t) (htu : SparesOthers runId t u) :
    SparesOthers runId s u where
  rows := fun id row hget hrun => htu.rows id row (hst.rows id row hget hrun) hrun
  keys := hst.keys.trans htu.keys
  events := htu.events.trans hst.events

theorem of_insert (hinsert : s.insertOrRaise row = .ok t) : SparesOthers runId s t := by
  refine ⟨fun id found hget _ => Db.get?_of_insertOrRaise hinsert hget, ?_, ?_⟩
  · rw [(Db.insertOrRaise_ok hinsert).2]
    exact Table.Extends.append _ _
  · rw [(Db.insertOrRaise_ok hinsert).2]

theorem of_delete (runId : String) (s : Db) :
    SparesOthers runId s (deleteNonTerminalJobsForRun runId s).1 where
  rows := by
    intro id row hget hrun
    refine (Table.get?_filter _ _ id).trans ?_
    rw [hget, Option.filter_some, if_pos]
    simp [hrun]
  keys := Table.Extends.filter _ _
  events := rfl

end SparesOthers

theorem reconcileRun_sparesOthers (host : Host) (rounds : ℕ) (runId : String) :
    (reconcileRun host rounds runId).Moves (SparesOthers runId) :=
  (reconcileRun_movesTo (fun _ => .of_jobs rfl rfl) (fun _ _ _ => .of_insert)
    (fun _ _ _ => .of_jobs rfl rfl) (.of_delete runId) rounds).moves (fun _ _ => id) fun _ _ => id

def OwnMove (runId : String) (s t : PoolDb) : Prop :=
  SparesOthers runId s.db t.db ∧ t.marks = s.marks

theorem OwnMove.failurePending (hown : OwnMove runId s t) (other node : String) :
    t.FailurePending other node ↔ s.FailurePending other node := by
  unfold PoolDb.FailurePending
  rw [hown.1.events, hown.2]

theorem OwnMove.respects (hnone : ∀ node, ¬ s.FailurePending runId node)
    (hown : OwnMove runId s t) : RespectsFailures s t := by
  rintro id row hget ⟨-, hpending⟩
  refine hown.1.rows id row hget fun hrun => ?_
  exact hnone row.nodeId (hrun ▸ hpending)

theorem respectsFailures_of_acts {rest : PoolProg ReconcileTag}
    (hmoves : rest.Moves (OwnMove runId)) {u : PoolDb}
    (hnone : ∀ node, ¬ s.FailurePending runId node)
    (hacts : rest.Acts (NoFailureReported runId) s t u) : RespectsFailures t u := by
  have hstable : Stable (NoFailureReported runId) fun state : PoolDb =>
      ∀ node, ¬ state.FailurePending runId node :=
    fun _ _ hmove hthen node hpending => hthen node (hmove node hpending)
  have hown : Stable (OwnMove runId) fun state : PoolDb =>
      ∀ node, ¬ state.FailurePending runId node :=
    fun _ _ hmove hthen node hpending => hthen node ((hmove.failurePending runId node).mp hpending)
  exact (Safe.of_moves hmoves (fun _ _ => OwnMove.respects) hstable hown hnone).of_acts hacts

/-- A call that finds a live row is over. -/
theorem ended_of_live {host : Host} {rounds : ℕ} (start : Db) {rows : Db}
    (hlive : ¬ rows.Idle runId) :
    (((reconcileRun host rounds runId).advance start).2.advance rows).2.ended = true := by
  have hread {α β : Type} (look : Db → α) (next : α → DbProg β) (db : Db) :
      ((Prog.read look >>= next).advance db).2 = next (look db) := rfl
  have hany : ((rows.listJobsForRun runId).any fun entry => entry.2.status.Live) = true := by
    simpa [Db.Idle] using hlive
  unfold reconcileRun getRun jobsByNodeId
  rw [hread]
  cases start.runs.get? runId with
  | none => rfl
  | some run =>
    dsimp only
    split
    · rfl
    · rw [hread, if_pos hany]
      rfl

/-! ### A reconciliation with nothing in between -/

section

variable {host : Host} {run : Run} {workflow : Workflow} {nodes : List DagNode} {rounds : ℕ}
  {s : Db} {id : JobId}

theorem get?_left_reopen (hnodes : nodesOf host workflow run.outDir = .ok nodes)
    (hrounds : nodes.length < rounds) (hready : findReadyNodes (s.listJobsForRun runId) nodes = [])
    (hget : s.jobs.get? id = some row) (hrun : row.runId = runId) (hstatus : row.status = .failed) :
    ((reopen host rounds runId workflow run).left s).jobs.get? id = none := by
  obtain ⟨more, rfl⟩ := Nat.exists_eq_add_of_lt hrounds
  have hgone : (deleteNonTerminalJobsForRun runId s).1.jobs.get? id = none := by
    refine (Table.get?_filter _ _ id).trans ?_
    rw [hget, Option.filter_some, if_neg]
    simp [hrun, hstatus]
  have hkeeps : ∀ prog : DbProg ReconcileTag, prog.Moves (SparesOthers runId) →
      (prog.left (deleteNonTerminalJobsForRun runId s).1).jobs.get? id = none := by
    intro prog hprog
    have hleft := hprog.left (fun _ => .of_jobs rfl rfl) (fun _ _ _ => .trans)
      (deleteNonTerminalJobsForRun runId s).1
    have hissued : id < s.jobs.nextKey := Table.lt_nextKey hget
    exact hleft.keys.gone id hissued hgone
  unfold reopen
  rw [left_bind_of_ok (alone_processReady_of_none hnodes hready _ 0),
    if_neg (Nat.lt_irrefl 0)]
  refine hkeeps (if (deleteNonTerminalJobsForRun runId s).2 ≠ [] then _ else _) ?_
  have hwrite {set : Db → Run → Run} {tag : ReconcileTag} :
      (Prog.write (fun db => db.updateRun runId (set db)) >>= fun _ =>
        (pure tag : DbProg ReconcileTag)).Moves (SparesOthers runId) :=
    (Moves.write fun s => .of_jobs rfl rfl).bind fun _ => trivial
  split
  · refine (processReady_inserts (fun _ => .of_jobs rfl rfl) (fun _ _ _ => .of_insert) _ _ _).bind
      fun requeued => ?_
    split
    · exact hwrite
    · exact hwrite
  · exact hwrite

variable (hrounds : ∀ run workflow nodes, s.runs.get? runId = some run →
  host.loadWorkflow run.workflowName = .ok workflow →
  nodesOf host workflow run.outDir = .ok nodes → nodes.length < rounds)

include hrounds

theorem get?_left_of_wedged (hwedged : Wedged host runId s) (hget : s.jobs.get? id = some row)
    (hrun : row.runId = runId) (hstatus : row.status = .failed) :
    ((reconcileRun host rounds runId).left s).jobs.get? id = none := by
  obtain ⟨run, workflow, nodes, hfound, hactive, hidle, hload, hnodes, hopen, hready⟩ := hwedged
  have henough := hrounds run workflow nodes hfound hload hnodes
  obtain ⟨result, t, halone, -⟩ := alone_reopen_of_none hfound hnodes henough hready
  have hwhole : (reconcileRun host rounds runId).alone s = _ :=
    alone_reconcileRun hfound hactive hidle hload hnodes
  rw [hopen, if_neg (by decide), halone] at hwhole
  rw [left_of_alone hwhole, ← left_of_alone halone]
  exact get?_left_reopen hnodes henough hready hget hrun hstatus

theorem get?_left_of_not_wedged (hfree : ¬ Wedged host runId s)
    (hget : s.jobs.get? id = some row) :
    ((reconcileRun host rounds runId).left s).jobs.get? id = some row := by
  rcases alone_reconcileRun_cases host rounds runId s with ⟨result, halone⟩ |
    ⟨run, workflow, nodes, hfound, hactive, hidle, hload, hnodes⟩
  · rwa [left_of_alone halone]
  have hwhole : (reconcileRun host rounds runId).alone s = _ :=
    alone_reconcileRun hfound hactive hidle hload hnodes
  cases hsettled : allSettled (s.listJobsForRun runId) nodes with
  | true =>
    rw [hsettled, if_pos rfl] at hwhole
    rwa [left_of_alone hwhole]
  | false =>
    have hready : findReadyNodes (s.listJobsForRun runId) nodes ≠ [] := fun hnone =>
      hfree ⟨run, workflow, nodes, hfound, hactive, hidle, hload, hnodes, hsettled, hnone⟩
    obtain ⟨result, t, halone, hrows, -⟩ := alone_reopen_of_ready hfound hidle hnodes
      (hrounds run workflow nodes hfound hload hnodes) hready
    rw [hsettled, if_neg (by decide), halone] at hwhole
    rw [left_of_alone hwhole]
    exact hrows id row hget

end

/-- **Pending failures and the reconciler.** Alone, a call leaves every failed row whose event waits
exactly when a wedged run has none. Among others it does when no failure waits where it reads the
rows and finds none live, and none is reported from there on. -/
theorem reconcile_respects_failures_iff (host : Host) (rounds : ℕ) (runId : String) :
    (∀ state : PoolDb,
      (∀ run workflow nodes, state.db.runs.get? runId = some run →
        host.loadWorkflow run.workflowName = .ok workflow →
        nodesOf host workflow run.outDir = .ok nodes → nodes.length < rounds) →
      (RespectsFailures state (((reconcileRun host rounds runId).zoom PoolDb.engine).left state) ↔
        (Wedged host runId state.db → ∀ id row, state.db.jobs.get? id = some row →
          row.runId = runId → ¬ state.Unhandled row))) ∧
    ∀ start rows t u : PoolDb,
      (rows.db.Idle runId → ∀ node, ¬ rows.FailurePending runId node) →
      Prog.Acts (NoFailureReported runId)
        (((((reconcileRun host rounds runId).zoom PoolDb.engine).advance start).2.advance rows).2)
        rows t u →
      RespectsFailures t u := by
  refine ⟨fun state hrounds => ⟨?_, ?_⟩, fun start rows t u hnone hacts => ?_⟩
  · intro hrespects hwedged id row hget hrun hunhandled
    have hkept := hrespects id row hget hunhandled
    rw [left_zoom] at hkept
    have hgone := get?_left_of_wedged hrounds hwedged hget hrun hunhandled.1
    cases hgone.symm.trans hkept
  · intro hcondition id row hget hunhandled
    rw [left_zoom]
    by_cases hwedged : Wedged host runId state.db
    · have hother : row.runId ≠ runId := fun hrun =>
        hcondition hwedged id row hget hrun hunhandled
      have hleft := (reconcileRun_sparesOthers host rounds runId).left (fun _ => .of_jobs rfl rfl)
        (fun _ _ _ => .trans) state.db
      exact hleft.rows id row hget hother
    · exact get?_left_of_not_wedged hrounds hwedged hget
  · have hmoves : ((reconcileRun host rounds runId).zoom PoolDb.engine).Moves (OwnMove runId) :=
      (reconcileRun_sparesOthers host rounds runId).zoom fun _ _ hspares => ⟨hspares, rfl⟩
    by_cases hidle : rows.db.Idle runId
    · exact respectsFailures_of_acts ((hmoves.advance start).advance rows) (hnone hidle) hacts
    · have hended : ((((reconcileRun host rounds runId).advance start.db).2.advance
        rows.db).2).ended = true := ended_of_live start.db hidle
      rw [advance_zoom, advance_zoom] at hacts
      change Acts _ ((((reconcileRun host rounds runId).advance start.db).2.advance
        rows.db).2.zoom PoolDb.engine) _ _ _ at hacts
      cases hprog : (((reconcileRun host rounds runId).advance start.db).2.advance rows.db).2 with
      | ret | raise =>
        rw [hprog] at hacts
        cases hacts
      | stmt | hang =>
        rw [hprog] at hended
        cases hended

def oneNodeHost : Host where
  loadWorkflow := fun _ => .ok ⟨[{ id := "s", kind := .pipeline "p" [] }]⟩
  pipelineSchema := fun _ => .ok ⟨[{ id := "n" }]⟩
  resolveRef := fun value _ => .ok value

def justFailed : PoolDb :=
  let row (runId : String) (status : JobStatus) : NodeJob :=
    { runId := runId, nodeId := "s/n", nodeModule := "m", queue := .cpu, project := "",
      status := status, createdAt := 0 }
  let before : Db :=
    { jobs := Table.ofRows [row "r" .cancelled, row "q" .running]
      runs := (OrdDict.empty.insert "r" { workflowName := "w", status := .running }).insert "q"
        { workflowName := "w", status := .running } }
  { db := (finaliseFailed ⟨1, row "q" .running⟩ "boom" 1 before).1 }

def twoNodeHost : Host :=
  { oneNodeHost with pipelineSchema := fun _ => .ok ⟨[{ id := "n" }, { id := "m" }]⟩ }

/-- Another node of the run is ready, so the failed row stays while its event waits; and once the
event is processed, the sweep may go on to the row. -/
theorem reconcile_respects_failures_iff_ready :
    ∃ row, justFailed.db.jobs.get? 1 = some row ∧ row.runId = "q" ∧ justFailed.Unhandled row ∧
      (((reconcileRun twoNodeHost 3 "q").zoom PoolDb.engine).left justFailed).db.jobs.get? 1 =
        some row ∧
      let handled : PoolDb := { justFailed with marks := fun _ => { processed := true } }
      ∃ t u, RespectsFailures t u ∧ Prog.Acts (NoFailureReported "q")
        (((((reconcileRun twoNodeHost 3 "q").zoom PoolDb.engine).advance handled).2.advance
          handled).2) handled t u := by
  obtain ⟨halone, hamong⟩ := reconcile_respects_failures_iff twoNodeHost 3 "q"
  have hevents : justFailed.db.events = [⟨"q", "s/n", .failed⟩] := by decide +kernel
  obtain ⟨row, hget, hstatus, hcell⟩ : ∃ row, justFailed.db.jobs.get? 1 = some row ∧
      row.status = .failed ∧ "q" = row.runId ∧ "s/n" = row.nodeId := ⟨_, rfl, rfl, rfl, rfl⟩
  have hunhandled : justFailed.Unhandled row :=
    ⟨hstatus, 0, ⟨"q", "s/n", .failed⟩, by rw [hevents]; rfl, hcell.1, hcell.2, rfl, rfl⟩
  refine ⟨row, hget, hcell.1.symm, hunhandled, ?_, ?_⟩
  · refine (halone justFailed ?_).mpr ?_ 1 row hget hunhandled
    · intro run workflow nodes hrun hload hnodes
      cases hrun
      cases hload
      cases hnodes
      decide
    · rintro ⟨run, workflow, nodes, hrun, -, -, hload, hnodes, -, hready⟩
      cases hrun
      cases hload
      cases hnodes
      exact absurd hready (List.ne_nil_of_length_pos (by decide +kernel))
  · intro handled
    have hnone : ∀ node, ¬ handled.FailurePending "q" node := by
      rintro node ⟨_, _, -, -, -, -, hopen⟩
      cases hopen
    have hacts : Acts (NoFailureReported "q")
        (((((reconcileRun twoNodeHost 3 "q").zoom PoolDb.engine).advance handled).2.advance
          handled).2) handled handled _ := .now .refl
    exact ⟨handled, _, hamong handled handled handled _ (fun _ => hnone) hacts, hacts⟩

/-- The sweep comes between the failure and the drain: it drops the failed row and queues the node
again, and the late event then fails the run and cancels the new row. -/
theorem sweep_overtakes_failure :
    let env : PoolEnv := { host := oneNodeHost }
    let swept := (sweepStuckRuns env 2).left justFailed
    let drained := (drainDispatchEvents env 2).left swept
    let rows (state : PoolDb) :=
      (state.db.listJobsForRun "q").map fun entry => (entry.1, entry.2.status)
    rows justFailed = [(1, .failed)] ∧ (justFailed.marks 0).processed = false ∧
      rows swept = [(3, .queued)] ∧ (swept.marks 0).processed = false ∧
      rows drained = [(3, .cancelled)] ∧ drained.db.runStatus? "q" = some .failed := by
  decide +kernel

end BrokerParrot
