import BrokerParrot.Proof.RunStatus
import BrokerParrot.Proof.SoloExpansion

/-!
# A workflow that cannot be expanded

`start_run` fails a run whose GPU nodes declare no model, so that the run is not picked up for ever.
Everything else that can go wrong while the run is expanded is raised: a step without nodes, a
reference that does not resolve, a node that is to be downloaded and to run on the card, a width
that is no number, a value that its column does not take. The call then leaves the run queued.
-/

namespace BrokerParrot

def Db.PickedUp (runId : String) (db : Db) : Prop :=
  db.runStatus? runId ≠ some .queued ∧
    (db.runStatus? runId = some .failed ∨ db.listJobsForRun runId ≠ [])

instance (runId : String) (db : Db) : Decidable (db.PickedUp runId) :=
  inferInstanceAs (Decidable (_ ∧ _))

/-- Every wave of the expansion can be dispatched, and there is something to expand or to show. -/
structure Expandable (host : Host) (runId : String) (run : Run) (db : Db) (nodes : List DagNode) :
    Prop where
  waves : (dagWaves host runId run db nodes).Always (Dispatchable host runId run db)
    (JobMap.frontier (db.listJobsForRun runId))
  some : run.status = .failed ∨ db.listJobsForRun runId ≠ [] ∨
    findReadyNodes (db.listJobsForRun runId) nodes ≠ []

section

variable {host : Host} {runId : String} {run : Run} {workflow : Workflow} {nodes : List DagNode}
  {rounds : ℕ} {db : Db}

theorem nodesOf_of_checked (hcheck : assertGpuNodesDeclareModel host workflow run = .ok ()) :
    ∃ nodes, nodesOf host workflow run.outDir = .ok nodes := by
  obtain ⟨nodes, hnodes, -⟩ := Except.bind_eq_ok_iff.mp hcheck
  exact ⟨nodes, hnodes⟩

theorem rows_after_expansion {u : Db} {count : ℕ}
    (hnodes : nodesOf host workflow run.outDir = .ok nodes)
    (halone : (processReady host runId workflow run rounds 0).alone db = some (.ok count, u))
    (hend : findReadyNodes (u.listJobsForRun runId) nodes = [] ∧
      (count = 0 ∧ u = db ∨ 0 < count ∧ u.listJobsForRun runId ≠ [])) :
    u.listJobsForRun runId ≠ [] ↔ db.listJobsForRun runId ≠ [] ∨
      findReadyNodes (db.listJobsForRun runId) nodes ≠ [] := by
  obtain ⟨hnone, ⟨-, rfl⟩ | ⟨hcount, hrows⟩⟩ := hend
  · simp [hnone]
  · refine iff_of_true hrows (Or.inr fun hready => ?_)
    cases rounds with
    | zero => cases halone
    | succ =>
      rw [alone_processReady_of_none hnodes hready] at halone
      obtain ⟨rfl, -⟩ : 0 = count ∧ db = u := by simpa using halone
      exact Nat.lt_irrefl 0 hcount

variable (hget : db.runs.get? runId = some run)

include hget

theorem pickedUp_of_rejected (error : Option String) :
    (db.finishRun runId .failed error).PickedUp runId := by
  have hstatus : (db.finishRun runId .failed error).runStatus? runId = some .failed := by
    unfold Db.finishRun
    rw [runStatus?_updateRun, hget, Option.map_some]
  exact ⟨by rw [hstatus]; decide, Or.inl hstatus⟩

theorem pickedUp_markRunning :
    (db.markRunRunningIfExpanded runId).PickedUp runId ↔
      run.status = .failed ∨ db.listJobsForRun runId ≠ [] := by
  have hlist : (db.markRunRunningIfExpanded runId).listJobsForRun runId =
      db.listJobsForRun runId := rfl
  have hstatus : (db.markRunRunningIfExpanded runId).runStatus? runId =
      some (if run.status = .queued ∧ db.listJobsForRun runId ≠ [] then .running
        else run.status) := by
    unfold Db.markRunRunningIfExpanded
    rw [runStatus?_updateRun, hget, Option.map_some]
    split <;> rfl
  unfold Db.PickedUp
  rw [hstatus, hlist]
  by_cases hrows : db.listJobsForRun runId = [] <;> by_cases hqueued : run.status = .queued <;>
    simp [hrows, hqueued]

variable (hload : host.loadWorkflow run.workflowName = .ok workflow)

include hload

theorem alone_startRun : (startRun host rounds runId).alone db =
    match assertGpuNodesDeclareModel host workflow run with
    | .error (.valueError text) => some (.ok 0, db.finishRun runId .failed (some text))
    | .error raised => some (.error raised, db)
    | .ok () => (processReady host runId workflow run rounds 0 >>= fun newRows =>
        (Prog.write fun db => db.markRunRunningIfExpanded runId) >>= fun _ =>
          (pure newRows : DbProg ℕ)).alone db := by
  unfold startRun
  rw [getRun, Prog.alone_read_bind, hget]
  dsimp only
  rw [hload]
  dsimp only [Prog.ofExcept, bind, Prog.bind]
  cases assertGpuNodesDeclareModel host workflow run with
  | ok => rfl
  | error raised => cases raised <;> rfl

end

def queuedDb : Db where
  jobs := Table.empty
  runs := OrdDict.empty.insert "r" { workflowName := "w", status := .queued }

def oneStepHost (step : Step) (node : SchemaNode) : Host where
  loadWorkflow := fun _ => .ok ⟨[step]⟩
  pipelineSchema := fun _ => .ok ⟨[node]⟩
  resolveRef := fun value _ => .ok value

/-- What a call leaves of the run: whether it returned, the run's status and how many rows. -/
def startOutcome (host : Host) (db : Db) : Option (Bool × Option RunStatus × ℕ) :=
  ((startRun host 2 "r").alone db).map fun outcome =>
    (outcome.1.isOk, outcome.2.runStatus? "r", (outcome.2.listJobsForRun "r").length)

end BrokerParrot
