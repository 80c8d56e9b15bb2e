import BrokerParrot.Workflow

/-!
# The dispatcher

The calls of `dispatcher.py` that drive a run, as programs of database statements. Each read or
write of the source is one statement, so any number of calls can be interleaved statement by
statement with each other, with the workers and with the host. A loop takes the number of its rounds
as an argument; a call that runs out of rounds never moves again, so every finite history of the
source is a history of the model for some number of rounds.
-/

namespace BrokerParrot

abbrev DbProg := Prog Db PyError

/-! ### Run rows -/

namespace Db

/-- `UPDATE workflow_runs SET ... WHERE id = ?`, with no guard on the status. -/
def updateRun (db : Db) (runId : String) (set : Run → Run) : Db :=
  { db with runs := db.runs.modify runId set }

def finishRun (db : Db) (runId : String) (status : RunStatus) (error : Option String) : Db :=
  db.updateRun runId fun run =>
    { run with status := status, finishedAt := some db.now, error := error.or run.error }

def markRunRunningIfExpanded (db : Db) (runId : String) : Db :=
  db.updateRun runId fun run =>
    if run.status = .queued ∧ db.listJobsForRun runId ≠ [] then
      { run with status := .running }
    else
      run

end Db

def getRun (runId : String) : DbProg (Option Run) := Prog.read fun db => db.runs.get? runId

def jobsByNodeId (runId : String) : DbProg JobMap := Prog.read fun db => db.listJobsForRun runId

def updateRun (runId : String) (set : Run → Run) : DbProg Unit :=
  Prog.write fun db => db.updateRun runId set

def finishRun (runId : String) (status : RunStatus) (error : Option String := none) : DbProg Unit :=
  Prog.write fun db => db.finishRun runId status error

/-! ### The reference context -/

def mergedDict (old : Option Value) (new : Context) : Option Context :=
  match old with
  | none => some new
  | some (.dict entries) =>
    some (new.foldl (fun merged entry => OrdDict.insertIn merged entry.1 entry.2) entries)
  | some value => if value.truthy then none else some new

/-- The deltas of the completed rows under their node ids. An error is logged and ends the merge. -/
def mergeSiblings (context : Context) : JobMap → Context
  | [] => context
  | entry :: rest =>
    if entry.2.status = .completed ∧ entry.2.contextDelta ≠ [] ∧ entry.2.nodeId ≠ "" then
      match mergedDict (OrdDict.lookupIn context entry.2.nodeId) entry.2.contextDelta with
      | some merged => mergeSiblings (OrdDict.insertIn context entry.2.nodeId (.dict merged)) rest
      | none => context
    else
      mergeSiblings context rest

def addFiles (context : Context) : List (String × Value) → Except PyError Context
  | [] => .ok context
  | (dir, files) :: rest =>
    match mergedDict (OrdDict.lookupIn context dir) [("files", files)] with
    | some merged => addFiles (OrdDict.insertIn context dir (.dict merged)) rest
    | none => .error (.typeError "object is not a mapping")

def refContext (runId : String) (run : Run) (db : Db) : Except PyError Context :=
  let context :=
    if runId = "" then run.context else mergeSiblings run.context (db.listJobsForRun runId)
  match (orNull run.outDir).bind db.outDirs with
  | none => .ok context
  | some dirs => addFiles context dirs

/-! ### Expanding a run -/

def enqueue (host : Host) (runId : String) (node : DagNode) (run : Run) : DbProg Unit :=
  match node.kind with
  | .input widget target =>
    Prog.attempt (enqueueNodeJob (inputJobSpec runId run node widget target))
  | .node body => do
    let context ← Prog.read (refContext runId run)
    let spec ← Prog.ofExcept (context.bind (body.jobSpec host runId run node))
    Prog.attempt (enqueueNodeJob spec)

def dispatchNode (host : Host) (runId : String) (run : Run) (existing : JobMap) (node : DagNode) :
    DbProg Unit := do
  if ← Prog.ofExcept (shouldSkipNode host node run existing) then
    Prog.attempt (insertSkippedJob runId node.id run.project)
  else
    enqueue host runId node run

def processReady (host : Host) (runId : String) (workflow : Workflow) (run : Run) :
    ℕ → ℕ → DbProg ℕ
  | 0, _ => .hang
  | rounds + 1, newRows => do
    let existing ← jobsByNodeId runId
    let nodes ← Prog.ofExcept (nodesOf host workflow run.outDir)
    match findReadyNodes existing nodes with
    | [] => return newRows
    | ready@(_ :: _) =>
      Prog.forEach (readySorted ready) (dispatchNode host runId run existing)
      processReady host runId workflow run rounds (newRows + ready.length)

def startRun (host : Host) (rounds : ℕ) (runId : String) : DbProg ℕ := do
  match ← getRun runId with
  | none => .raise (.keyError runId)
  | some run =>
    let workflow ← Prog.ofExcept (host.loadWorkflow run.workflowName)
    match assertGpuNodesDeclareModel host workflow run with
    | .error (.valueError text) =>
      finishRun runId .failed text
      return 0
    | .error raised => .raise raised
    | .ok () =>
      let newRows ← processReady host runId workflow run rounds 0
      Prog.write fun db => db.markRunRunningIfExpanded runId
      return newRows

/-! ### Patch jobs

A row whose inputs carry the marker re-runs an earlier node outside the graph. Its end is written on
the spec of the input node the run is parked at, and nowhere else. -/

def patchInputKey : String := "__patch__"

def patchMarker (inputs : Context) : Option Context :=
  match OrdDict.lookupIn inputs patchInputKey with
  | some (.dict (first :: rest)) => some (first :: rest)
  | _ => none

def patchMeta (job : Option (JobId × NodeJob)) : Option Context :=
  job.bind fun entry => patchMarker entry.2.inputs

def metaText (host : Host) (patch : Context) (key : String) : String :=
  match OrdDict.lookupIn patch key with
  | some value => if value.truthy then host.str value else ""
  | none => ""

def bumpInputSpec (runId targetInput : String) (fields : List (String × Option Value)) :
    DbProg Unit := do
  if targetInput = "" then
    return ()
  let existing ← jobsByNodeId runId
  match (existing.get? targetInput).bind fun entry => entry.2.inputSpec with
  | some (.dict spec) =>
    let spec := fields.foldl
      (fun spec field =>
        match field.2 with
        | some value => OrdDict.insertIn spec field.1 value
        | none => spec.filter fun entry => entry.1 ≠ field.1)
      spec
    Prog.write (setInputSpec runId targetInput (some (.dict spec)))
  | _ => return ()

def patchCopies (host : Host) (outDir : String) (new old : Context) : List (String × String) :=
  new.filterMap fun entry =>
    match entry.2, OrdDict.lookupIn old entry.1 with
    | .str newPath, some (.str oldPath) =>
      if newPath ≠ oldPath ∧ outDir ≠ "" ∧ outDir.toList.isPrefixOf newPath.toList ∧
          outDir.toList.isPrefixOf oldPath.toList ∧ host.isFile newPath then
        some (newPath, oldPath)
      else
        none
    | _, _ => none

def finishPatchJob (host : Host) (runId : String) (run : Run) (job : NodeJob) (patch : Context) :
    DbProg Unit := do
  let existing ← jobsByNodeId runId
  let source := (existing.get? (metaText host patch "source_node")).map fun entry =>
    entry.2.contextDelta
  Prog.ofExcept (host.copyFiles
    (patchCopies host (run.outDir.getD "") job.contextDelta (source.getD [])))
  let now ← Prog.read Db.now
  bumpInputSpec runId (metaText host patch "target_input")
    [("patched_at", some (.str (host.isoformat now))), ("patch_error", none),
      ("patch_pending", none), ("patch_node_id", none)]

def flagPatchError (host : Host) (runId : String) (job : NodeJob) (patch : Context) :
    DbProg Unit :=
  let error := (orNull job.error).getD "patch failed"
  bumpInputSpec runId (metaText host patch "target_input")
    [("patch_error", some (.str (error.take 500).toString)), ("patch_pending", none),
      ("patch_node_id", none)]

/-! ### The callbacks and the reconciler -/

def onNodeCompleted (host : Host) (rounds : ℕ) (runId node : String) : DbProg ℕ := do
  match ← getRun runId with
  | none => return 0
  | some run =>
    if run.status = .cancelled ∨ run.status = .failed then
      return 0
    let jobs ← jobsByNodeId runId
    match jobs.get? node, patchMeta (jobs.get? node) with
    | some job, some patch =>
      finishPatchJob host runId run job.2 patch
      return 0
    | _, _ =>
      let workflow ← Prog.ofExcept (host.loadWorkflow run.workflowName)
      let newRows ← processReady host runId workflow run rounds 0
      -- The check reads the rows once more, and the write after it has no guard.
      let existing ← jobsByNodeId runId
      let nodes ← Prog.ofExcept (nodesOf host workflow run.outDir)
      if allSettled existing nodes then
        finishRun runId .completed
      return newRows

/-- A missing run has no status, so the failure is written all the same. -/
def onNodeFailed (host : Host) (runId node : String) : DbProg Unit := do
  let run ← getRun runId
  if run.any fun run => run.status = .cancelled ∨ run.status = .failed then
    return ()
  let jobs ← jobsByNodeId runId
  match jobs.get? node, patchMeta (jobs.get? node) with
  -- `run.get("id") or ""`: a run that is missing has no id.
  | some job, some patch => flagPatchError host (if run.isSome then runId else "") job.2 patch
  | _, _ =>
    Prog.write (cancelSiblingsAfterFailure runId)
    finishRun runId .failed
      ("node " ++ host.repr (.str node) ++ " failed (see workflow_node_jobs.error)")

inductive ReconcileTag where
  | noop
  | completed
  | enqueued
  | requeued
  | failed
  deriving DecidableEq, Repr

def JobStatus.Live (status : JobStatus) : Prop :=
  status = .queued ∨ status = .running ∨ status = .awaitingInput

instance (status : JobStatus) : Decidable status.Live := inferInstanceAs (Decidable (_ ∨ _ ∨ _))

def RunStatus.Terminal (status : RunStatus) : Prop :=
  status = .completed ∨ status = .failed ∨ status = .cancelled

instance (status : RunStatus) : Decidable status.Terminal :=
  inferInstanceAs (Decidable (_ ∨ _ ∨ _))

def deadEndText : String :=
  "reconciler: no runnable node-jobs and run not complete " ++
    "(dead-ended DAG — a cancelled node with no forward path); " ++
    "retry to re-run"

/-- The end of `reconcile_run`, for a run that nothing is under way in. -/
def reopen (host : Host) (rounds : ℕ) (runId : String) (workflow : Workflow) (run : Run) :
    DbProg ReconcileTag := do
  if 0 < (← processReady host runId workflow run rounds 0) then
    updateRun runId fun run => { run with status := .running }
    return .enqueued
  -- Only dead rows stand in the way: drop them and look again.
  let dropped ← Prog.exec (deleteNonTerminalJobsForRun runId)
  if dropped ≠ [] then
    if 0 < (← processReady host runId workflow run rounds 0) then
      updateRun runId fun run => { run with status := .running }
      return .requeued
  finishRun runId .failed deadEndText
  return .failed

def reconcileRun (host : Host) (rounds : ℕ) (runId : String) : DbProg ReconcileTag := do
  match ← getRun runId with
  | none => return .noop
  | some run =>
    if run.status.Terminal then
      return .noop
    let existing ← jobsByNodeId runId
    if existing.any fun entry => entry.2.status.Live then
      return .noop
    let workflow ← Prog.ofExcept (host.loadWorkflow run.workflowName)
    let nodes ← Prog.ofExcept (nodesOf host workflow run.outDir)
    if allSettled existing nodes then
      finishRun runId .completed
      return .completed
    reopen host rounds runId workflow run

def submittedDelta (host : Host) (job : NodeJob) (value : Value) : Except PyError Context :=
  match OrdDict.lookupIn job.inputs "target", value with
  | none, _ => .ok []
  | some _, .null => .ok []
  | some (.str target), value => .ok (if target = "" then [] else [(target, value)])
  | some (.list (_ :: _)), _ => .error (.typeError "unhashable type: 'list'")
  | some (.dict (_ :: _)), _ => .error (.typeError "unhashable type: 'dict'")
  | some target, value => .ok (if target.truthy then [(host.jsonKey target, value)] else [])

def resumeAfterInput (host : Host) (rounds : ℕ) (runId node : String) (value : Value) :
    DbProg ℕ := do
  let jobs ← jobsByNodeId runId
  match jobs.get? node with
  | none => .raise (.keyError ("no job for " ++ runId ++ ":" ++ node))
  | some (id, job) =>
    if job.status ≠ .awaitingInput ∧ job.status ≠ .queued then
      return 0
    let delta ← Prog.ofExcept (submittedDelta host job value)
    let _ ← Prog.exec (markCompletedInTxn id delta 0 none)
    onNodeCompleted host rounds runId node

/-! ### Interleavings

A world is the database with the calls in progress. The workers, the sweeps and the host move
between the statements of the calls. -/

inductive Call where
  | startRun (runId : String)
  | onNodeCompleted (runId node : String)
  | onNodeFailed (runId node : String)
  | reconcileRun (runId : String)
  | resumeAfterInput (runId node : String) (value : Value)

inductive CallResult where
  | rows (count : ℕ)
  | none
  | tag (tag : ReconcileTag)
  deriving DecidableEq

namespace Call

def runId : Call → String
  | startRun runId => runId
  | onNodeCompleted runId _ => runId
  | onNodeFailed runId _ => runId
  | reconcileRun runId => runId
  | resumeAfterInput runId _ _ => runId

def prog (host : Host) (rounds : ℕ) : Call → DbProg CallResult
  | startRun runId => do return .rows (← BrokerParrot.startRun host rounds runId)
  | onNodeCompleted runId node => do
    return .rows (← BrokerParrot.onNodeCompleted host rounds runId node)
  | onNodeFailed runId node => do
    BrokerParrot.onNodeFailed host runId node
    return .none
  | reconcileRun runId => do return .tag (← BrokerParrot.reconcileRun host rounds runId)
  | resumeAfterInput runId node value => do
    return .rows (← BrokerParrot.resumeAfterInput host rounds runId node value)

end Call

/-- A call, with the number of events written before it began. -/
structure CallLabel where
  call : Call
  since : ℕ

abbrev World := Pool CallLabel Db PyError CallResult

inductive Action where
  | call (call : Call) (rounds : ℕ)
  | advance (index : ℕ)
  | queue (op : QueueOp)
  | setRunStatus (runId : String) (status : RunStatus)

namespace World

variable (host : Host) (d : Dialect)

def move (world : World) : Action →
    Move CallLabel Db PyError CallResult
  | .call call rounds => .spawn ⟨call, world.shared.events.length⟩ (call.prog host rounds)
  | .advance index => .advance index
  | .queue op => .outside (op.step d)
  | .setRunStatus runId status =>
    .outside fun db => db.updateRun runId fun run => { run with status := status }

def act (world : World) (action : Action) : World := world.step (world.move host d action)

def run (world : World) (history : List Action) : World := history.foldl (act host d) world

def status? (world : World) (runId : String) : Option RunStatus := world.shared.runStatus? runId

end World

end BrokerParrot
