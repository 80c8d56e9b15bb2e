import BrokerParrot.Claim
import BrokerParrot.Lib.PyString

/-!
# The other statements on node-job rows

Everything of `node_queue.py` that writes a node-job row besides the claim: the inserts, the sweeps
that take a claim away, the finalisers' transitions and the cancel helpers. Each is one statement,
or one transaction, and so one function on the tables.
-/

namespace BrokerParrot

inductive PyError where
  | valueError (text : String)
  | keyError (text : String)
  | typeError (text : String)
  | indexError (text : String)
  | runtimeError (text : String)
  | integrity (violation : DbError)
  | host (text : String)
  deriving DecidableEq, Repr

/-! ### Inserts -/

def Queue.text : Queue → String
  | .cpu => "cpu"
  | .gpu => "gpu"
  | .download => "download"

/-- The arguments of `enqueue_node_job`. -/
structure NodeJobSpec where
  runId : String
  nodeId : String
  nodeModule : String
  queue : Queue
  requiredModel : Option String := none
  requiredModels : List ModelEntry := []
  inputs : List (String × Value) := []
  priority : ℤ := 100
  project : String := ""
  avoidBox : List String := []
  forceBox : List String := []
  serverTypes : List String := []
  cpuSlots : Option ℤ := none
  dedupKey : Option String := none
  contextLength : Option ℤ := none
  gpuSlots : Option GpuSlots := none

def validateContextLength : Option ℤ → Except PyError (Option ℤ)
  | none => .ok none
  | some value =>
    if value < 1 then
      .error (.valueError ("context_length must be a positive integer (tokens) or None, got " ++
        toString value))
    else
      .ok (some value)

def normaliseGpuSlots : Option GpuSlots → Except PyError (Option GpuSlots)
  | none => .ok none
  | some .all => .ok (some .all)
  | some .half => .ok (some .half)
  | some (.count n) =>
    if n < 1 then
      .error (.valueError ("gpu_slots must be >= 1, got " ++ toString n))
    else
      .ok (if n = 1 then none else some (.count n))

def orNoList (texts : List String) : Option (List String) :=
  if nonBlank texts = [] then none else some (nonBlank texts)

namespace NodeJobSpec

def models (spec : NodeJobSpec) : List ModelEntry :=
  spec.requiredModels.filter fun entry => stripped entry.model ≠ ""

def modelIds (spec : NodeJobSpec) : List String :=
  spec.models.map fun entry => stripped entry.model

def validated (spec : NodeJobSpec) : Except PyError (Option ℤ × Option GpuSlots) := do
  if spec.queue ≠ .gpu ∧ (orNull spec.requiredModel).isSome then
    throw (.valueError (spec.queue.text ++ " node-job must not set required_model"))
  let contextLength ← validateContextLength spec.contextLength
  if spec.queue ≠ .gpu ∧ contextLength.isSome then
    throw (.valueError (spec.queue.text ++
      " node-job must not set context_length (only gpu rows are LLM-served)"))
  if spec.cpuSlots.any (· < 1) then
    throw (.valueError ("cpu_slots must be >= 1, got " ++ toString (spec.cpuSlots.getD 1)))
  let gpuSlots ← normaliseGpuSlots spec.gpuSlots
  if spec.queue ≠ .gpu ∧ gpuSlots.isSome then
    throw (.valueError (spec.queue.text ++
      " node-job must not set gpu_slots (only gpu rows are weighed)"))
  return (contextLength, gpuSlots)

def rowWith (spec : NodeJobSpec) (contextLength : Option ℤ) (gpuSlots : Option GpuSlots)
    (now : ℚ) : NodeJob where
  runId := spec.runId
  nodeId := spec.nodeId
  nodeModule := spec.nodeModule
  queue := spec.queue
  requiredModel := (orNull spec.requiredModel).or (spec.modelIds.head?.or spec.requiredModel)
  requiredModels := if spec.models = [] then none else some spec.models
  requiredModelIds := if spec.models = [] then none else some spec.modelIds
  project := spec.project
  status := .queued
  priority := spec.priority
  inputs := spec.inputs
  avoidBox := orNoList spec.avoidBox
  forceBox := orNoList spec.forceBox
  serverTypes := orNoList spec.serverTypes
  cpuSlots := spec.cpuSlots.filter (1 < ·)
  gpuSlots := gpuSlots
  dedupKey := orNull (spec.dedupKey.map stripped)
  contextLength := contextLength
  createdAt := now

def row (spec : NodeJobSpec) (now : ℚ) : Except PyError NodeJob :=
  spec.validated.map fun checked => spec.rowWith checked.1 checked.2 now

end NodeJobSpec

def Db.insertOrRaise (db : Db) (row : NodeJob) : Except PyError Db :=
  match db.insertJob row with
  | .ok after => .ok after
  | .error violation => .error (.integrity violation)

def enqueueNodeJob (spec : NodeJobSpec) (db : Db) : Except PyError Db := do
  db.insertOrRaise (← spec.row db.now)

def skippedRow (runId nodeId project : String) (now : ℚ) : NodeJob where
  runId := runId
  nodeId := nodeId
  nodeModule := ""
  queue := .cpu
  project := project
  status := .skipped
  createdAt := now
  finishedAt := some now

def insertSkippedJob (runId nodeId project : String) (db : Db) : Except PyError Db :=
  db.insertOrRaise (skippedRow runId nodeId project db.now)

/-! ### Taking a claim away -/

namespace NodeJob

/-- Back to the queue with the lease cleared and the band bumped; `front` also sets the run-next
flag. -/
def requeue (front : Bool) (row : NodeJob) : NodeJob :=
  { row with
    status := .queued
    startedAt := none
    claimedBy := none
    leaseExpiresAt := none
    priority := min row.priority 10
    isPriority := front || row.isPriority }

def retry (row : NodeJob) : NodeJob :=
  { row.requeue false with watchdogRetries := row.watchdogRetries + 1 }

/-- A recovery: a row of a running run goes to the front of the queue, any other is cancelled. -/
def recover (parentRunning : Bool) (now : ℚ) (row : NodeJob) : NodeJob :=
  if parentRunning then
    row.requeue true
  else
    { row with
      status := .cancelled
      claimedBy := none
      leaseExpiresAt := none
      finishedAt := some now }

end NodeJob

namespace Db

def updateRunning (db : Db) (selects : JobId → NodeJob → Bool) (set : NodeJob → NodeJob) : Db :=
  db.updateJobs fun id row => if row.status = .running ∧ selects id row then set row else row

/-- The recovery update joins each row with its parent run; a row without one is not touched. -/
def recoverWhere (db : Db) (selects : JobId → NodeJob → Bool) : Db :=
  db.updateJobs fun id row =>
    match db.runStatus? row.runId with
    | none => row
    | some parent =>
      if row.status = .running ∧ selects id row then
        row.recover (parent = .running) db.now
      else
        row

def FreshWorker (db : Db) (worker : WorkerKey) (windowS : ℚ) : Prop :=
  ∃ beat ∈ db.heartbeats.get? worker, db.now - windowS < beat.lastSeen

instance (db : Db) (worker : WorkerKey) (windowS : ℚ) : Decidable (db.FreshWorker worker windowS) :=
  decidable_of_iff ((db.heartbeats.get? worker).any fun beat => db.now - windowS < beat.lastSeen)
    (by simp [FreshWorker, Option.any_eq_true])

end Db

def OwnedBy (worker : WorkerKey) (row : NodeJob) : Prop :=
  row.claimedBy = some worker.hostLabel ∧ row.queue = worker.queue ∧ row.project = worker.project

instance (worker : WorkerKey) (row : NodeJob) : Decidable (OwnedBy worker row) :=
  inferInstanceAs (Decidable (_ ∧ _))

def reclaimExpiredLeases (db : Db) : Db :=
  db.recoverWhere fun _ row => row.leaseExpiresAt.any (· < db.now)

def requeueRunningIfLeaseFrozen (id : JobId) (expected : ℚ) (db : Db) : Db :=
  db.recoverWhere fun other row => other = id ∧ row.leaseExpiresAt = some expected

def requeueOverClaimedRunning (id : JobId) (db : Db) : Db :=
  db.recoverWhere fun other _ => other = id

def requeueJobForRetry (id : JobId) (db : Db) : Db × Option NodeJob :=
  let after := db.updateRunning (fun other _ => other = id) NodeJob.retry
  (after, if (db.jobs.get? id).any (·.status = .running) then after.jobs.get? id else none)

def staleWorkerAfterS : ℚ := 30

/-- The boot sweep: rows whose claiming worker has no fresh heartbeat. It sets no run-next flag. -/
def reclaimAllRunningForResume (project : String) (db : Db) : Db :=
  db.updateRunning
    (fun _ row => row.project = project ∧
      ¬ ∃ host ∈ row.claimedBy, db.FreshWorker ⟨host, row.queue, row.project⟩ staleWorkerAfterS)
    (NodeJob.requeue false)

def requeueRunningForWorker (worker : WorkerKey) (db : Db) : Db :=
  db.updateRunning (fun _ row => OwnedBy worker row) (NodeJob.requeue true)

/-- One row of a worker; a start time pins the claim and not only the row. -/
def requeueRunningJob (id : JobId) (worker : WorkerKey) (startedAt : Option ℚ) (db : Db) : Db :=
  db.updateRunning
    (fun other row => other = id ∧ OwnedBy worker row ∧
      (startedAt = none ∨ row.startedAt = startedAt))
    (NodeJob.requeue true)

def requeueRunningIfWorkerStale (worker : WorkerKey) (staleAfterS : ℤ) (db : Db) : Db :=
  db.updateRunning
    (fun _ row => OwnedBy worker row ∧ ¬ db.FreshWorker worker (max 1 staleAfterS))
    (NodeJob.requeue true)

/-! ### The over-claim reaper -/

structure RunningRow where
  id : JobId
  claimedBy : String
  project : String
  startedAt : Option ℚ
  leaseExpiresAt : Option ℚ
  deriving DecidableEq

/-- The live bucket oldest first, then the stale one freshest lease first. A missing start is the
oldest, a missing lease the stalest. -/
def victimKey (liveFloor : Option ℚ) (row : RunningRow) : List ℚ :=
  match row.leaseExpiresAt, liveFloor with
  | some lease, some floor =>
    if floor ≤ lease then
      [0, if row.startedAt.isSome then 1 else 0, row.startedAt.getD 0, row.id]
    else
      [1, 0, -lease, row.id]
  | some lease, none => [1, 0, -lease, row.id]
  | none, _ => [1, 1, 0, row.id]

def liveFloor (rows : List RunningRow) (leaseTieS : ℚ) : Option ℚ :=
  ((rows.filterMap RunningRow.leaseExpiresAt).max?).map (· - leaseTieS)

def pickOverClaimVictims (rows : List RunningRow) (capacity : ℤ) (leaseTieS : ℚ := 30) :
    List JobId :=
  let key := victimKey (liveFloor rows leaseTieS)
  let ordered := rows.mergeSort fun left right => ¬ key right < key left
  (ordered.drop capacity.toNat).map RunningRow.id

def runningRow (queue : Queue) (id : JobId) (row : NodeJob) : Option RunningRow :=
  match row.claimedBy with
  | some host =>
    if row.status = .running ∧ row.queue = queue then
      some ⟨id, host, row.project, row.startedAt, row.leaseExpiresAt⟩
    else
      none
  | none => none

def runningRows (queue : Queue) (db : Db) : List RunningRow := db.jobs.collect (runningRow queue)

def boxGroups (rows : List RunningRow) : OrdDict (String × String) (List RunningRow) :=
  rows.foldl
    (fun groups row =>
      groups.insert (row.claimedBy, row.project)
        ((groups.get? (row.claimedBy, row.project)).getD [] ++ [row]))
    OrdDict.empty

def overClaimVictims (rows : List RunningRow) (capacity : String → String → Option ℤ) :
    List JobId :=
  (boxGroups rows).entries.flatMap fun group =>
    match capacity group.1.1 group.1.2 with
    | none => []
    | some cap => if (group.2.length : ℤ) ≤ cap then [] else pickOverClaimVictims group.2 cap

def advertisedConcurrency (queue : Queue) (db : Db) (host project : String) : Option ℤ :=
  (db.heartbeats.get? ⟨host, queue, project⟩).map Heartbeat.concurrency

def recoverAll (victims : List JobId) (db : Db) : Db :=
  victims.foldl (fun db id => requeueOverClaimedRunning id db) db

def reapOverClaimedBoxes (queue : Queue) (db : Db) : Db :=
  recoverAll (overClaimVictims (runningRows queue db) (advertisedConcurrency queue db)) db

def upsertWorkerHeartbeat (worker : WorkerKey) (concurrency : ℤ) (db : Db) : Db :=
  { db with heartbeats := db.heartbeats.insert worker ⟨concurrency, db.now⟩ }

/-! ### Finishing a row -/

def JobStatus.Open (status : JobStatus) : Prop :=
  status ≠ .completed ∧ status ≠ .failed ∧ status ≠ .cancelled

instance (status : JobStatus) : Decidable status.Open := inferInstanceAs (Decidable (_ ∧ _))

namespace Db

def transition (db : Db) (id : JobId) (set : NodeJob → NodeJob) : Db × Option NodeJob :=
  match db.jobs.get? id with
  | some row =>
    if row.status.Open then
      ({ db with jobs := db.jobs.modify id set }, some (set row))
    else
      (db, none)
  | none => (db, none)

end Db

namespace NodeJob

def complete (now : ℚ) (contextDelta : List (String × Value)) (seconds : ℚ)
    (vmRssMbPeak : Option ℤ) (row : NodeJob) : NodeJob :=
  { row with
    status := .completed
    finishedAt := some now
    contextDelta := contextDelta
    seconds := some seconds
    vmRssMbPeak := vmRssMbPeak
    hostLabel := row.hostLabel.or row.claimedBy }

def fail (now : ℚ) (error : String) (seconds : Option ℚ) (row : NodeJob) : NodeJob :=
  { row with
    status := .failed
    finishedAt := some now
    error := some (error.take 8000).toString
    seconds := seconds
    hostLabel := row.hostLabel.or row.claimedBy }

def park (row : NodeJob) : NodeJob := { row with status := .awaitingInput }

end NodeJob

def markCompletedInTxn (id : JobId) (contextDelta : List (String × Value)) (seconds : ℚ)
    (vmRssMbPeak : Option ℤ) (db : Db) : Db × Option NodeJob :=
  db.transition id (NodeJob.complete db.now contextDelta seconds vmRssMbPeak)

def markFailedInTxn (id : JobId) (error : String) (seconds : Option ℚ) (db : Db) :
    Db × Option NodeJob :=
  db.transition id (NodeJob.fail db.now error seconds)

def markAwaitingInputInTxn (id : JobId) (db : Db) : Db × Option NodeJob :=
  db.transition id NodeJob.park

def enqueueDispatchEventInTxn (runId nodeId : String) (kind : EventKind) (db : Db) : Db :=
  { db with events := db.events ++ [⟨runId, nodeId, kind⟩] }

def setInputSpec (runId nodeId : String) (spec : Option Value) (db : Db) : Db :=
  db.updateJobs fun _ row =>
    if row.runId = runId ∧ row.nodeId = nodeId ∧ row.status = .awaitingInput then
      { row with inputSpec := spec }
    else
      row

def prioritizeNodeJob (id : JobId) (db : Db) : Db :=
  db.updateJobs fun other row =>
    if other = id ∧ row.status = .queued then { row with isPriority := true } else row

def restampResolvedServer (id : JobId) (serverType : String) (db : Db) : Db :=
  if serverType = "" then
    db
  else
    db.updateRunning (fun other _ => other = id) fun row =>
      { row with resolvedServer := some serverType }

/-! ### Cancels and deletes -/

def NodeJob.cancel (now : ℚ) (row : NodeJob) : NodeJob :=
  { row with status := .cancelled, finishedAt := some now }

def cancelQueuedJobsForRun (runId : String) (db : Db) : Db :=
  db.updateJobs fun _ row =>
    if row.runId = runId ∧ row.status = .queued then row.cancel db.now else row

def cancelSiblingsAfterFailure (runId : String) (db : Db) : Db := cancelQueuedJobsForRun runId db

def cancelOrphanedQueuedJobs (project : String) (db : Db) : Db :=
  db.updateJobs fun _ row =>
    if row.project = project ∧ row.status = .queued ∧
        (db.runStatus? row.runId = some .cancelled ∨ db.runStatus? row.runId = some .failed) then
      row.cancel db.now
    else
      row

def deleteNonTerminalJobsForRun (runId : String) (db : Db) : Db × List String :=
  let doomed (row : NodeJob) : Bool :=
    row.runId = runId ∧ row.status ≠ .completed ∧ row.status ≠ .skipped
  ({ db with jobs := db.jobs.filter fun _ row => !doomed row },
    db.jobs.collect fun _ row => if doomed row then some row.nodeId else none)

/-! ### What a worker writes -/

/-- The row a worker holds, as its claim returned it. -/
structure HeldJob where
  id : JobId
  row : NodeJob

inductive FinaliseResult where
  | completed
  | failed
  | skipped
  | requeued
  deriving DecidableEq, Repr

def finaliseCompleted (job : HeldJob) (contextDelta : List (String × Value)) (seconds : ℚ)
    (vmRssMbPeak : Option ℤ) (db : Db) : Db × FinaliseResult :=
  match markCompletedInTxn job.id contextDelta seconds vmRssMbPeak db with
  | (after, none) => (after, .skipped)
  | (after, some _) =>
    (enqueueDispatchEventInTxn job.row.runId job.row.nodeId .completed after, .completed)

def finaliseFailed (job : HeldJob) (error : String) (seconds : ℚ) (db : Db) :
    Db × FinaliseResult :=
  match markFailedInTxn job.id error (some seconds) db with
  | (after, none) => (after, .skipped)
  | (after, some _) =>
    (enqueueDispatchEventInTxn job.row.runId job.row.nodeId .failed after, .failed)

def failJobAndExit (id : JobId) (error : String) (db : Db) : Db :=
  match markFailedInTxn id error none db with
  | (after, none) => after
  | (after, some row) => enqueueDispatchEventInTxn row.runId row.nodeId .failed after

/-- `QUEUE_WORKFLOWS_WATCHDOG_MAX_RETRIES` is a parameter. With nothing running between its two
transactions. -/
def requeueForTransientGpu (maxRetries : ℕ) (job : HeldJob) (error : String) (seconds : ℚ)
    (db : Db) : Db × FinaliseResult :=
  if maxRetries ≤ job.row.watchdogRetries then
    finaliseFailed job error seconds db
  else
    match requeueJobForRetry job.id db with
    | (after, none) => finaliseFailed job error seconds after
    | (after, some _) => (after, .requeued)

/-- Park an input node: the row and its event in one transaction. The event is written whether or
not the row moved. -/
def parkInput (job : HeldJob) (db : Db) : Db :=
  enqueueDispatchEventInTxn job.row.runId job.row.nodeId .awaitingInput
    (markAwaitingInputInTxn job.id db).1

def renewLease (id : JobId) (claimedBy : String) (leaseS : ℤ) (db : Db) : Db :=
  db.updateRunning (fun other row => other = id ∧ row.claimedBy = some claimedBy) fun row =>
    { row with leaseExpiresAt := some (db.now + leaseS) }

/-! ### Histories

A history of the queue is a list of operations, each of them one transaction. A call that raises
leaves the tables as they were. -/

inductive QueueOp where
  | claimCpu (args : CpuClaim) (env : ClaimEnv)
  | claimDownload (args : DownloadClaim) (env : ClaimEnv)
  | claimGpu (args : GpuClaim) (env : ClaimEnv)
  | enqueue (spec : NodeJobSpec)
  | insertSkipped (runId nodeId project : String)
  | reclaimExpiredLeases
  | requeueIfLeaseFrozen (id : JobId) (expected : ℚ)
  | requeueOverClaimed (id : JobId)
  | reapOverClaimed (queue : Queue)
  | reclaimAllForResume (project : String)
  | requeueForWorker (worker : WorkerKey)
  | requeueRunningJob (id : JobId) (worker : WorkerKey) (startedAt : Option ℚ)
  | requeueIfWorkerStale (worker : WorkerKey) (staleAfterS : ℤ)
  | requeueForRetry (id : JobId)
  | finaliseCompleted (job : HeldJob) (contextDelta : List (String × Value)) (seconds : ℚ)
      (vmRssMbPeak : Option ℤ)
  | finaliseFailed (job : HeldJob) (error : String) (seconds : ℚ)
  | failJob (id : JobId) (error : String)
  | parkInput (job : HeldJob)
  | markCompleted (id : JobId) (contextDelta : List (String × Value)) (seconds : ℚ)
      (vmRssMbPeak : Option ℤ)
  | markFailed (id : JobId) (error : String) (seconds : Option ℚ)
  | markAwaitingInput (id : JobId)
  | renewLease (id : JobId) (claimedBy : String) (leaseS : ℤ)
  | restamp (id : JobId) (serverType : String)
  | prioritize (id : JobId)
  | setInputSpec (runId nodeId : String) (spec : Option Value)
  | cancelQueuedForRun (runId : String)
  | cancelOrphanedQueued (project : String)
  | deleteNonTerminalForRun (runId : String)
  | heartbeat (worker : WorkerKey) (concurrency : ℤ)
  | writeRun (runId : String) (run : Run)
  | clock (now : ℚ)

def Db.orSame (db : Db) : Except PyError Db → Db
  | .ok after => after
  | .error _ => db

namespace QueueOp

def step (d : Dialect) (db : Db) : QueueOp → Db
  | claimCpu args env => (claimNextCpuJob d args env db).1
  | claimDownload args env => (claimNextDownloadJob d args env db).1
  | claimGpu args env => (claimNextGpuJob d args env db).1
  | enqueue spec => db.orSame (enqueueNodeJob spec db)
  | insertSkipped runId nodeId project => db.orSame (insertSkippedJob runId nodeId project db)
  | reclaimExpiredLeases => BrokerParrot.reclaimExpiredLeases db
  | requeueIfLeaseFrozen id expected => requeueRunningIfLeaseFrozen id expected db
  | requeueOverClaimed id => requeueOverClaimedRunning id db
  | reapOverClaimed queue => reapOverClaimedBoxes queue db
  | reclaimAllForResume project => reclaimAllRunningForResume project db
  | requeueForWorker worker => requeueRunningForWorker worker db
  | requeueRunningJob id worker startedAt => BrokerParrot.requeueRunningJob id worker startedAt db
  | requeueIfWorkerStale worker staleAfterS => requeueRunningIfWorkerStale worker staleAfterS db
  | requeueForRetry id => (requeueJobForRetry id db).1
  | finaliseCompleted job contextDelta seconds vmRssMbPeak =>
    (BrokerParrot.finaliseCompleted job contextDelta seconds vmRssMbPeak db).1
  | finaliseFailed job error seconds => (BrokerParrot.finaliseFailed job error seconds db).1
  | failJob id error => failJobAndExit id error db
  | parkInput job => BrokerParrot.parkInput job db
  | markCompleted id contextDelta seconds vmRssMbPeak =>
    (markCompletedInTxn id contextDelta seconds vmRssMbPeak db).1
  | markFailed id error seconds => (markFailedInTxn id error seconds db).1
  | markAwaitingInput id => (markAwaitingInputInTxn id db).1
  | renewLease id claimedBy leaseS => BrokerParrot.renewLease id claimedBy leaseS db
  | restamp id serverType => restampResolvedServer id serverType db
  | prioritize id => prioritizeNodeJob id db
  | setInputSpec runId nodeId spec => BrokerParrot.setInputSpec runId nodeId spec db
  | cancelQueuedForRun runId => cancelQueuedJobsForRun runId db
  | cancelOrphanedQueued project => cancelOrphanedQueuedJobs project db
  | deleteNonTerminalForRun runId => (deleteNonTerminalJobsForRun runId db).1
  | heartbeat worker concurrency => upsertWorkerHeartbeat worker concurrency db
  | writeRun runId run => { db with runs := db.runs.insert runId run }
  | clock now => { db with now := now }

def run (d : Dialect) (db : Db) (history : List QueueOp) : Db := history.foldl (step d) db

end QueueOp

end BrokerParrot
