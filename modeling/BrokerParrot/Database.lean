import Mathlib.Algebra.Order.Ring.Unbundled.Rat
import BrokerParrot.Lib.Table

/-!
# The tables

The engine keeps all its state in a database: the runs, the node-job rows that are the queue, the
outbox of dispatch events and the workers' heartbeats. A row's key never changes, so each table is
an ordered dictionary from the key to the rest of the row, and a statement is a function on the
tables.
-/

namespace BrokerParrot

inductive NonFinite where
  | nan
  | infinity
  | minusInfinity
  deriving DecidableEq, Repr

inductive Value where
  | null
  | bool (flag : Bool)
  | num (value : ℚ)
  | special (number : NonFinite)
  | str (text : String)
  | list (items : List Value)
  | dict (entries : List (String × Value))

namespace Value

instance : Inhabited Value := ⟨null⟩

def truthy : Value → Bool
  | null => false
  | bool flag => flag
  | num value => value ≠ 0
  | special _ => true
  | str text => text ≠ ""
  | list items => !items.isEmpty
  | dict entries => !entries.isEmpty

end Value

inductive Queue where
  | cpu
  | gpu
  | download
  deriving DecidableEq, Repr

inductive JobStatus where
  | queued
  | running
  | awaitingInput
  | completed
  | failed
  | cancelled
  | skipped
  deriving DecidableEq, Repr

/-- The status of a run. The column is free text; `other` is whatever else a host writes there. -/
inductive RunStatus where
  | queued
  | running
  | completed
  | failed
  | cancelled
  | other (label : String)
  deriving DecidableEq, Repr

inductive EventKind where
  | completed
  | failed
  | awaitingInput
  deriving DecidableEq, Repr

inductive GpuSlots where
  | all
  | half
  | count (n : ℤ)
  deriving DecidableEq, Repr

/-- The generated key of a row, a number in place of the source's random text. Keys are handed out
in insertion order, so the number is also the row's position in the table. -/
abbrev JobId := ℕ

/-- An acceptable model, already read as text, with the kinds of servers it may be served by. -/
structure ModelEntry where
  model : String
  serverTypes : Option (List String) := none
  deriving DecidableEq, Repr

structure NodeJob where
  runId : String
  nodeId : String
  nodeModule : String
  queue : Queue
  requiredModel : Option String := none
  requiredModels : Option (List ModelEntry) := none
  requiredModelIds : Option (List String) := none
  project : String
  status : JobStatus
  priority : ℤ := 100
  isPriority : Bool := false
  inputs : List (String × Value) := []
  inputSpec : Option Value := none
  contextDelta : List (String × Value) := []
  avoidBox : Option (List String) := none
  forceBox : Option (List String) := none
  serverTypes : Option (List String) := none
  cpuSlots : Option ℤ := none
  gpuSlots : Option GpuSlots := none
  dedupKey : Option String := none
  contextLength : Option ℤ := none
  workerLane : Option ℤ := none
  claimedBy : Option String := none
  hostLabel : Option String := none
  resolvedServer : Option String := none
  resolvedModel : Option String := none
  leaseExpiresAt : Option ℚ := none
  watchdogRetries : ℕ := 0
  error : Option String := none
  seconds : Option ℚ := none
  vmRssMbPeak : Option ℤ := none
  createdAt : ℚ
  startedAt : Option ℚ := none
  finishedAt : Option ℚ := none

structure Run where
  workflowName : String
  status : RunStatus
  priority : ℤ := 100
  context : List (String × Value) := []
  error : Option String := none
  outDir : Option String := none
  project : String := ""
  finishedAt : Option ℚ := none

structure DispatchEvent where
  runId : String
  nodeId : String
  kind : EventKind
  deriving DecidableEq, Repr

structure Heartbeat where
  concurrency : ℤ
  lastSeen : ℚ
  deriving DecidableEq, Repr

structure WorkerKey where
  hostLabel : String
  queue : Queue
  project : String
  deriving DecidableEq, Repr

structure Db where
  jobs : Table NodeJob := Table.empty
  runs : OrdDict String Run := OrdDict.empty
  events : List DispatchEvent := []
  heartbeats : OrdDict WorkerKey Heartbeat := OrdDict.empty
  now : ℚ := 0
  outDirs : String → Option (List (String × Value)) := fun _ => none
  /-- The columns take the values of a new row. -/
  stores : NodeJob → Bool := fun _ => true

inductive DbError where
  | uniqueViolation
  | foreignKeyViolation
  | dataError
  deriving DecidableEq, Repr

namespace Db

def runStatus? (db : Db) (runId : String) : Option RunStatus :=
  (db.runs.get? runId).map Run.status

def listJobsForRun (db : Db) (runId : String) : List (JobId × NodeJob) :=
  db.jobs.entries.filter fun entry => entry.2.runId = runId

def NodeTaken (db : Db) (runId nodeId : String) : Prop :=
  ∃ entry ∈ db.jobs.entries, entry.2.runId = runId ∧ entry.2.nodeId = nodeId

instance (db : Db) (runId nodeId : String) : Decidable (db.NodeTaken runId nodeId) :=
  inferInstanceAs (Decidable (∃ entry ∈ db.jobs.entries, _))

def insertJob (db : Db) (row : NodeJob) : Except DbError Db :=
  if db.stores row = false then
    .error .dataError
  else if (db.runs.get? row.runId).isNone then
    .error .foreignKeyViolation
  else if db.NodeTaken row.runId row.nodeId then
    .error .uniqueViolation
  else
    .ok { db with jobs := db.jobs.append row }

def updateJobs (db : Db) (rewrite : JobId → NodeJob → NodeJob) : Db :=
  { db with jobs := db.jobs.update rewrite }

end Db

end BrokerParrot
