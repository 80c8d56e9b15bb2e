import BrokerParrot.Dispatcher

/-!
# The orchestrator's drain and its stuck-run sweep

Workers leave their ends as events in the outbox. The orchestrator drains the outbox in batches: it
locks a batch, runs the dispatcher's callback for each event on connections of their own, and writes
what became of the events when the batch is committed.
-/

namespace BrokerParrot

structure EventMark where
  processed : Bool := false
  attempts : ℕ := 0
  error : Option String := none
  deriving DecidableEq

/-- The tables with the marks of the events, by their place in the outbox, and the row locks that
drains hold on them. -/
structure PoolDb where
  db : Db
  marks : ℕ → EventMark := fun _ => {}
  locked : List ℕ := []

def PoolDb.engine : Prog.Lens PoolDb Db where
  get := PoolDb.db
  put := fun db state => { state with db := db }
  get_put := fun _ _ => rfl
  put_get := fun _ => rfl
  put_put := fun _ _ _ => rfl

/-- What an orchestrator knows besides the tables. The payload of an input widget is built from the
step and the run. -/
structure PoolEnv where
  host : Host
  project : String := ""
  buildInputSpec : Step → Run → Except PyError Value := fun _ _ => .ok .null
  exceptionText : PyError → String := fun _ => ""

abbrev PoolProg := Prog PoolDb PyError

/-! ### The drain -/

def Step.asks (step : Step) (node : String) : Bool :=
  match step.kind with
  | .input _ _ => step.id = node
  | _ => false

variable (env : PoolEnv)

def onNodeAwaitingInput (runId node : String) : DbProg Unit := do
  match ← getRun runId with
  | none => return ()
  | some run =>
    if run.status = .cancelled ∨ run.status = .failed then
      return ()
    let workflow ← Prog.ofExcept (env.host.loadWorkflow run.workflowName)
    match workflow.steps.find? (·.asks node) with
    | none => return ()
    | some step =>
      let spec ← Prog.ofExcept (env.buildInputSpec step run)
      Prog.write (setInputSpec runId node (some spec))

def callback (rounds : ℕ) (event : DispatchEvent) : DbProg Unit :=
  match event.kind with
  | .completed => do
    let _ ← onNodeCompleted env.host rounds event.runId event.nodeId
    return ()
  | .failed => onNodeFailed env.host event.runId event.nodeId
  | .awaitingInput => onNodeAwaitingInput env event.runId event.nodeId

def dispatchMaxAttempts : ℕ := 10

/-- An event of a batch, with its place and its mark when the batch was locked. -/
structure Delivery where
  index : ℕ
  event : DispatchEvent
  mark : EventMark

def openEvents (project : String) (state : PoolDb) : List Delivery :=
  state.db.events.zipIdx.filterMap fun entry =>
    if (state.marks entry.2).processed = false ∧ entry.2 ∉ state.locked ∧
        (state.db.runs.get? entry.1.runId).any (fun run => run.project = project) then
      some ⟨entry.2, entry.1, state.marks entry.2⟩
    else
      none

def lockBatch (project : String) (state : PoolDb) : PoolDb × List Delivery :=
  let batch := (openEvents project state).take 50
  ({ state with locked := state.locked ++ batch.map Delivery.index }, batch)

def EventMark.retried (mark : EventMark) (text : String) : EventMark where
  processed := decide (dispatchMaxAttempts ≤ mark.attempts + 1)
  attempts := mark.attempts + 1
  error := some (text.take 8000).toString

def EventKind.text : EventKind → String
  | .completed => "completed"
  | .failed => "failed"
  | .awaitingInput => "awaiting_input"

def poisoned (delivery : Delivery) (text : String) (db : Db) : Db :=
  db.updateRun delivery.event.runId fun run =>
    if run.status = .completed ∨ run.status = .failed ∨ run.status = .cancelled then
      run
    else
      { run with
        status := .failed
        finishedAt := some db.now
        error := some ("dispatch callback " ++ env.host.repr (.str delivery.event.kind.text) ++
          " for node " ++ env.host.repr (.str delivery.event.nodeId) ++ " failed after " ++
          toString (delivery.mark.attempts + 1) ++ " attempts: " ++ (text.take 500).toString) }

def settleEvent (delivery : Delivery) (result : Except PyError Unit) (state : PoolDb) : PoolDb :=
  match result with
  | .ok _ =>
    { state with
      marks := Function.update state.marks delivery.index
        { state.marks delivery.index with processed := true } }
  | .error raised =>
    let text := env.exceptionText raised
    let mark := delivery.mark.retried text
    { state with
      marks := Function.update state.marks delivery.index mark
      db := if mark.processed then poisoned env delivery text state.db else state.db }

def runCallbacks (env : PoolEnv) (rounds : ℕ) :
    List Delivery → PoolProg (List (Delivery × Except PyError Unit))
  | [] => return []
  | delivery :: rest => do
    let result ← ((callback env rounds delivery.event).zoom PoolDb.engine).tried
    let others ← runCallbacks env rounds rest
    return (delivery, result) :: others

def commitBatch (ends : List (Delivery × Except PyError Unit)) (state : PoolDb) : PoolDb :=
  let state := ends.foldl (fun state handled => settleEvent env handled.1 handled.2 state) state
  { state with
    locked := state.locked.filter fun index => index ∉ ends.map fun handled => handled.1.index }

def drainDispatchEvents (rounds : ℕ) : PoolProg Unit := do
  let batch ← Prog.exec (lockBatch env.project)
  let ends ← runCallbacks env rounds batch
  Prog.write (commitBatch env ends)

/-! ### The stuck-run sweep -/

def listStuckNodeRunIds (project : String) (db : Db) : List String :=
  (db.runs.entries.filter fun entry =>
    (entry.2.status = .queued ∨ entry.2.status = .running) ∧ entry.2.project = project ∧
      ¬ (db.listJobsForRun entry.1).any fun job => job.2.status.Live).map Prod.fst

def sweepStuckRuns (rounds : ℕ) : PoolProg Unit := do
  let ids ← Prog.read fun state => listStuckNodeRunIds env.project state.db
  Prog.forEach ids fun runId => do
    let _ ← ((reconcileRun env.host rounds runId).zoom PoolDb.engine).tried
    return ()

end BrokerParrot
