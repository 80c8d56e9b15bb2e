import Mathlib.Data.List.Infix
import BrokerParrot.GpuWorker
import BrokerParrot.InputListener

/-!
# The node executor

`execute_node` takes a claimed row to its end. It looks for a finished row with the same output,
loads the model, resolves the inputs once more, calls the body of the node inside the host's context
manager, and writes the outcome with its event. What the body, the resolver and the host's hooks do
is a parameter: they return anything, or raise anything.
-/

namespace BrokerParrot

namespace NodeExecutor

/-! ### What host code returns and raises -/

def isSurrogate (code : ℕ) : Bool := 0xD800 ≤ code ∧ code ≤ 0xDFFF

variable (d : Dialect)

/-- A text column takes what can be encoded, and on PostgreSQL no NUL character. -/
def storesText (text : PyStr) : Bool :=
  text.all fun code => !isSurrogate code && (d = .sqlite || code ≠ 0)

/-- An exception, or something else that `except Exception` lets through. The exits of the process
are not among it. -/
inductive Thrown where
  | exception (error : PyError)
  | base (name : String)

/-- An object of the host: a JSON value that `json.dumps` can write, or anything else with what
becomes of it, or of the `{}` in place of a false one, in a JSON column. -/
inductive PyObject where
  | json (value : Value)
  | other (encode : Dialect → Except Thrown Value)

def storesValue (value : Value) : Bool :=
  match d with
  | .pg => jsonbAccepts value
  | .sqlite => true

/-- `json.dumps(value or {})`, and what the column makes of it. -/
def PyObject.column : PyObject → Except Thrown Value
  | json value =>
    let value := if value.truthy then value else .dict []
    if storesValue d value then .ok value
    else .error (.exception (.host "unsupported json value"))
  | other encode => encode d

/-- What the body returns, as far as the engine looks at it: a dictionary with a `context_delta`, a
dictionary without one, or no dictionary. -/
inductive NodeResult where
  | delta (get : Except Thrown PyObject)
  | bare (fields : PyObject)
  | other

def NodeResult.contextDelta : NodeResult → Except Thrown PyObject
  | delta get => get
  | bare fields => .ok fields
  | other => .ok (.json (.dict []))

structure NodeCall where
  module : String
  inputs : List (String × PyObject)
  out : Option String
  modelHandle : Option PyObject
  modelLoadSeconds : Option ℚ
  llmServer : Option PyObject

/-- The host's context manager: its entry may hand out a function for the delta, and its exit sees
what was raised and says whether to swallow it. -/
structure InvokeContext where
  enter : Except Thrown (Option (PyObject → Except Thrown PyObject))
  exit : Option Thrown → Except Thrown Bool

def nullcontext : InvokeContext where
  enter := .ok none
  exit := fun _ => .ok false

structure ExecEnv where
  dialect : Dialect
  runNode : NodeCall → Except Thrown NodeResult
  resolveRef : Value → Context → Except Thrown PyObject
  invokeContext : Option (HeldJob → Option Run → Except Thrown InvokeContext) := none
  modelCache : Option (String → Except Thrown PyObject) := none
  statusCallback : Option (Except Thrown Unit) := none
  llmServerResolver : Option (HeldJob → Except Thrown PyObject) := none
  makeDir : String → Except Thrown Unit := fun _ => .ok ()
  exceptionText : PyError → Except Thrown PyStr
  traceback : PyError → PyStr := fun _ => []
  repr : String → PyStr := PyStr.of
  dictOf : Value → Except PyError Context := fun _ => .error (.typeError "object is not iterable")
  maxRetries : ℕ := 3
  seconds : ℚ := 0
  loadSeconds : ℚ := 0
  rssMb : Option ℤ := none

def swallowed {α : Type} : Except Thrown α → Except Thrown Unit
  | .error (.base name) => .error (.base name)
  | _ => .ok ()

/-! ### The tables

A delta that is no dictionary is stored as it is. -/

structure ExecDb where
  db : Db
  odd : JobId → Option Value := fun _ => none

abbrev ExecProg := Prog ExecDb Thrown

namespace ExecDb

def run (runId : String) (state : ExecDb) : Option Run := state.db.runs.get? runId

def delta (state : ExecDb) (id : JobId) (row : NodeJob) : Value :=
  (state.odd id).getD (.dict row.contextDelta)

def unmergeable (state : ExecDb) (entry : JobId × NodeJob) : Bool :=
  entry.2.status = .completed ∧ (state.odd entry.1).isSome ∧ entry.2.nodeId ≠ ""

def refContext (runId : String) (run : Run) (state : ExecDb) : Except PyError Context :=
  let siblings := (state.db.listJobsForRun runId).takeWhile fun entry => !state.unmergeable entry
  let context := if runId = "" then run.context else mergeSiblings run.context siblings
  match (orNull run.outDir).bind state.db.outDirs with
  | none => .ok context
  | some dirs => addFiles context dirs

end ExecDb

/-- `ORDER BY finished_at DESC`: where the column is missing, PostgreSQL puts the row first. -/
def finishedLater : Option ℚ → Option ℚ → Bool
  | some left, some right => right < left
  | none, some _ => d = .pg
  | some _, none => d = .sqlite
  | none, none => false

def latest (d : Dialect) : List (JobId × NodeJob) → Option (JobId × NodeJob)
  | [] => none
  | entry :: rest =>
    match latest d rest with
    | none => some entry
    | some best =>
      if finishedLater d best.2.finishedAt entry.2.finishedAt then some best else some entry

def findCompletedDuplicate (key project : String) (exclude : JobId) (db : Db) :
    Option (JobId × NodeJob) :=
  latest d (db.jobs.entries.filter fun entry =>
    entry.2.dedupKey = some key ∧ entry.2.project = project ∧ entry.2.status = .completed ∧
      entry.1 ≠ exclude)

/-! ### The outcomes -/

section

variable (env : ExecEnv) (job : HeldJob) (text : PyStr)

def writeCompleted (value : Value) (state : ExecDb) : ExecDb × FinaliseResult :=
  let entries := match value with
    | .dict entries => entries
    | _ => []
  let odd := match value with
    | .dict _ => none
    | value => some value
  let (db, result) := BrokerParrot.finaliseCompleted job entries env.seconds env.rssMb state.db
  ({ db := db
     odd := if result = .completed then Function.update state.odd job.id odd else state.odd },
    result)

def finaliseCompleted (delta : PyObject) : ExecProg FinaliseResult := do
  let value ← Prog.ofExcept (delta.column env.dialect)
  Prog.exec (writeCompleted env job value)

def writeFailed (state : ExecDb) : ExecDb × FinaliseResult :=
  let (db, result) := BrokerParrot.finaliseFailed job (text.take 8000).toString env.seconds state.db
  ({ state with db := db }, result)

def finaliseFailed : ExecProg FinaliseResult :=
  if storesText env.dialect (text.take 8000) then
    Prog.exec (writeFailed env job text)
  else
    .raise (.exception (.host "text cannot be stored"))

def gpuErrorMarkers : List String :=
  ["acceleratorerror", "cuda error", "cuda-capable", "cublas", "cudnn", "nvml", "out of memory",
    "device-side assert", "hip error", "rocm error", "busy or unavailable",
    "cudaerrordevicesunavailable", "no cuda-capable device"]

/-- The markers are found in the lower-case text. No letter outside the ASCII range is lowered to
one of theirs. -/
def isTransientGpuError : Bool :=
  let lowered := text.map fun code => if 65 ≤ code ∧ code ≤ 90 then code + 32 else code
  gpuErrorMarkers.any fun marker => PyStr.of marker <:+: lowered

def requeue (state : ExecDb) : ExecDb × Option NodeJob :=
  let (db, row) := requeueJobForRetry job.id state.db
  ({ state with db := db }, row)

def requeueForTransientGpu : ExecProg FinaliseResult := do
  if env.maxRetries ≤ job.row.watchdogRetries then
    finaliseFailed env job text
  else
    match ← Prog.exec (requeue job) with
    | none => finaliseFailed env job text
    | some _ => return .requeued

def recordFailure (short text : PyStr) : ExecProg FinaliseResult :=
  if isTransientGpuError short then
    requeueForTransientGpu env job text
  else
    finaliseFailed env job text

end

/-! ### The parts of `execute_node` -/

section

variable (env : ExecEnv) (job : HeldJob)

def findTwin : ExecProg (Option (JobId × Value)) :=
  match orNull (job.row.dedupKey.map stripped) with
  | none => return none
  | some key => Prog.read fun state =>
    (findCompletedDuplicate env.dialect key job.row.project job.id state.db).map fun twin =>
      (twin.1, state.delta twin.1 twin.2)

def dedupedDelta (twin : JobId × Value) : Except PyError PyObject := do
  let entries ← match twin.2 with
    | .dict entries => .ok entries
    | value => if value.truthy then env.dictOf value else .ok []
  return .json (.dict (OrdDict.insertIn entries "_deduped_from" (.str (toString twin.1))))

def noCacheText (model : String) : PyStr :=
  .of "node " ++ env.repr job.row.nodeId ++ .of " declares required_model " ++
    env.repr model ++ .of " but no model_cache was supplied"

def loadFailedText (short : PyStr) : PyStr := .of "model load failed: " ++ short

def loadModel : ExecProg (FinaliseResult ⊕ Option PyObject) :=
  match cachedModel job.row with
  | none => return .inr none
  | some model =>
    match env.modelCache with
    | none => do
      let result ← finaliseFailed env job (noCacheText env job model)
      return .inl result
    | some require =>
      match require model with
      | .ok handle => do
        Prog.ofExcept (swallowed (env.statusCallback.getD (.ok ())))
        return .inr (some handle)
      | .error (.exception error) => do
        let short ← Prog.ofExcept (env.exceptionText error)
        let result ← recordFailure env job (loadFailedText short) (loadFailedText short)
        return .inl result
      | .error (.base name) => .raise (.base name)

def resolveInput (context : Context) (input : String × Value) :
    Except Thrown (String × PyObject) :=
  match env.resolveRef input.2 context with
  | .ok value => .ok (input.1, value)
  | .error (.exception (.keyError _)) => .ok (input.1, .json input.2)
  | .error thrown => .error thrown

def resolveInputs (context : Except PyError Context) :
    Except Thrown (List (String × PyObject)) := do
  let context ← context.mapError .exception
  job.row.inputs.mapM (resolveInput env context)

def resolveInputsForJob : ExecProg (List (String × PyObject)) := do
  if isInputModule job.row.nodeModule then
    return job.row.inputs.map fun input => (input.1, .json input.2)
  match ← Prog.read (ExecDb.run job.row.runId) with
  | none => Prog.ofExcept (resolveInputs env job (.ok []))
  | some run =>
    let context ← Prog.read (ExecDb.refContext job.row.runId run)
    Prog.ofExcept (resolveInputs env job context)

/-- The snapshot of the inputs is best effort; its column is read by nobody. -/
def setResolvedInputs (inputs : List (String × PyObject)) : Except Thrown Unit :=
  swallowed (inputs.mapM fun input => input.2.column env.dialect)

def contextFor (run : Option Run) : Except Thrown InvokeContext :=
  match env.invokeContext with
  | none => .ok nullcontext
  | some make => make job run

def llmServer : Except Thrown (Option PyObject) :=
  match isClusterReservation job.row, env.llmServerResolver with
  | false, some resolve => (resolve job).map some
  | _, _ => .ok none

def outDirFor (run : Option Run) : Except Thrown (Option String) :=
  match orNull (run.bind Run.outDir) with
  | none => .ok none
  | some base => do
    env.makeDir (base ++ "/" ++ job.row.nodeId)
    return some (base ++ "/" ++ job.row.nodeId)

def invoke (run : Option Run) (inputs : List (String × PyObject)) (handle : Option PyObject) :
    Except Thrown NodeResult := do
  let server ← llmServer env job
  let out ← outDirFor env job run
  env.runNode
    { module := job.row.nodeModule
      inputs := inputs
      out := out
      modelHandle := handle
      modelLoadSeconds := handle.map fun _ => env.loadSeconds
      llmServer := server }

def finalized (finalize : Option (PyObject → Except Thrown PyObject)) (result : NodeResult) :
    Except Thrown PyObject := do
  let delta ← result.contextDelta
  match finalize with
  | none => return delta
  | some finalize => finalize delta

def settle (finalize : Option (PyObject → Except Thrown PyObject))
    (invoked : Except Thrown NodeResult) : ExecProg FinaliseResult :=
  match invoked with
  | .ok result => do
    let delta ← Prog.ofExcept (finalized finalize result)
    finaliseCompleted env job delta
  | .error (.exception error) => do
    let short ← Prog.ofExcept (env.exceptionText error)
    recordFailure env job short (short ++ .of "\n" ++ env.traceback error)
  | .error (.base name) => .raise (.base name)

def leave (exit : Option Thrown → Except Thrown Bool) :
    Except Thrown FinaliseResult → ExecProg (Option FinaliseResult)
  | .ok result => do
    let _ ← Prog.ofExcept (exit none)
    return some result
  | .error thrown => do
    let suppressed ← Prog.ofExcept (exit (some thrown))
    if suppressed then return none else .raise thrown

def runBody (run : Option Run) (handle : Option PyObject) (inputs : List (String × PyObject)) :
    ExecProg (Option FinaliseResult) := do
  Prog.ofExcept (setResolvedInputs env inputs)
  let context ← Prog.ofExcept (contextFor env job run)
  let finalize ← Prog.ofExcept context.enter
  let outcome ← (settle env job finalize (invoke env job run inputs handle)).tried
  leave context.exit outcome

def completeDeduped (twin : JobId × Value) : ExecProg (Option FinaliseResult) := do
  let delta ← Prog.ofExcept ((dedupedDelta env twin).mapError .exception)
  let result ← finaliseCompleted env job delta
  return some result

def executeLoaded (run : Option Run) :
    FinaliseResult ⊕ Option PyObject → ExecProg (Option FinaliseResult)
  | .inl result => return some result
  | .inr handle => do
    let inputs ← resolveInputsForJob env job
    runBody env job run handle inputs

def executeNode : ExecProg (Option FinaliseResult) := do
  let run ← Prog.read (ExecDb.run job.row.runId)
  match ← findTwin env job with
  | some twin => completeDeduped env job twin
  | none =>
    let loaded ← loadModel env job
    executeLoaded env job run loaded

end

end NodeExecutor

end BrokerParrot
