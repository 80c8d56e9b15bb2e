import BrokerParrot.Dispatcher

/-!
# The input listener

A user's answer to a parked input node arrives as a row of `workflow_input_submissions`. The
listener of `input_listener.py` polls that table: it claims the rows that wait, and those whose
earlier claimant is presumed dead, resumes the run of each, and marks the row processed or failed.
-/

namespace BrokerParrot

/-! ### JSON columns -/

namespace Value

def ofFloat : PyFloat → Value
  | .finite value => .num value
  | .posInf => .special .infinity
  | .negInf => .special .minusInfinity
  | .nan => .special .nan

def reader : JsonReader Value where
  null := .null
  bool := .bool
  int := fun value => .num value
  float := ofFloat
  str := .str
  list := .list
  dict := .dict

end Value

inductive Column where
  | null
  | jsonb (value : Value)
  | text (raw : String)
  | blob (bytes : ByteArray)

inductive Fetched where
  | value (value : Value)
  | bytes (bytes : ByteArray)

/-- The row decoder keeps text that is no JSON, but not a document that is nested too deep. The
depth is the recursion limit of the interpreter. -/
def Column.fetch (depth : ℕ) : Column → Except PyError Fetched
  | null => .ok (.value .null)
  | jsonb value => .ok (.value value)
  | text raw =>
    match Json.loads Value.reader depth raw with
    | .ok value => .ok (.value value)
    | .error .valueError => .ok (.value (.str raw))
    | .error .recursionError => .error (.runtimeError "maximum recursion depth exceeded")
  | blob bytes => .ok (.bytes bytes)

/-! ### Submissions -/

inductive SubmissionStatus where
  | pending
  | processing
  | processed
  | failed
  deriving DecidableEq, Repr

/-- A row of `workflow_input_submissions`; its key is a number, as that of a node-job row is. -/
structure Submission where
  runId : String
  nodeId : String
  value : Column
  status : SubmissionStatus := .pending
  error : Option String := none
  claimedAt : Option ℚ := none
  createdAt : ℚ
  processedAt : Option ℚ := none

abbrev SubmissionId := ℕ

structure InputDb where
  db : Db
  submissions : Table Submission := Table.empty

def InputDb.engine : Prog.Lens InputDb Db where
  get := InputDb.db
  put := fun db state => { state with db := db }
  get_put := fun _ _ => rfl
  put_get := fun _ => rfl
  put_put := fun _ _ _ => rfl

structure ListenerEnv where
  host : Host
  project : String := ""
  depth : ℕ := 1000
  exceptionText : PyError → String := fun _ => ""

def inputClaimReclaimS : ℚ := 60

def claimLimit : ℕ := 50

namespace Submission

def Claimable (project : String) (state : InputDb) (row : Submission) : Prop :=
  (row.status = .pending ∨
    row.status = .processing ∧
      ∃ claimed ∈ row.claimedAt, claimed < state.db.now - inputClaimReclaimS) ∧
    (state.db.runs.get? row.runId).map Run.project = some project

instance (project : String) (state : InputDb) (row : Submission) :
    Decidable (row.Claimable project state) :=
  inferInstanceAs (Decidable ((_ ∨ _ ∧ _) ∧ _))

end Submission

structure ClaimedSubmission where
  id : SubmissionId
  runId : String
  nodeId : String
  value : Fetched

def ClaimedSubmission.ofRow (depth : ℕ) (id : SubmissionId) (row : Submission) :
    Except PyError ClaimedSubmission :=
  (row.value.fetch depth).map fun value => ⟨id, row.runId, row.nodeId, value⟩

def pendingSubmissions (d : Dialect) (project : String) (locked : SubmissionId → Bool)
    (state : InputDb) : List (SubmissionId × Submission) :=
  let rows := state.submissions.entries.filter fun entry =>
    entry.2.Claimable project state ∧ d.skipLocked locked entry.1 = false
  (rows.mergeSort fun left right => left.2.createdAt ≤ right.2.createdAt).take claimLimit

variable (env : ListenerEnv) (d : Dialect) (host : Host)

/-- One update that returns the rows it claimed. A row that cannot be decoded undoes it. -/
def claimPending (locked : SubmissionId → Bool) (state : InputDb) :
    InputDb × Except PyError (List ClaimedSubmission) :=
  let rows := pendingSubmissions d env.project locked state
  match rows.mapM fun entry => ClaimedSubmission.ofRow env.depth entry.1 entry.2 with
  | .error error => (state, .error error)
  | .ok claimed =>
    ({ state with
        submissions := state.submissions.update fun id row =>
          if id ∈ rows.map Prod.fst then
            { row with status := .processing, claimedAt := some state.db.now }
          else
            row },
      .ok claimed)

def markSubmissionProcessed (id : SubmissionId) (state : InputDb) : InputDb :=
  { state with
    submissions := state.submissions.modify id fun row =>
      { row with status := .processed, processedAt := some state.db.now } }

def markSubmissionFailed (id : SubmissionId) (error : String) (state : InputDb) : InputDb :=
  { state with
    submissions := state.submissions.modify id fun row =>
      { row with status := .failed, processedAt := some state.db.now, error := some error } }

/-! ### Processing a submission -/

def decodeText (depth : ℕ) (text : String) : Value :=
  match Json.loads Value.reader depth text with
  | .ok value => value
  | .error _ => .str text

def submittedValue (depth : ℕ) : Fetched → Except PyError Value
  | .bytes bytes =>
    match String.fromUTF8? bytes with
    | some text => .ok (decodeText depth text)
    | none => .error (.valueError "UnicodeDecodeError")
  | .value (.str text) => .ok (decodeText depth text)
  | .value value => .ok value

def storedDelta (job : NodeJob) (value : Value) : Except PyError Context := do
  let delta ← submittedDelta host job value
  if d.storesJson delta then return delta else throw (.host "unsupported json value")

def completeInput (rounds : ℕ) (runId node : String) (id : JobId) (job : NodeJob) (value : Value) :
    DbProg ℕ := do
  let delta ← Prog.ofExcept (storedDelta d host job value)
  let _ ← Prog.exec (markCompletedInTxn id delta 0 none)
  onNodeCompleted host rounds runId node

/-- `resume_after_input`, with the backend's own check of what it is given to store. -/
def resumeStored (rounds : ℕ) (runId node : String) (value : Value) : DbProg ℕ := do
  let jobs ← jobsByNodeId runId
  match jobs.get? node with
  | none => .raise (.keyError ("no job for " ++ runId ++ ":" ++ node))
  | some (id, job) =>
    if job.status ≠ .awaitingInput ∧ job.status ≠ .queued then
      return 0
    else
      completeInput d host rounds runId node id job value

def finishSubmission (id : SubmissionId) (resumed : Except PyError ℕ) : Prog InputDb PyError Unit :=
  match resumed with
  | .error error => Prog.write (markSubmissionFailed id (env.exceptionText error))
  | .ok _ => Prog.write (markSubmissionProcessed id)

def process (rounds : ℕ) (row : ClaimedSubmission) : Prog InputDb PyError Unit := do
  let value ← Prog.ofExcept (submittedValue env.depth row.value)
  let resumed ←
    ((resumeStored d env.host rounds row.runId row.nodeId value).zoom InputDb.engine).tried
  finishSubmission env row.id resumed

def pollOnce (rounds : ℕ) (locked : SubmissionId → Bool) : Prog InputDb PyError Unit := do
  let claimed ← Prog.exec (claimPending env d locked)
  let rows ← Prog.ofExcept claimed
  Prog.forEach rows (process env d rounds)

end BrokerParrot
