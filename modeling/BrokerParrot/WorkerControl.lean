import BrokerParrot.Fleet

/-!
# Worker controls

`worker_control.py`: what an operator asks of a worker. A row of `worker_controls` holds two things
that are written apart, whether the worker is on or off and which LLM server its machine runs. A row
is addressed to the label of one worker or to the name of its whole box; a worker reads the row of
its own label, and the row of its box only when it has none.
-/

namespace BrokerParrot

inductive ServerKind where
  | ollama
  | vllm
  deriving DecidableEq, Repr

namespace ServerKind

def text : ServerKind → String
  | ollama => "ollama"
  | vllm => "vllm"

def ofText (text : String) : Option ServerKind :=
  if text = "ollama" then some ollama else if text = "vllm" then some vllm else none

end ServerKind

def DesiredState.ofText (text : String) : Option DesiredState :=
  if text = "on" then some .on else if text = "off" then some .off else none

structure LlmConfig where
  serverType : ServerKind := .ollama
  parallelism : ℤ := 1
  vllmIdleTtlS : ℤ := 60
  deriving DecidableEq

structure WorkerControl where
  desiredState : DesiredState := .on
  stopPolicy : String := "hard"
  requestedBy : Option String := none
  updatedAt : ℚ := 0
  llm : LlmConfig := {}

abbrev WorkerControls := OrdDict WorkerKey WorkerControl

/-- `INSERT ... ON CONFLICT DO UPDATE`: the columns that are not named keep their value, and have
their default in a new row. -/
def WorkerControls.upsert (controls : WorkerControls) (key : WorkerKey)
    (set : WorkerControl → WorkerControl) : WorkerControls :=
  controls.insert key (set ((controls.get? key).getD {}))

def stopPolicies : List String := ["hard", "drain"]

section

variable (repr : String → String)

def setWorkerControl (key : WorkerKey) (desiredState stopPolicy : String)
    (requestedBy : Option String) (now : ℚ) (controls : WorkerControls) :
    Except PyError WorkerControls :=
  match DesiredState.ofText desiredState with
  | none =>
    .error (.valueError ("desired_state must be in ['off', 'on'], got " ++ repr desiredState))
  | some state =>
    if stopPolicy ∉ stopPolicies then
      .error (.valueError ("stop_policy must be a registered policy ['drain', 'hard'], got " ++
        repr stopPolicy ++ " (register a handler in worker_control.STOP_POLICIES)"))
    else
      .ok (controls.upsert key fun row =>
        { row with
          desiredState := state
          stopPolicy := stopPolicy
          requestedBy := requestedBy
          updatedAt := now })

structure LlmEdit where
  serverType : Option String := none
  parallelism : Option ℤ := none
  vllmIdleTtlS : Option ℤ := none

def setLlmConfig (key : WorkerKey) (edit : LlmEdit) (now : ℚ) (controls : WorkerControls) :
    Except PyError WorkerControls :=
  if edit.serverType.any fun text => (ServerKind.ofText text).isNone then
    .error (.valueError ("server_type must be in ['ollama', 'vllm'], got " ++
      repr (edit.serverType.getD "")))
  else if edit.parallelism.any (· < 1) then
    .error (.valueError ("parallelism must be >= 1, got " ++ toString (edit.parallelism.getD 1)))
  else if edit.vllmIdleTtlS.any (· < 0) then
    .error (.valueError ("vllm_idle_ttl_s must be >= 0, got " ++
      toString (edit.vllmIdleTtlS.getD 0)))
  else
    .ok (controls.upsert key fun row =>
      { row with
        updatedAt := now
        llm :=
          { serverType := (edit.serverType.bind ServerKind.ofText).getD row.llm.serverType
            parallelism := edit.parallelism.getD row.llm.parallelism
            vllmIdleTtlS := edit.vllmIdleTtlS.getD row.llm.vllmIdleTtlS } })

end

/-! ### The lookup -/

/-- `text.rpartition(sep)` for a text that has the separator: what stands before its last one, and
what stands after it. -/
def rpartition (sep : Char) (text : List Char) : Option (List Char × List Char) :=
  match text.reverse.dropWhile (· ≠ sep) with
  | [] => none
  | _ :: before => some (before.reverse, (text.reverse.takeWhile (· ≠ sep)).reverse)

def boxAddress (label : String) : Option String :=
  match rpartition '-' label.toList with
  | some (base, tail) => if base ≠ [] ∧ tail ≠ [] then some (String.ofList base) else none
  | none => none

namespace WorkerControls

/-- The row that governs a worker: that of its label, else that of its box. -/
def getWorkerControl (controls : WorkerControls) (worker : WorkerKey) : Option WorkerControl :=
  (controls.get? worker).or
    ((boxAddress worker.hostLabel).bind fun box => controls.get? { worker with hostLabel := box })

def desiredStateFor (controls : WorkerControls) (worker : WorkerKey) : DesiredState :=
  match controls.getWorkerControl worker with
  | some row => if row.desiredState = .off then .off else .on
  | none => .on

def llmConfigFor (controls : WorkerControls) (worker : WorkerKey) : LlmConfig :=
  match controls.getWorkerControl worker with
  | some row => row.llm
  | none => {}

end WorkerControls

def Fleet.withControls (fleet : Fleet) (controls : WorkerControls) : Fleet :=
  { fleet with controls := controls.mapValues WorkerControl.desiredState }

end BrokerParrot
