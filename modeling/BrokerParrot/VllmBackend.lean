import BrokerParrot.Claim

/-!
# The vLLM backend

`llm_backends/vllm.py`: the backend remembers which model it believes its sidecar to serve, and
decides by that belief whether a request finds its model served, needs a switch or a cold start. The
sidecar itself is started, killed and restarted by others too, so its state stands beside the
backend's. Its probes tell the truth here: it is healthy when it is up, and then it names its model.
-/

namespace BrokerParrot

namespace VllmBackend

inductive VLLMState where
  | dead
  | loading
  | serving
  | sleepingL2
  | reloading
  | unsupportedSleep
  deriving DecidableEq, Repr

structure VLLMBackend where
  servedModel : Option String
  state : VLLMState
  sleepUnsupported : Bool
  deriving DecidableEq, Repr

def VLLMBackend.init (servedModel : Option String) : VLLMBackend :=
  { servedModel := servedModel
    state := if servedModel.isSome then .serving else .dead
    sleepUnsupported := false }

abbrev ModelName := { name : String // name ≠ "" }

/-- The backend, and the model that the sidecar serves while it is up. -/
structure World where
  backend : VLLMBackend
  server : Option ModelName
  deriving DecidableEq

def World.healthy (world : World) : Bool := world.server.isSome

def World.probed (world : World) : Option String := world.server.map Subtype.val

/-- How the outside answers the calls of one request: what each call leaves as the server, and
whether it raises. -/
structure Answers where
  killed : Option ModelName
  killRaises : Bool := false
  broughtUp : Option ModelName
  bringUpRaises : Bool := false
  polls : List (Option ModelName) := []

inductive ReadyError where
  | call
  | timeout
  | servesOther (observed model : String)
  deriving DecidableEq, Repr

structure Outcome where
  killCalled : Bool
  error : Option ReadyError
  deriving DecidableEq, Repr

def doStopLocked (answers : Answers) (world : World) : World :=
  if answers.killRaises then
    { world with server := answers.killed }
  else
    { backend := { world.backend with state := .dead, servedModel := none }
      server := answers.killed }

/-- The attempt of the fast path. `_sleep_l2_reload` is a stub that always raises, and that is
remembered. -/
def trySleepL2 (backend : VLLMBackend) : VLLMBackend :=
  if backend.sleepUnsupported then
    { backend with state := .reloading }
  else
    { backend with state := .unsupportedSleep, sleepUnsupported := true }

def awaitHealth : Option ModelName → List (Option ModelName) → Option ModelName
  | some served, _ => some served
  | none, [] => none
  | none, next :: rest => awaitHealth next rest

/-- The served model is reconciled with the probe. Another one than the requested is an error. -/
def reconcile (model : String) (killCalled : Bool) (world : World) : World × Outcome :=
  let observed := (orNull world.probed).getD model
  ({ world with backend := { world.backend with servedModel := some observed, state := .serving } },
    { killCalled := killCalled
      error := if observed = model then none else some (.servesOther observed model) })

def bringUp (model : String) (answers : Answers) (killCalled : Bool) (world : World) :
    World × Outcome :=
  let loading := { world.backend with state := .loading }
  if answers.bringUpRaises then
    ({ backend := loading, server := answers.broughtUp }, ⟨killCalled, some .call⟩)
  else
    match awaitHealth answers.broughtUp answers.polls with
    | none => ({ backend := loading, server := none }, ⟨killCalled, some .timeout⟩)
    | some served => reconcile model killCalled { backend := loading, server := some served }

def ensureReady (model : String) (answers : Answers) (world : World) : World × Outcome :=
  if world.healthy then
    if world.backend.servedModel = some model then
      -- warm hit
      ({ world with backend := { world.backend with state := .serving } }, ⟨false, none⟩)
    else
      -- switch
      let stopped := doStopLocked answers { world with backend := trySleepL2 world.backend }
      if answers.killRaises then
        (stopped, ⟨true, some .call⟩)
      else
        bringUp model answers true stopped
  else
    bringUp model answers false world

def stopServer (answers : Answers) (world : World) : World :=
  if world.backend.state = .dead && !world.healthy then
    world
  else
    doStopLocked answers world

inductive Event where
  | ensureReady (model : String) (answers : Answers)
  | stopServer (answers : Answers)
  | restart (server : Option ModelName)

def step (world : World) : Event → World
  | .ensureReady model answers => (VllmBackend.ensureReady model answers world).1
  | .stopServer answers => VllmBackend.stopServer answers world
  | .restart server => { world with server := server }

end VllmBackend

end BrokerParrot
