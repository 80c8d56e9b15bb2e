import Mathlib.Data.List.Infix
import BrokerParrot.ServerContext
import BrokerParrot.ServerSwitch

/-!
# The lever that changes a server's window

The lever replaces the box's container by one with another window: it stops and removes the old one,
creates its replacement under the same name, connects the networks that did not fit in the create,
and starts it.
-/

namespace BrokerParrot

structure LeverEnv where
  text : LeverText
  getenv : String → Option String := fun _ => none
  socket : String := "/var/run/docker.sock"
  disabled : Bool := false

def disableEnv : String := "QUEUE_WORKFLOWS_DISABLE_LLM_CONTEXT_SWITCH"

def containerEnv : ServerKind → String
  | .ollama => "QUEUE_WORKFLOWS_OLLAMA_CONTAINER"
  | .vllm => "QUEUE_WORKFLOWS_VLLM_CONTAINER"

def defaultContainer : ServerKind → String
  | .ollama => "broker-ollama"
  | .vllm => "vllm"

variable (env : LeverEnv)

def containerName (kind : ServerKind) : String :=
  let name := stripped ((env.getenv (containerEnv kind)).getD "")
  if name = "" then defaultContainer kind else name

/-! ### Replies and verdicts -/

def DockerReply.text (env : LeverEnv) (reply : DockerReply) : String :=
  reply.body.value.toStr env.text.python

def DockerReply.mentions (reply : DockerReply) (words : String) : Bool :=
  decide (words.toList <:+: (reply.text env).toList.map Char.toLower)

def permanentHttp : List ℕ := [400, 403, 404, 409, 501]

def classifyHttp (code : ℕ) (detail : String) : StartOutcome :=
  if code ∈ permanentHttp then ⟨.permanent, detail⟩ else ⟨.transient, detail⟩

def classifyException (error : ApiError) : StartOutcome :=
  if error.noSocket then
    ⟨.permanent, "no usable docker socket at " ++ env.socket ++ " (" ++ error.typeName ++
      ") — the LLM context lever cannot change a container's window; bind-mount it on the " ++
      "worker to enable it"⟩
  else
    ⟨.transient, error.typeName ++ ": " ++ error.text⟩

def httpDetail (what name : String) (reply : DockerReply) : String :=
  ((what ++ " " ++ env.text.repr (.str name) ++ ": HTTP " ++ toString reply.status ++ " " ++
    env.text.repr reply.body.value).take 300).toString

def detached (inspected : Container) : Bool :=
  !exclusiveMode inspected.hostConfig.networkMode && inspected.networks.isEmpty

/-! ### Starts -/

def stopQuietly (name : String) : DockerProg Unit := do
  let _ ← (dockerApi (.stop name 5)).tried
  return ()

def boundPort : List Char → Option (List Char)
  | [] => none
  | first :: rest =>
    let words := "Bind for ".toList
    let tail := (first :: rest).drop words.length
    let port := ((tail.dropWhile (· ≠ ':')).drop 1).takeWhile Char.isDigit
    if words.isPrefixOf (first :: rest) ∧ tail.takeWhile (· ≠ ':') ≠ [] ∧ port ≠ [] then
      some port
    else
      boundPort rest

/-- A start that failed for good. The process can be left running without an endpoint, so it is
stopped first. -/
def classifyStartFailure (name : String) (reply : DockerReply) : DockerProg StartOutcome := do
  stopQuietly name
  let text := reply.text env
  if reply.mentions env "connectivity" ∨ reply.mentions env "already allocated" then
    return ⟨.permanent, "could not start " ++ env.text.repr (.str name) ++ ": host port " ++
      ((boundPort text.toList).map String.ofList).getD "?" ++ " is held by another container (" ++
      (text.take 160).toString ++ ") — free the port or move one of them"⟩
  else
    return classifyHttp reply.status (httpDetail env "could not start" name reply)

def startRaceRetries : ℕ := 3

def startWithPortRaceRetry (env : LeverEnv) (name : String) : ℕ → DockerProg DockerReply
  | 0 => dockerApi (.start name)
  | retries + 1 => do
    let reply ← dockerApi (.start name)
    if 400 ≤ reply.status ∧ reply.mentions env "connectivity" then
      startWithPortRaceRetry env name retries
    else
      return reply

def startContainer (name reason : String) : DockerProg StartOutcome := do
  let reply ← startWithPortRaceRetry env name startRaceRetries
  if 400 ≤ reply.status ∧ reply.status ≠ 304 then
    classifyStartFailure env name reply
  else
    return ⟨.started, reason⟩

def verdictOf (prog : DockerProg StartOutcome) : DockerProg StartOutcome := do
  match ← prog.tried with
  | .ok verdict => return verdict
  | .error error => return classifyException env error

/-! ### The lever -/

def keepContainer (name : String) (inspected : Container) (request : WindowRequest) :
    DockerProg StartOutcome := do
  if inspected.running then
    if detached inspected then
      stopQuietly name
      return ⟨.permanent, name ++ " was running without a network endpoint (NetworkMode " ++
        env.text.repr (.str inspected.hostConfig.networkMode) ++
        ", attached to nothing) — stopped it; the next start recreates it"⟩
    else
      return ⟨.alreadyRunning, name ++ " is already configured for " ++
        (request.contextLength.map toString).getD "its default" ++ " context"⟩
  else
    verdictOf env (startContainer env name (name ++ " started as configured"))

def createReplacement (name : String) (plan : ContextPlan) : DockerProg StartOutcome := do
  let created ← dockerApi (.create name plan.payload)
  if 400 ≤ created.status then
    return classifyHttp created.status (httpDetail env "could not create" name created)
  else
    -- A network that cannot be connected is only logged.
    Prog.forEach plan.connect fun entry => do
      let _ ← dockerApi (.connect entry.1 name entry.2)
      return ()
    startContainer env name (name ++ " recreated for a " ++
      (plan.target.map toString).getD "default" ++ "-token window")

def replaceContainer (name : String) (plan : ContextPlan) : DockerProg StartOutcome := do
  let _ ← dockerApi (.stop name 10)
  let removed ← dockerApi (.remove name)
  if 400 ≤ removed.status ∧ removed.status ≠ 404 then
    return classifyHttp removed.status (httpDetail env "could not remove" name removed)
  else
    createReplacement env name plan

def dockerSetContext (kind : ServerKind) (request : WindowRequest) : DockerProg StartOutcome := do
  let name := containerName env kind
  match ← (dockerApi (.inspect name)).tried with
  | .error error => return classifyException env error
  | .ok reply =>
    if reply.status = 404 ∨ reply.body.isDict = false then
      return ⟨.permanent, "no container named " ++ env.text.repr (.str name) ++
        " on this box — the LLM context lever has nothing to recreate (set " ++
        containerEnv kind ++ " if it is named differently)"⟩
    else if 400 ≤ reply.status then
      return classifyHttp reply.status ("inspect " ++ env.text.repr (.str name) ++ ": HTTP " ++
        toString reply.status)
    else
      match planContext env.text reply.body.inspected kind request with
      | none => keepContainer env name reply.body.inspected request
      | some plan => verdictOf env (replaceContainer env name plan)

abbrev HostLever := ServerKind → Option ℤ → Except (String × String) LeverReturn

def setContext (hostLever : Option HostLever) (kind : ServerKind) (request : WindowRequest) :
    DockerProg LeverReturn := do
  if env.disabled then
    return .outcome ⟨.permanent, "LLM context switching is disabled (" ++ disableEnv ++ ")"⟩
  else
    match hostLever with
    | some lever =>
      match lever kind request.contextLength with
      | .error (typeName, text) => return .outcome ⟨.transient, typeName ++ ": " ++ text⟩
      | .ok (.record status reason) => return .record status reason
      | .ok value => return .outcome (StartOutcome.coerce value)
    | none =>
      let verdict ← dockerSetContext env kind request
      return .outcome verdict

end BrokerParrot
