import BrokerParrot.ServerContext

/-!
# Bringing the vLLM sidecar up on a requested model

The model of the sidecar stands on its command line. To switch it, the container is replaced by one
whose `--model` is the requested one.
-/

namespace BrokerParrot

namespace VllmSidecar

def modelFlag : String := "--model"

structure SidecarSpec where
  name : String
  running : Bool
  argv : List String
  image : String

inductive SidecarError where
  | api (error : ApiError)
  | runtimeError (text : String)

def currentModel (argv : List String) : Option String := argvFlag modelFlag argv

def replaceModel (model : String) : List String → Option (List String)
  | [] => none
  | [token] => (assignedValue modelFlag token).map fun _ => [modelFlag ++ "=" ++ model]
  | token :: next :: rest =>
    if token = modelFlag then
      some (token :: model :: rest)
    else
      match assignedValue modelFlag token with
      | some _ => some ((modelFlag ++ "=" ++ model) :: next :: rest)
      | none => (replaceModel model (next :: rest)).map (token :: ·)

def desiredArgv (argv : List String) (model : String) : List String :=
  (replaceModel model argv).getD (argv ++ [modelFlag, model])

def recreatePayload (inspected : Container) (argv : List String) : CreateBody :=
  BrokerParrot.recreatePayload inspected (some argv) none none

abbrev SidecarProg := Prog DockerWorld SidecarError

def api (request : DockerRequest) : SidecarProg DockerReply := do
  match ← (dockerApi request).tried with
  | .ok reply => return reply
  | .error error => Prog.raise (.api error)

variable (text : LeverText)

def failure (what name : String) (reply : DockerReply) : SidecarError :=
  .runtimeError ((what ++ " " ++ text.repr (.str name) ++ ": " ++ toString reply.status ++ " " ++
    text.repr reply.body.value).take 300).toString

def dockerInspectSidecar (name : String) : SidecarProg (Option SidecarSpec) := do
  let reply ← api (.inspect name)
  if reply.status = 404 then
    return none
  else if 400 ≤ reply.status ∨ reply.body.isDict = false then
    Prog.raise (.runtimeError (("docker inspect " ++ text.repr (.str name) ++ " failed: " ++
      toString reply.status ++ " " ++ text.repr reply.body.value).take 300).toString)
  else
    let inspected := reply.body.inspected
    return some ⟨name, inspected.running, inspected.config.cmd, inspected.config.image⟩

def dockerRecreateSidecar (spec : SidecarSpec) (argv : List String) : SidecarProg Unit := do
  let reply ← api (.inspect spec.name)
  if 400 ≤ reply.status ∨ reply.body.isDict = false then
    Prog.raise (.runtimeError ("docker inspect " ++ text.repr (.str spec.name) ++ " failed: " ++
      toString reply.status))
  else
    let payload := recreatePayload reply.body.inspected argv
    let _ ← api (.stop spec.name 10)
    let removed ← api (.remove spec.name)
    if 400 ≤ removed.status ∧ removed.status ≠ 404 then
      Prog.raise (failure text "could not remove sidecar" spec.name removed)
    else
      let created ← api (.create spec.name payload)
      if 400 ≤ created.status then
        Prog.raise (failure text "could not create sidecar" spec.name created)
      else
        let started ← api (.start spec.name)
        if 400 ≤ started.status ∧ started.status ≠ 304 then
          Prog.raise (failure text "could not start sidecar" spec.name started)
        else
          return ()

/-- Make the sidecar serve the model, and say whether anything had to be done. A stopped one is
brought up also when its tokens name the model already. -/
def ensureSidecar (model : String) (inspect : SidecarProg (Option SidecarSpec))
    (recreate : SidecarSpec → List String → SidecarProg Unit) : SidecarProg Bool := do
  match ← inspect with
  | none =>
    Prog.raise (.runtimeError ("no vLLM sidecar found to bring up — cannot serve " ++
      text.repr (.str model) ++ "; wire EngineConfig.vllm_start_fn or deploy the sidecar"))
  | some spec =>
    if spec.running ∧ currentModel spec.argv = some model then
      return false
    else
      recreate spec (desiredArgv spec.argv model)
      return true

def defaultEnsureUpFn (name model : String) : SidecarProg Unit := do
  let _ ← ensureSidecar text model (dockerInspectSidecar text name) (dockerRecreateSidecar text)
  return ()

end VllmSidecar

end BrokerParrot
