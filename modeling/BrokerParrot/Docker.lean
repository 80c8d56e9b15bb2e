import BrokerParrot.Lib.Prog
import BrokerParrot.Lib.PyValue

/-!
# The docker daemon of a box

A container is what an inspection shows of it, without the runtime state that the daemon assigns
itself. A key that is absent means the same to the daemon as an empty one.

Every call can fail. Then the daemon is as it was, and the caller gets an error status or an
exception.
-/

namespace BrokerParrot

structure Endpoint where
  ipamConfig : PyValue := .none
  links : List String := []
  aliases : List String := []
  driverOpts : PyValue := .none
  macAddress : String := ""

structure ContainerConfig where
  image : String
  cmd : List String := []
  env : List String := []
  labels : OrdDict String String := OrdDict.empty
  exposedPorts : PyValue := .none
  entrypoint : Option (List String) := none
  workingDir : String := ""

structure HostConfig where
  networkMode : String := ""
  rest : PyValue := .none

structure Container where
  id : String
  config : ContainerConfig
  hostConfig : HostConfig := {}
  running : Bool := false
  networks : OrdDict String Endpoint := OrdDict.empty

structure CreateBody where
  config : ContainerConfig
  hostConfig : HostConfig
  endpoint : Option (String × Endpoint)

inductive DockerRequest where
  | inspect (name : String)
  | stop (name : String) (seconds : ℕ)
  | remove (name : String)
  | create (name : String) (body : CreateBody)
  | connect (network name : String) (endpoint : Endpoint)
  | start (name : String)

inductive DockerBody where
  | container (inspected : Container)
  | json (value : PyValue)

namespace DockerBody

def isDict : DockerBody → Bool
  | container _ => true
  | json (.dict _) => true
  | json _ => false

/-- The container of an inspection. Another dictionary has none of its fields. -/
def inspected : DockerBody → Container
  | container inspected => inspected
  | json _ => { id := "", config := { image := "" } }

def value : DockerBody → PyValue
  | container _ => .none
  | json value => value

end DockerBody

structure DockerReply where
  status : ℕ
  body : DockerBody

/-! ### The daemon -/

structure Daemon where
  containers : OrdDict String Container
  ids : ℕ → String := fun _ => ""
  created : ℕ := 0

def sharesContainer (mode : String) : Bool := "container:".toList.isPrefixOf mode.toList

/-- Where a container is attached whose create names no endpoint. -/
def modeNetworks (mode : String) : OrdDict String Endpoint :=
  if sharesContainer mode then
    OrdDict.empty
  else
    OrdDict.empty.insert (if mode = "" ∨ mode = "default" then "bridge" else mode) {}

def CreateBody.build (body : CreateBody) (id : String) : Container where
  id := id
  config := body.config
  hostConfig := body.hostConfig
  networks :=
    match body.endpoint with
    | some (network, endpoint) => OrdDict.empty.insert network endpoint
    | none => modeNetworks body.hostConfig.networkMode

namespace Daemon

def noContent (status : ℕ) : DockerReply := ⟨status, .json .none⟩

def noSuchContainer (name : String) : DockerReply :=
  ⟨404, .json (.dict [("message", .str ("No such container: " ++ name))])⟩

def put (daemon : Daemon) (name : String) (container : Container) : Daemon :=
  { daemon with containers := daemon.containers.insert name container }

/-- A call that is carried out. To stop what is stopped, or start what runs, is no error. -/
def handle (daemon : Daemon) : DockerRequest → Daemon × DockerReply
  | .inspect name =>
    match daemon.containers.get? name with
    | none => (daemon, noSuchContainer name)
    | some container => (daemon, ⟨200, .container container⟩)
  | .stop name _ =>
    match daemon.containers.get? name with
    | none => (daemon, noSuchContainer name)
    | some container =>
      if container.running then
        (daemon.put name { container with running := false }, noContent 204)
      else
        (daemon, noContent 304)
  | .remove name =>
    match daemon.containers.get? name with
    | none => (daemon, noSuchContainer name)
    | some _ => ({ daemon with containers := daemon.containers.erase name }, noContent 204)
  | .create name body =>
    match daemon.containers.get? name with
    | none =>
      let id := daemon.ids daemon.created
      ({ daemon.put name (body.build id) with created := daemon.created + 1 },
        ⟨201, .json (.dict [("Id", .str id)])⟩)
    | some _ =>
      (daemon, ⟨409, .json (.dict [("message", .str ("Conflict. The container name \"/" ++
        name ++ "\" is already in use"))])⟩)
  | .connect network name endpoint =>
    match daemon.containers.get? name with
    | none => (daemon, noSuchContainer name)
    | some container =>
      (daemon.put name
        { container with networks := container.networks.insert network endpoint },
        noContent 200)
  | .start name =>
    match daemon.containers.get? name with
    | none => (daemon, noSuchContainer name)
    | some container =>
      if container.running then
        (daemon, noContent 304)
      else
        (daemon.put name { container with running := true }, noContent 204)

end Daemon

/-! ### Calls that can fail -/

structure ApiError where
  noSocket : Bool
  typeName : String
  text : String

inductive DockerFault where
  | status (code : ℕ) (herror : 400 ≤ code) (body : PyValue)
  | raise (error : ApiError)

structure DockerWorld where
  daemon : Daemon
  faults : ℕ → Option DockerFault := fun _ => none
  calls : ℕ := 0

def DockerWorld.healthy (daemon : Daemon) (calls : ℕ := 0) : DockerWorld where
  daemon := daemon
  calls := calls

def DockerWorld.answer (request : DockerRequest) (world : DockerWorld) :
    DockerWorld × Except ApiError DockerReply :=
  match world.faults world.calls with
  | none =>
    ({ world with daemon := (world.daemon.handle request).1, calls := world.calls + 1 },
      .ok (world.daemon.handle request).2)
  | some (.status code _ body) => ({ world with calls := world.calls + 1 }, .ok ⟨code, .json body⟩)
  | some (.raise error) => ({ world with calls := world.calls + 1 }, .error error)

abbrev DockerProg := Prog DockerWorld ApiError

def dockerApi (request : DockerRequest) : DockerProg DockerReply := do
  let result ← Prog.exec (DockerWorld.answer request)
  Prog.ofExcept result

/-! ### The log of a container -/

def startsFrame (raw : List UInt8) : Bool :=
  raw.take 1 ∈ [[0], [1], [2]] ∧ (raw.drop 1).take 3 = [0, 0, 0]

def fromBytesBig (bytes : List UInt8) : ℕ :=
  bytes.foldl (fun value byte => 256 * value + byte.toNat) 0

def frameSize (raw : List UInt8) : ℕ := fromBytesBig ((raw.drop 4).take 4)

def demuxFrames (raw : List UInt8) : List UInt8 :=
  if raw.length < 8 then
    []
  else if startsFrame raw then
    (raw.drop 8).take (frameSize raw) ++ demuxFrames (raw.drop (8 + frameSize raw))
  else
    raw
  termination_by raw.length

/-- `decode` is the decoding of a text with replacement. -/
def demuxStream (decode : List UInt8 → String) (raw : List UInt8) : String :=
  if raw = [] then
    ""
  else if raw.length < 8 ∨ startsFrame raw = false then
    decode raw
  else
    decode (demuxFrames raw)

end BrokerParrot
