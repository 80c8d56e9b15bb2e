import BrokerParrot.Claim

/-!
# The agent of a box

`box_agent.py`: one agent per box starts and stops the lanes of its manifest so that they match the
rows of `worker_controls`. It keeps a map from the key of a lane to the process it started for it.
-/

namespace BrokerParrot

namespace BoxAgent

/-! ### What the controls want -/

structure Lane where
  key : String
  project : String
  queue : String
  deriving DecidableEq, Repr

structure LaneEntry extends Lane where
  controlDsn : Option String
  deriving DecidableEq, Repr

structure Manifest where
  entries : List LaneEntry
  nodupKeys : (entries.map fun entry => entry.key).Nodup

variable (manifest : Manifest)

def Manifest.lanes : List Lane := manifest.entries.map LaneEntry.toLane

structure ControlRow where
  hostLabel : String
  queue : String
  project : String
  desiredState : String
  deriving DecidableEq, Repr

def hostMatches (rowHost box : String) : Bool :=
  rowHost = box || (box ++ "-").toList.isPrefixOf rowHost.toList

def parks (box : String) (lane : Lane) (row : ControlRow) : Bool :=
  row.desiredState = "off" && hostMatches row.hostLabel box &&
    (lane.queue = row.queue && (row.project = "" || row.project = lane.project))

def allOn (lanes : List Lane) : OrdDict String Bool :=
  lanes.foldl (fun desired lane => desired.insert lane.key true) OrdDict.empty

def applyRow (box : String) (lanes : List Lane) (desired : OrdDict String Bool)
    (row : ControlRow) : OrdDict String Bool :=
  lanes.foldl
    (fun desired lane => if parks box lane row then desired.insert lane.key false else desired)
    desired

def desiredFromControls (rows : List ControlRow) (box : String) (lanes : List Lane) :
    OrdDict String Bool :=
  rows.foldl (applyRow box lanes) (allOn lanes)

def Manifest.dsns : List String :=
  (manifest.entries.filterMap fun entry => orNull entry.controlDsn).eraseDups

/-- The rows of each control database. One that cannot be read contributes none. -/
abbrev Controls := String → Option (List ControlRow)

def fetchControls (controls : Controls) : List ControlRow :=
  manifest.dsns.flatMap fun dsn => (controls dsn).getD []

def wantsOn (desired : OrdDict String Bool) (lane : Lane) : Bool :=
  (desired.get? lane.key).getD true

def reconcile (lanes : List Lane) (desired : OrdDict String Bool) (running : String → Bool) :
    List Lane × List Lane :=
  (lanes.filter fun lane => wantsOn desired lane && !running lane.key,
    lanes.filter fun lane => !wantsOn desired lane && running lane.key)

/-! ### Processes -/

/-- The agent's own map, and the world: which of the processes that were started for a lane are
alive, and the number that the next one gets. -/
structure State where
  procs : OrdDict String ℕ := OrdDict.empty
  live : String → List ℕ := fun _ => []
  next : ℕ := 0

structure Faults where
  spawn : String → Bool := fun _ => false
  kill : String → Bool := fun _ => false

namespace State

def prune (state : State) : State :=
  { state with procs := state.procs.filter fun key pid => (state.live key).contains pid }

def start (faults : Faults) (state : State) (lane : Lane) : State :=
  if faults.spawn lane.key then
    state
  else
    { procs := state.procs.insert lane.key state.next
      live := Function.update state.live lane.key (state.live lane.key ++ [state.next])
      next := state.next + 1 }

/-- The handle leaves the map before the process is killed. A raising kill leaves it alive. -/
def stop (faults : Faults) (state : State) (lane : Lane) : State :=
  match state.procs.get? lane.key with
  | none => state
  | some pid =>
    { state with
      procs := state.procs.erase lane.key
      live := if faults.kill lane.key then state.live
        else Function.update state.live lane.key ((state.live lane.key).erase pid) }

end State

def tick (lanes : List Lane) (desired : OrdDict String Bool) (faults : Faults) (state : State) :
    State :=
  let pruned := state.prune
  let plan := reconcile lanes desired fun key => (pruned.procs.get? key).isSome
  plan.2.foldl (State.stop faults) (plan.1.foldl (State.start faults) pruned)

inductive Event where
  | tick (rows : List ControlRow) (faults : Faults)
  | dies (key : String) (pid : ℕ)

def step (box : String) (manifest : Manifest) (state : State) : Event → State
  | .tick rows faults =>
    BoxAgent.tick manifest.lanes (desiredFromControls rows box manifest.lanes) faults state
  | .dies key pid =>
    { state with live := Function.update state.live key ((state.live key).erase pid) }

def run (box : String) (manifest : Manifest) (history : List Event) : State :=
  history.foldl (step box manifest) {}

end BoxAgent

end BrokerParrot
