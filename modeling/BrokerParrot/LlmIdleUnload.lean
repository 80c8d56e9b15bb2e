import BrokerParrot.Lib.PyValue

/-!
# The watchdog of a parked box

A parked box serves nobody: each tick stops its vLLM server and unloads what ollama holds. While
jobs of this worker are in flight the watchdog holds off, up to a ceiling.
-/

namespace BrokerParrot

inductive ParkLever where
  | vllmStop
  | ollamaUnload (names : List String)
  deriving DecidableEq

/-- What the probes of one tick answer and how its levers end. Two probes need not be wired. -/
structure ParkReads where
  now : ℚ
  inFlight : Option (Except CastError PyValue) := none
  vllmActivity : Except CastError PyValue
  vllmRunning : Option (Except CastError PyValue) := none
  ollamaModels : Except CastError PyValue
  vllmStop : Except CastError Unit := .ok ()
  ollamaUnload : Except CastError Unit := .ok ()

namespace ParkReads

variable (text : PyText) (reads : ParkReads)

def ownWork : Except CastError ℤ :=
  match reads.inFlight with
  | none => .ok 0
  | some probe => do return max 0 (← ((← probe).orElse (.int 0)).toInt text)

def served : Except CastError Bool := do
  let act ← ((← reads.vllmActivity).orElse (.dict [])).asDict
  return (PyValue.field act "served").truthy

def containerRunning : Except CastError Bool :=
  match reads.vllmRunning with
  | none => .ok false
  | some probe => PyValue.truthy <$> probe

def modelNames : Except CastError (List String) := do
  match (← reads.ollamaModels).orElse (.list []) with
  | .list infos =>
    let names ← infos.filterMapM fun info => do
      let name := PyValue.field (← info.asDict) "name"
      return if name.truthy then some (name.toStr text) else none
    return names.dedup.mergeSort fun left right => left ≤ right
  -- iterating these gives texts, which have no `get`
  | .dict _ | .str _ => .error .attributeError
  | _ => .error .typeError

end ParkReads

/-- A computation that may raise, and the levers it has called. -/
abbrev ParkProg := ExceptT CastError (StateM (List ParkLever))

namespace ParkProg

variable {α : Type}

def attempt (body : ParkProg α) (fallback : α) : ParkProg α := try body catch _ => pure fallback

def call (lever : ParkLever) (ends : Except CastError Unit) : ParkProg Unit := do
  modify (· ++ [lever])
  ofExcept ends

end ParkProg

namespace ParkReads

open ParkProg

def vllmHalf (reads : ParkReads) : ParkProg Bool := do
  let served ← attempt (ofExcept reads.served) false
  let loading ← if served then pure false else attempt (ofExcept reads.containerRunning) false
  if served || loading then
    attempt (do call .vllmStop reads.vllmStop; return true) false
  else
    return false

def ollamaHalf (text : PyText) (reads : ParkReads) : ParkProg (List String) :=
  attempt (do
    let names ← ofExcept (reads.modelNames text)
    if names = [] then
      return []
    call (.ollamaUnload names) reads.ollamaUnload
    return names) []

end ParkReads

structure ParkQuiesce where
  holdOffMaxS : ℚ := 8100
  holdingSince : Option ℚ := none

/-- The log lines are left out, the two that stand outside every `try` included: the logger handles
the errors of a line itself. -/
def ParkQuiesce.tick (text : PyText) (quiesce : ParkQuiesce) (reads : ParkReads) :
    ParkProg (ParkQuiesce × Bool × List String) := do
  let inFlight ← ParkProg.attempt (ofExcept (reads.ownWork text)) 0
  let since := if 0 < inFlight then some (quiesce.holdingSince.getD reads.now) else none
  let after := { quiesce with holdingSince := since }
  if since.any fun began => reads.now - began < quiesce.holdOffMaxS then
    return (after, false, [])
  return (after, ← reads.vllmHalf, ← reads.ollamaHalf text)

end BrokerParrot
