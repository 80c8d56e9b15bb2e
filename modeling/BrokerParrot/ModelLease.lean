import Mathlib.Algebra.Order.Ring.Unbundled.Rat
import BrokerParrot.Lib.OrdDict

/-!
# The box's model lease

The arbiter of `gpu_model_lease.py`: one small record on the box's shared disk says which model is
resident and until when each holder keeps it.

A call reads its clock before it waits for the lock. An event of a history therefore carries two
times, the reading the rule sees and the true time the write commits at.
-/

namespace BrokerParrot

structure LeaseState where
  model : Option String
  holders : OrdDict String ℚ
  deriving DecidableEq

namespace LeaseState

def vacant : LeaseState := ⟨none, OrdDict.empty⟩

def live (state : LeaseState) (now : ℚ) : OrdDict String ℚ :=
  state.holders.filter fun _ expiry => now < expiry

def others (state : LeaseState) (holder : String) (now : ℚ) : OrdDict String ℚ :=
  (state.live now).filter fun other _ => other ≠ holder

/-- May `holder` load `modelId`? The same model is shared; a different one waits for its live
holders. -/
def decide (state : LeaseState) (modelId holder : String) (now ttlS : ℚ) : Bool × LeaseState :=
  if state.model = some modelId then
    (true, ⟨some modelId, (state.live now).insert holder (now + ttlS)⟩)
  else if (state.others holder now).isEmpty then
    (true, ⟨some modelId, OrdDict.empty.insert holder (now + ttlS)⟩)
  else
    (false, ⟨state.model, state.live now⟩)

def releaseState (state : LeaseState) (holder : String) : LeaseState :=
  let holders := state.holders.erase holder
  ⟨if holders.isEmpty then none else state.model, holders⟩

end LeaseState

/-- What the lease file holds: nothing, text that is not a record, or a record. -/
inductive LeaseBody where
  | blank
  | garbled
  | record (model : Option String) (holders : Option (OrdDict String ℚ))
  deriving DecidableEq

namespace LeaseBody

def state : LeaseBody → LeaseState
  | blank => LeaseState.vacant
  | garbled => LeaseState.vacant
  | record model holders => ⟨model, holders.getD OrdDict.empty⟩

def update {α : Type} (body : LeaseBody) (fn : LeaseState → α × LeaseState) : α × LeaseBody :=
  let outcome := fn body.state
  (outcome.1, record outcome.2.model (some outcome.2.holders))

end LeaseBody

structure ModelLease where
  holder : String
  ttlS : ℚ := 120
  deriving DecidableEq

namespace ModelLease

/-- Claim the box. A file that stays locked past the bounded wait is a denial. -/
def acquire (lease : ModelLease) (modelId : String) (now : ℚ) (contended : Bool)
    (body : LeaseBody) : Bool × LeaseBody :=
  if contended then
    (false, body)
  else
    body.update fun state => state.decide modelId lease.holder now lease.ttlS

def renew (lease : ModelLease) (modelId : String) (now : ℚ) (contended : Bool)
    (body : LeaseBody) : Bool × LeaseBody :=
  lease.acquire modelId now contended body

def release (lease : ModelLease) (contended : Bool) (body : LeaseBody) : LeaseBody :=
  if contended then
    body
  else
    (body.update fun state => ((), state.releaseState lease.holder)).2

end ModelLease

/-! ### Histories of one box -/

inductive LeaseCall where
  | acquire (modelId : String) (now : ℚ)
  | renew (modelId : String) (now : ℚ)
  | release
  deriving DecidableEq

def ModelLease.txn (lease : ModelLease) : LeaseCall → LeaseState → Bool × LeaseState
  | .acquire modelId now, state => state.decide modelId lease.holder now lease.ttlS
  | .renew modelId now, state => state.decide modelId lease.holder now lease.ttlS
  | .release, state => (true, state.releaseState lease.holder)

/-- A call of some holder, in the order the file lock serialised them, with the true time it
committed at. -/
structure LeaseEvent where
  holder : String
  call : LeaseCall
  contended : Bool
  commit : ℚ
  deriving DecidableEq

structure Grant where
  modelId : String
  expiry : ℚ
  deriving DecidableEq

/-- The lease file, and every holder's latest granted acquire that it has not released. -/
structure LeaseBox where
  body : LeaseBody
  granted : String → Option Grant

namespace LeaseBox

def opened (body : LeaseBody) : LeaseBox := ⟨body, fun _ => none⟩

def acquired (box : LeaseBox) (lease : ModelLease) (modelId : String) (now : ℚ)
    (outcome : Bool × LeaseBody) : LeaseBox where
  body := outcome.2
  granted :=
    if outcome.1 then
      Function.update box.granted lease.holder (some ⟨modelId, now + lease.ttlS⟩)
    else
      box.granted

def step (ttlS : ℚ) (box : LeaseBox) (event : LeaseEvent) : LeaseBox :=
  let lease : ModelLease := ⟨event.holder, ttlS⟩
  match event.call with
  | .acquire modelId now =>
    box.acquired lease modelId now (lease.acquire modelId now event.contended box.body)
  | .renew modelId now =>
    box.acquired lease modelId now (lease.renew modelId now event.contended box.body)
  | .release =>
    { body := lease.release event.contended box.body
      granted :=
        if event.contended then
          box.granted
        else
          Function.update box.granted event.holder none }

def run (ttlS : ℚ) (box : LeaseBox) (history : List LeaseEvent) : LeaseBox :=
  history.foldl (step ttlS) box

end LeaseBox

def LeaseEvent.Timely (event : LeaseEvent) : Prop :=
  match event.call with
  | .acquire _ now => now ≤ event.commit
  | .renew _ now => now ≤ event.commit
  | .release => True

end BrokerParrot
