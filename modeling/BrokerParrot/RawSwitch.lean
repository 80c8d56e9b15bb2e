import BrokerParrot.ServerSwitch
import BrokerParrot.Lib.PyValue

/-!
# The switch over whatever the file holds

`ServerSwitch` models the switch for the files that an engine writes. The language checks no types,
and `_resume_persisted` takes over the quarantine of the file before it looks at it: an entry is any
dictionary, and every later call that reads a field of it converts the field anew. Here an entry
stays what the file gave, and a call is an `Except`.

Writing the file cannot raise, since `_persist` does it inside a handler, and no call reads it
back. So the file is not modelled here, only the pruning that `_persist` does first.
-/

namespace BrokerParrot

abbrev RawHold := List (String × PyValue)

namespace RawHold

def untilWall (text : PyText) (entry : RawHold) : Except CastError PyFloat :=
  ((PyValue.field entry "until_wall").orElse (.float (.finite 0))).toFloat text

def failures (text : PyText) (entry : RawHold) : Except CastError ℤ :=
  ((PyValue.field entry "failures").orElse (.int 0)).toInt text

def written (untilWall : ℚ) (failures : ℤ) (reason : String) (sinceWall : ℚ) : RawHold :=
  [("until_wall", .float (.finite untilWall)), ("failures", .int failures),
    ("reason", .str (reason.take 300).toString), ("since_wall", .float (.finite sinceWall))]

end RawHold

/-- What reading the persist file gives: no file, an error of the file system, the decoder or the
parser, or a value. -/
inductive RawFile where
  | missing
  | unreadable
  | json (value : PyValue)

abbrev RawSwitch := SwitchState RawHold

namespace RawSwitch

def fresh : RawSwitch := SwitchState.fresh

def holding (holds : OrdDict String RawHold) : RawSwitch := { fresh with quarantine := holds }

/-! ### The quarantine -/

/-- The keys a prune drops. One entry that cannot be read stops it. -/
def staleKeys (text : PyText) (cutoff : ℚ) :
    List (String × RawHold) → Except CastError (List String)
  | [] => .ok []
  | (key, entry) :: rest => do
    let untilWall ← entry.untilWall text
    let more ← staleKeys text cutoff rest
    return if untilWall.atMost cutoff then key :: more else more

variable (text : PyText) (cfg : SwitchConfig) (r : Readings)

def pruneQuarantine (wall : ℚ) (sw : RawSwitch) : Except CastError RawSwitch := do
  let stale ← staleKeys text (wall - cfg.quarantineMaxS) sw.quarantine.entries
  return { sw with quarantine := stale.foldl OrdDict.erase sw.quarantine }

def quarantinedLocked (wall : ℚ) (sw : RawSwitch) (key : String) : Except CastError Bool :=
  match sw.quarantine.get? key with
  | none => .ok false
  | some entry =>
    if entry.isEmpty then
      .ok false
    else do
      let untilWall ← entry.untilWall text
      return untilWall.exceeds wall

def quarantineLocked (wall : ℚ) (key reason : String) (sw : RawSwitch) :
    Except CastError RawSwitch := do
  let failures ← ((sw.quarantine.get? key).getD []).failures text
  let factor ← PyValue.powTwo (min failures 8)
  let hold := min (cfg.quarantineS * factor) cfg.quarantineMaxS
  return { sw with
    quarantine := sw.quarantine.insert key
      (RawHold.written (wall + hold) (failures + 1) reason wall) }

/-! ### The calls -/

def persist (text : PyText) (cfg : SwitchConfig) (r : Readings) (sw : RawSwitch) :
    Except CastError RawSwitch :=
  if cfg.persistPath then sw.pruneQuarantine text cfg (r.wall .persist) else .ok sw

def reset (sw : RawSwitch) : Except CastError RawSwitch :=
  persist text cfg r sw.cleared

def abort (text : PyText) (cfg : SwitchConfig) (r : Readings) (sw : RawSwitch) :
    Except CastError (RawSwitch × List SwitchAction) := do
  let sw ← sw.reset text cfg r
  return (sw, [.abort])

def abortAndQuarantine (reason : String) (sw : RawSwitch) :
    Except CastError (RawSwitch × List SwitchAction) :=
  match sw.target with
  | some target =>
    if target = "" then
      sw.abort text cfg r
    else do
      let sw ← sw.quarantineLocked text cfg (r.wall .hold) (holdKey sw.resize target) reason
      sw.abort text cfg r
  | none => sw.abort text cfg r

def request (target : String) (contextLength : Option ℤ) (resize : Bool) (sw : RawSwitch) :
    Except CastError (RawSwitch × Bool) :=
  if target = "" then
    .ok (sw, false)
  else if sw.state ≠ .idle then
    .ok (sw, false)
  else do
    let sw ← sw.pruneQuarantine text cfg (r.wall .prune)
    if ← sw.quarantinedLocked text (r.wall .quarantined) (holdKey resize target) then
      -- The refusal is logged with the hold's remaining time and its failures.
      let entry := (sw.quarantine.get? (holdKey resize target)).getD []
      let _ ← entry.untilWall text
      let _ ← entry.failures text
      return (sw, false)
    else
      let sw ← persist text cfg r (sw.requested r target contextLength resize)
      return (sw, true)

def startWarming (sw : RawSwitch) : Except CastError (RawSwitch × List SwitchAction) := do
  let sw ← persist text cfg r (sw.warming r)
  return (sw, [.startIncoming])

def tickDraining (obs : Observations) (sw : RawSwitch) :
    Except CastError (RawSwitch × List SwitchAction) :=
  if 0 < obs.inFlight then
    if cfg.drainTimeoutS ≤ r.now - sw.since then sw.abort text cfg r else .ok (sw, [])
  else if sw.resize then
    sw.startWarming text cfg r
  else
    .ok ({ sw with state := .switching, since := r.now, lastTry := r.now },
      if obs.outgoingLoaded then [.unloadOutgoing] else [])

def tickSwitching (obs : Observations) (sw : RawSwitch) :
    Except CastError (RawSwitch × List SwitchAction) :=
  if obs.outgoingLoaded then
    if cfg.unloadTimeoutS ≤ r.now - sw.since then
      sw.abort text cfg r
    else if cfg.retryEveryS ≤ r.now - sw.lastTry then
      .ok ({ sw with lastTry := r.now }, [.unloadOutgoing])
    else
      .ok (sw, [])
  else
    sw.startWarming text cfg r

def complete (sw : RawSwitch) : Except CastError (RawSwitch × List SwitchAction) := do
  let sw ← reset text cfg r sw.released
  return (sw, [.done])

def tickWarming (obs : Observations) (sw : RawSwitch) :
    Except CastError (RawSwitch × List SwitchAction) :=
  if obs.incomingReady then
    sw.complete text cfg r
  else if cfg.warmTimeoutS ≤ r.now - sw.since then
    sw.abortAndQuarantine text cfg r (SwitchHost.notReadyReason (r.now - sw.since))
  else if sw.ackExpired cfg r then
    sw.abortAndQuarantine text cfg r sw.lastReason
  else if obs.outgoingLoaded && !sw.resize then
    .ok (sw, [])
  else if cfg.retryEveryS ≤ r.now - sw.lastTry then
    .ok ({ sw with lastTry := r.now }, [.startIncoming])
  else
    .ok (sw, [])

def tick (obs : Observations) (sw : RawSwitch) :
    Except CastError (RawSwitch × List SwitchAction) :=
  if sw.state = .idle then
    .ok (sw, [])
  else if sw.remaining cfg (r.wall .remaining) ≤ 0 then
    sw.abort text cfg r
  else
    match sw.state with
    | .idle => .ok (sw, [])
    | .draining => sw.tickDraining text cfg r obs
    | .switching => sw.tickSwitching text cfg r obs
    | .warming => sw.tickWarming text cfg r obs

def reportStartOutcome (value : LeverReturn) (sw : RawSwitch) :
    Except CastError (RawSwitch × List SwitchAction) :=
  let result := StartOutcome.coerce value
  if sw.state = .idle then
    .ok (sw, [])
  else
    let sw := sw.reported r result
    if result.fatal then
      abortAndQuarantine text cfg r result.reason sw
    else do
      let sw ← persist text cfg r (sw.acknowledge r result)
      return (sw, [])

def abandon (sw : RawSwitch) : Except CastError RawSwitch :=
  if sw.state = .idle then .ok sw else sw.reset text cfg r

def clearQuarantine (kind : String) (sw : RawSwitch) : Except CastError RawSwitch :=
  match sw.quarantine.get? kind with
  | none => .ok sw
  | some _ => persist text cfg r { sw with quarantine := sw.quarantine.erase kind }

def blocksClaims (sw : RawSwitch) : Except CastError (RawSwitch × Bool) :=
  if sw.state = .idle then
    .ok (sw, false)
  else if sw.remaining cfg (r.wall .remaining) ≤ 0 then do
    let sw ← sw.reset text cfg r
    return (sw, false)
  else if cfg.phaseBudget sw.state * 2 ≤ r.now - sw.since then do
    let sw ← sw.reset text cfg r
    return (sw, false)
  else
    .ok (sw, true)

/-! ### Construction -/

/-- What the record says about a switch in flight, each field converted as it is read. -/
structure RawRecord where
  target : String
  requestedWall : Option PyFloat
  contextLength : Option ℤ
  resize : Bool

def optional {α : Type} (convert : PyValue → Except CastError α) :
    PyValue → Except CastError (Option α)
  | .none => .ok none
  | value => some <$> convert value

def readRecord (fields : List (String × PyValue)) : Except CastError RawRecord := do
  let record ← ((PyValue.field fields "switch").orElse (.dict [])).asDict
  let requestedWall ← optional (PyValue.toFloat text) (PyValue.field record "requested_wall")
  let contextLength ← optional (PyValue.toInt text) (PyValue.field record "context_length")
  return {
    target := ((PyValue.field record "target").orElse (.str "")).toStr text
    requestedWall := requestedWall
    contextLength := contextLength
    resize := (PyValue.field record "resize").truthy }

def readRecordV1 (fields : List (String × PyValue)) : Except CastError RawRecord := do
  let requestedWall ← optional (PyValue.toFloat text) (PyValue.field fields "wall")
  return {
    target := ((PyValue.field fields "target").orElse (.str "")).toStr text
    requestedWall := requestedWall
    contextLength := none
    resize := false }

def readHolds (fields : List (String × PyValue)) : Except CastError (OrdDict String RawHold) := do
  let items ← ((PyValue.field fields "quarantine").orElse (.dict [])).asDict
  return items.foldl
    (fun holds item =>
      match item.2 with
      | .dict entry => holds.insert item.1 entry
      | _ => holds)
    OrdDict.empty

/-- Re-enter the recorded switch if it is inside its budget. Only a finite request time can be. -/
def reenter (record : RawRecord) (sw : RawSwitch) : RawSwitch :=
  match record.requestedWall with
  | some (.finite requested) =>
    let age := r.wall .age - requested
    if record.target ≠ "" ∧ 0 ≤ age ∧ age < cfg.budgetTotal then
      { sw with
        state := .draining
        target := some record.target
        targetContext := record.contextLength
        resize := record.resize
        since := r.now
        requestedWall := some requested }
    else
      sw
  | _ => sw

def heldBack (record : RawRecord) (sw : RawSwitch) : Except CastError Bool :=
  if record.target = "" then
    .ok false
  else
    sw.quarantinedLocked text (r.wall .quarantined) (holdKey record.resize record.target)

def resume (record : RawRecord) (sw : RawSwitch) : Except CastError RawSwitch := do
  let held ← sw.heldBack text r record
  return if held then sw else sw.reenter cfg r record

def orUnchanged (sw : RawSwitch) : Except CastError RawSwitch → RawSwitch
  | .ok after => after
  | .error _ => sw

def takeUp (record : Except CastError RawRecord) (sw : RawSwitch) : RawSwitch :=
  match record with
  | .error _ => sw
  | .ok record =>
    match sw.resume text cfg r record with
    | .error _ => sw
    | .ok sw => sw.orUnchanged (sw.persist text cfg r)

def adopt (holds : OrdDict String RawHold) (record : Except CastError RawRecord) : RawSwitch :=
  match (holding holds).pruneQuarantine text cfg (r.wall .prune) with
  | .error _ => holding holds
  | .ok sw => sw.takeUp text cfg r record

/-- The constructor never raises: an exception is swallowed where it happens, and what was assigned
before it stays assigned. -/
def resumePersisted (file : RawFile) : RawSwitch :=
  if cfg.persistPath then
    match file with
    | .json (.dict fields) =>
      match ((PyValue.field fields "v").orElse (.int 0)).toInt text with
      | .error _ => fresh
      | .ok version =>
        if 2 ≤ version then
          match readHolds fields with
          | .error _ => fresh
          | .ok holds => adopt text cfg r holds (readRecord text fields)
        else
          fresh.takeUp text cfg r (readRecordV1 text fields)
    | _ => fresh
  else
    fresh

/-! ### Sequences of calls -/

end RawSwitch

inductive RawCall where
  | request (target : String) (contextLength : Option ℤ) (resize : Bool)
  | tick (obs : Observations)
  | blocksClaims
  | reportStartOutcome (value : LeverReturn)
  | abandon (reason : String)
  | quarantined (kind : String)
  | resizeQuarantined (kind : String)
  | clearQuarantine (kind : String)

namespace RawSwitch

def step (text : PyText) (cfg : SwitchConfig) (sw : RawSwitch) (call : RawCall) (r : Readings) :
    Except CastError RawSwitch :=
  match call with
  | .request target contextLength resize =>
    Prod.fst <$> sw.request text cfg r target contextLength resize
  | .tick obs => Prod.fst <$> sw.tick text cfg r obs
  | .blocksClaims => Prod.fst <$> sw.blocksClaims text cfg r
  | .reportStartOutcome value => Prod.fst <$> sw.reportStartOutcome text cfg r value
  | .abandon _ => sw.abandon text cfg r
  | .quarantined kind => (fun _ => sw) <$> sw.quarantinedLocked text (r.wall .quarantined) kind
  | .resizeQuarantined kind =>
    (fun _ => sw) <$> sw.quarantinedLocked text (r.wall .quarantined) (resizeKey kind)
  | .clearQuarantine kind => sw.clearQuarantine text cfg r kind

def run (text : PyText) (cfg : SwitchConfig) (sw : RawSwitch) :
    List (RawCall × Readings) → Except CastError RawSwitch
  | [] => .ok sw
  | (call, r) :: rest => do
    let sw ← sw.step text cfg call r
    sw.run text cfg rest

end RawSwitch

end BrokerParrot
