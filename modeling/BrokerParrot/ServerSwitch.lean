import Mathlib.Algebra.Order.Field.Rat
import BrokerParrot.Lib.OrdDict
import BrokerParrot.Lib.PyString

/-!
# The server switch

`ServerSwitch` moves a box from one LLM server kind to another: it drains the box, frees the
outgoing server, starts the incoming one and waits until it answers. A call takes observations and
returns the actions its caller must perform, and the only thing that outlives the process is the
record `_persist` leaves on disk.

A call reads the monotonic clock at most once and the wall clock at several places, and nothing
relates two readings, so a call is given one wall reading for each of those places.
-/

namespace BrokerParrot

inductive Phase where
  | idle
  | draining
  | switching
  | warming
  deriving DecidableEq, Repr

inductive SwitchAction where
  | unloadOutgoing
  | startIncoming
  | done
  | abort
  deriving DecidableEq, Repr

inductive StartStatus where
  | started
  | alreadyRunning
  | transient
  | permanent
  | unknown
  deriving DecidableEq, Repr

structure StartOutcome where
  status : StartStatus
  reason : String
  deriving DecidableEq, Repr

def StartOutcome.acknowledged (outcome : StartOutcome) : Bool :=
  match outcome.status with
  | .started | .alreadyRunning | .unknown => true
  | .transient | .permanent => false

def StartOutcome.fatal (outcome : StartOutcome) : Bool := outcome.status = .permanent

/-- A record stands for anything with a `status` and a `reason`, read as text; `hostile` for one
whose attributes raise. -/
inductive LeverReturn where
  | outcome (value : StartOutcome)
  | nothing
  | flag (value : Bool)
  | record (status reason : String)
  | hostile
  deriving DecidableEq, Repr

def StartStatus.ofText (text : String) : Option StartStatus :=
  match (stripped text).toLower with
  | "started" => some .started
  | "already_running" => some .alreadyRunning
  | "transient" => some .transient
  | "permanent" => some .permanent
  | "unknown" => some .unknown
  | _ => none

/-- Every lever value becomes an outcome; what is not recognised counts as silence. -/
def StartOutcome.coerce : LeverReturn → StartOutcome
  | .outcome value => value
  | .nothing => ⟨.unknown, ""⟩
  | .flag true => ⟨.started, ""⟩
  | .flag false => ⟨.transient, ""⟩
  | .record status reason =>
    match StartStatus.ofText status with
    | some known => ⟨known, reason⟩
    | none => ⟨.unknown, reason⟩
  | .hostile => ⟨.unknown, ""⟩

structure SwitchConfig where
  drainTimeoutS : ℚ := 3600
  unloadTimeoutS : ℚ := 300
  warmTimeoutS : ℚ := 1800
  retryEveryS : ℚ := 30
  startAckTimeoutS : ℚ := 300
  quarantineS : ℚ := 900
  quarantineMaxS : ℚ := 14400
  persistPath : Bool := false
  deriving DecidableEq, Repr

inductive WallSite where
  | prune
  | quarantined
  | requested
  | remaining
  | lastStart
  | hold
  | age
  | persist
  | persistFallback
  deriving DecidableEq, Repr

/-- What one call reads from outside: the monotonic clock, the wall clock at each place, and whether
the write or the removal of the record that the call may attempt goes through. -/
structure Readings where
  now : ℚ
  wall : WallSite → ℚ
  writeOk : Bool

structure Hold where
  untilWall : ℚ
  failures : ℕ
  reason : String
  sinceWall : ℚ
  deriving DecidableEq, Repr

structure LastStart where
  status : StartStatus
  reason : String
  wall : ℚ
  deriving DecidableEq, Repr

/-- The in-flight half of the record. `phase`, `startAcknowledged` and `lastStart` are written for
an operator and never read back. -/
structure SwitchRecord where
  target : Option String
  requestedWall : Option ℚ
  phase : Phase
  startAcknowledged : Bool
  lastStart : Option LastStart
  contextLength : Option ℤ
  resize : Bool
  deriving DecidableEq, Repr

/-- The content of the persist file: the shape older engines wrote, the present one, or text that
is no record at all. -/
inductive PersistFile where
  | unreadable
  | v1 (target : String) (wall : Option ℚ)
  | v2 (quarantine : OrdDict String Hold) (switch : Option SwitchRecord)
  deriving DecidableEq

/-- The fields of the switch, over what an entry of its quarantine is. -/
structure SwitchState (η : Type) where
  state : Phase
  target : Option String
  targetContext : Option ℤ
  resize : Bool
  since : ℚ
  lastTry : ℚ
  startAck : Bool
  startUnackSince : Option ℚ
  lastStart : Option LastStart
  requestedWall : Option ℚ
  quarantine : OrdDict String η
  deriving DecidableEq

abbrev ServerSwitch := SwitchState Hold

structure SwitchHost where
  switch : ServerSwitch
  file : Option PersistFile
  deriving DecidableEq

def resizeKey (kind : String) : String := kind ++ ":context"

def holdKey (resize : Bool) (target : String) : String :=
  if resize then resizeKey target else target

def SwitchConfig.budgetTotal (cfg : SwitchConfig) : ℚ :=
  cfg.drainTimeoutS + cfg.unloadTimeoutS + cfg.warmTimeoutS

def SwitchConfig.phaseBudget (cfg : SwitchConfig) : Phase → ℚ
  | .warming => cfg.warmTimeoutS
  | .switching => cfg.unloadTimeoutS
  | .idle | .draining => cfg.drainTimeoutS

namespace SwitchState

variable {η : Type}

def fresh : SwitchState η where
  state := .idle
  target := none
  targetContext := none
  resize := false
  since := 0
  lastTry := 0
  startAck := true
  startUnackSince := none
  lastStart := none
  requestedWall := none
  quarantine := OrdDict.empty

def remaining (cfg : SwitchConfig) (wall : ℚ) (sw : SwitchState η) : ℚ :=
  match sw.requestedWall with
  | none => cfg.budgetTotal
  | some requested => cfg.budgetTotal - (wall - requested)

def cleared (sw : SwitchState η) : SwitchState η :=
  { sw with
    state := .idle
    target := none
    targetContext := none
    resize := false
    since := 0
    lastTry := 0
    requestedWall := none
    startAck := true
    startUnackSince := none }

def requested (r : Readings) (target : String) (contextLength : Option ℤ) (resize : Bool)
    (sw : SwitchState η) : SwitchState η :=
  { sw with
    state := .draining
    target := some target
    targetContext := contextLength
    resize := resize
    since := r.now
    requestedWall := some (r.wall .requested)
    startAck := true
    startUnackSince := none
    lastStart := none }

def warming (r : Readings) (sw : SwitchState η) : SwitchState η :=
  { sw with
    state := .warming
    since := r.now
    lastTry := r.now
    startAck := true
    startUnackSince := none }

def reported (r : Readings) (result : StartOutcome) (sw : SwitchState η) : SwitchState η :=
  { sw with lastStart := some ⟨result.status, result.reason, r.wall .lastStart⟩ }

def acknowledge (r : Readings) (result : StartOutcome) (sw : SwitchState η) : SwitchState η :=
  if result.acknowledged then
    { sw with startAck := true, startUnackSince := none }
  else if sw.startAck then
    { sw with startAck := false, startUnackSince := some r.now }
  else
    sw

theorem acknowledge_eq (r : Readings) (result : StartOutcome) (sw : SwitchState η) :
    ∃ ack since,
      sw.acknowledge r result = { sw with startAck := ack, startUnackSince := since } := by
  unfold acknowledge
  split
  · exact ⟨_, _, rfl⟩
  split
  · exact ⟨_, _, rfl⟩
  · exact ⟨_, _, rfl⟩

/-- The hold on the kind that came up is lifted. -/
def released (sw : SwitchState η) : SwitchState η :=
  match sw.target with
  | some target =>
    if target = "" then sw
    else { sw with quarantine := sw.quarantine.erase (holdKey sw.resize target) }
  | none => sw

def ackExpired (cfg : SwitchConfig) (r : Readings) (sw : SwitchState η) : Bool :=
  match sw.startAck, sw.startUnackSince with
  | false, some since => decide (cfg.startAckTimeoutS ≤ r.now - since)
  | _, _ => false

def lastReason (sw : SwitchState η) : String :=
  match sw.lastStart with
  | some start => if start.reason = "" then "?" else start.reason
  | none => "?"

end SwitchState

namespace ServerSwitch

variable (cfg : SwitchConfig)

def quarantinedLocked (wall : ℚ) (sw : ServerSwitch) (key : String) : Bool :=
  match sw.quarantine.get? key with
  | some entry => decide (wall < entry.untilWall)
  | none => false

def pruneQuarantine (wall : ℚ) (sw : ServerSwitch) : ServerSwitch :=
  { sw with
    quarantine := sw.quarantine.filter fun _ entry =>
      ! decide (entry.untilWall ≤ wall - cfg.quarantineMaxS) }

def quarantineLocked (wall : ℚ) (key reason : String) (sw : ServerSwitch) : ServerSwitch :=
  let failures := match sw.quarantine.get? key with
    | some entry => entry.failures
    | none => 0
  let hold := min (cfg.quarantineS * 2 ^ min failures 8) cfg.quarantineMaxS
  { sw with
    quarantine := sw.quarantine.insert key
      { untilWall := wall + hold
        failures := failures + 1
        reason := (reason.take 300).toString
        sinceWall := wall } }

def record (r : Readings) (sw : ServerSwitch) : SwitchRecord where
  target := sw.target
  requestedWall := some (sw.requestedWall.getD (r.wall .persistFallback))
  phase := sw.state
  startAcknowledged := sw.startAck
  lastStart := sw.lastStart
  contextLength := sw.targetContext
  resize := sw.resize

/-- Re-enter a recorded switch at DRAINING, if it is still inside its budget and its kind is not
held back. -/
def resume (r : Readings) (target : String) (requestedWall : Option ℚ) (contextLength : Option ℤ)
    (resize : Bool) (sw : ServerSwitch) : ServerSwitch :=
  if target ≠ "" ∧ sw.quarantinedLocked (r.wall .quarantined) (holdKey resize target) then
    sw
  else
    match requestedWall with
    | none => sw
    | some requested =>
      let age := r.wall .age - requested
      if target ≠ "" ∧ 0 ≤ age ∧ age < cfg.budgetTotal then
        { sw with
          state := .draining
          target := some target
          targetContext := contextLength
          resize := resize
          since := r.now
          requestedWall := some requested }
      else
        sw

end ServerSwitch

namespace SwitchHost

variable (cfg : SwitchConfig) (r : Readings)

def unpersist (host : SwitchHost) : SwitchHost :=
  if cfg.persistPath && r.writeOk then { host with file := none } else host

/-- A write that fails is swallowed and the old file stays. -/
def persist (cfg : SwitchConfig) (r : Readings) (host : SwitchHost) : SwitchHost :=
  if cfg.persistPath then
    let sw := host.switch.pruneQuarantine cfg (r.wall .persist)
    let host := { host with switch := sw }
    if sw.state = .idle ∧ sw.quarantine.isEmpty then
      host.unpersist cfg r
    else if r.writeOk then
      { host with
        file := some (.v2 sw.quarantine (if sw.state = .idle then none else some (sw.record r))) }
    else
      host
  else
    host

def reset (host : SwitchHost) : SwitchHost :=
  { host with switch := host.switch.cleared }.persist cfg r

def abort (cfg : SwitchConfig) (r : Readings) (host : SwitchHost) :
    SwitchHost × List SwitchAction :=
  (host.reset cfg r, [.abort])

def abortAndQuarantine (reason : String) (host : SwitchHost) : SwitchHost × List SwitchAction :=
  match host.switch.target with
  | some target =>
    if target = "" then
      host.abort cfg r
    else
      abort cfg r { host with
        switch := host.switch.quarantineLocked cfg (r.wall .hold)
          (holdKey host.switch.resize target) reason }
  | none => host.abort cfg r

def resumePersisted (file : Option PersistFile) : SwitchHost :=
  let host : SwitchHost := ⟨SwitchState.fresh, file⟩
  if cfg.persistPath then
    match file with
    | none => host
    | some .unreadable => host.unpersist cfg r
    | some (.v1 target wall) =>
      persist cfg r { host with switch := host.switch.resume cfg r target wall none false }
    | some (.v2 quarantine switch) =>
      let sw := ServerSwitch.pruneQuarantine cfg (r.wall .prune)
        { host.switch with quarantine := quarantine }
      match switch with
      | none => persist cfg r { host with switch := sw.resume cfg r "" none none false }
      | some rec =>
        persist cfg r { host with
          switch := sw.resume cfg r (rec.target.getD "") rec.requestedWall rec.contextLength
            rec.resize }
  else
    host

def request (target : String) (contextLength : Option ℤ) (resize : Bool) (host : SwitchHost) :
    SwitchHost × Bool :=
  if target = "" then
    (host, false)
  else if host.switch.state ≠ .idle then
    (host, false)
  else
    let sw := host.switch.pruneQuarantine cfg (r.wall .prune)
    if sw.quarantinedLocked (r.wall .quarantined) (holdKey resize target) then
      ({ host with switch := sw }, false)
    else
      (persist cfg r { host with switch := sw.requested r target contextLength resize }, true)

end SwitchHost

structure Observations where
  inFlight : ℤ
  outgoingLoaded : Bool
  incomingReady : Bool
  deriving DecidableEq, Repr

namespace SwitchHost

variable (cfg : SwitchConfig) (r : Readings)

def startWarming (host : SwitchHost) : SwitchHost × List SwitchAction :=
  (persist cfg r { host with switch := host.switch.warming r }, [.startIncoming])

def tickDraining (obs : Observations) (host : SwitchHost) : SwitchHost × List SwitchAction :=
  if 0 < obs.inFlight then
    if cfg.drainTimeoutS ≤ r.now - host.switch.since then host.abort cfg r else (host, [])
  else if host.switch.resize then
    host.startWarming cfg r
  else
    ({ host with
      switch := { host.switch with state := .switching, since := r.now, lastTry := r.now } },
      if obs.outgoingLoaded then [.unloadOutgoing] else [])

def tickSwitching (obs : Observations) (host : SwitchHost) : SwitchHost × List SwitchAction :=
  if obs.outgoingLoaded then
    if cfg.unloadTimeoutS ≤ r.now - host.switch.since then
      host.abort cfg r
    else if cfg.retryEveryS ≤ r.now - host.switch.lastTry then
      ({ host with switch := { host.switch with lastTry := r.now } }, [.unloadOutgoing])
    else
      (host, [])
  else
    host.startWarming cfg r

def complete (host : SwitchHost) : SwitchHost × List SwitchAction :=
  (reset cfg r { host with switch := host.switch.released }, [.done])

/-- The text of a warm timeout, with the waited seconds rounded half to even as the format `.0f`
does. -/
def notReadyReason (waited : ℚ) : String :=
  let floor := waited.floor
  let rest := waited - floor
  let rounded :=
    if rest < 1 / 2 then floor
    else if 1 / 2 < rest then floor + 1
    else if floor % 2 = 0 then floor else floor + 1
  "not ready within " ++ toString rounded ++ "s"

def tickWarming (obs : Observations) (host : SwitchHost) : SwitchHost × List SwitchAction :=
  if obs.incomingReady then
    host.complete cfg r
  else if cfg.warmTimeoutS ≤ r.now - host.switch.since then
    host.abortAndQuarantine cfg r (notReadyReason (r.now - host.switch.since))
  else if host.switch.ackExpired cfg r then
    host.abortAndQuarantine cfg r host.switch.lastReason
  -- The outgoing server is back: never start a second copy beside it.
  else if obs.outgoingLoaded && !host.switch.resize then
    (host, [])
  else if cfg.retryEveryS ≤ r.now - host.switch.lastTry then
    ({ host with switch := { host.switch with lastTry := r.now } }, [.startIncoming])
  else
    (host, [])

def tick (obs : Observations) (host : SwitchHost) : SwitchHost × List SwitchAction :=
  if host.switch.state = .idle then
    (host, [])
  else if host.switch.remaining cfg (r.wall .remaining) ≤ 0 then
    host.abort cfg r
  else
    match host.switch.state with
    | .idle => (host, [])
    | .draining => host.tickDraining cfg r obs
    | .switching => host.tickSwitching cfg r obs
    | .warming => host.tickWarming cfg r obs

def reportStartOutcome (value : LeverReturn) (host : SwitchHost) : SwitchHost × List SwitchAction :=
  let result := StartOutcome.coerce value
  if host.switch.state = .idle then
    (host, [])
  else
    let sw := host.switch.reported r result
    if result.fatal then
      abortAndQuarantine cfg r result.reason { host with switch := sw }
    else
      (persist cfg r { host with switch := sw.acknowledge r result }, [])

def abandon (host : SwitchHost) : SwitchHost :=
  if host.switch.state = .idle then host else host.reset cfg r

def clearQuarantine (kind : String) (host : SwitchHost) : SwitchHost :=
  match host.switch.quarantine.get? kind with
  | none => host
  | some _ =>
    persist cfg r { host with
      switch := { host.switch with quarantine := host.switch.quarantine.erase kind } }

def quarantineRemaining (key : String) (host : SwitchHost) : SwitchHost × ℚ :=
  let sw := host.switch.pruneQuarantine cfg (r.wall .prune)
  ({ host with switch := sw },
    match sw.quarantine.get? key with
    | none => 0
    | some entry => max 0 (entry.untilWall - r.wall .quarantined))

/-- The read itself gives up a switch that outlived its budget, or twice the budget of its phase. -/
def blocksClaims (host : SwitchHost) : SwitchHost × Bool :=
  if host.switch.state = .idle then
    (host, false)
  else if host.switch.remaining cfg (r.wall .remaining) ≤ 0 then
    (host.reset cfg r, false)
  else if cfg.phaseBudget host.switch.state * 2 ≤ r.now - host.switch.since then
    (host.reset cfg r, false)
  else
    (host, true)

end SwitchHost

/-! ### Histories

A history is a list of calls, each with its readings. A restart is the construction of a new switch
from the file the old process left. -/

inductive SwitchCall where
  | request (target : String) (contextLength : Option ℤ) (resize : Bool)
  | tick (obs : Observations)
  | reportStartOutcome (value : LeverReturn)
  | abandon (reason : String)
  | clearQuarantine (kind : String)
  | blocksClaims
  | quarantineRemaining (key : String)
  | restart
  deriving DecidableEq, Repr

structure SwitchEvent where
  call : SwitchCall
  readings : Readings

namespace SwitchHost

def step (cfg : SwitchConfig) (host : SwitchHost) (event : SwitchEvent) : SwitchHost :=
  match event.call with
  | .request target contextLength resize =>
    (host.request cfg event.readings target contextLength resize).1
  | .tick obs => (host.tick cfg event.readings obs).1
  | .reportStartOutcome value => (host.reportStartOutcome cfg event.readings value).1
  | .abandon _ => host.abandon cfg event.readings
  | .clearQuarantine kind => host.clearQuarantine cfg event.readings kind
  | .blocksClaims => (host.blocksClaims cfg event.readings).1
  | .quarantineRemaining key => (host.quarantineRemaining cfg event.readings key).1
  | .restart => resumePersisted cfg event.readings host.file

def run (cfg : SwitchConfig) (host : SwitchHost) (history : List SwitchEvent) : SwitchHost :=
  history.foldl (step cfg) host

end SwitchHost

end BrokerParrot
