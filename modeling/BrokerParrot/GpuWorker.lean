import BrokerParrot.GpuBox

/-!
# The gpu worker

`ClaimWorker` on the gpu queue. The inline lane runs one job with a warm model at a time, the pool
lane as many served jobs as the box takes; before either runs a job it asks the lease of the box for
the slot the job will occupy. Beside the lanes a heartbeat ticks: it drives the server switch, which
holds the box under a slot of its own, and renews or releases what the process holds.
-/

namespace BrokerParrot

def llmServerSlot : String := "__llm_server__"

def comfyuiServerSlot : String := "__comfyui_server__"

def clusterReservationSlot : String := "__cluster_reservation__"

def selfManagedSlot (module : String) : String := "__gpu__:" ++ module

def switchSlot : String := "__server_switch__"

/-! ### Slots -/

def normalKind (kind : String) : String := String.ofList ((stripped kind).toList.map Char.toLower)

def isClusterReservation (row : NodeJob) : Bool :=
  (row.serverTypes.getD []).any fun kind => normalKind kind = clusterServerKind

def jobServesLlm (row : NodeJob) : Bool :=
  (row.resolvedServer.getD "" :: row.serverTypes.getD []).any fun kind =>
    normalKind kind = "ollama" ∨ normalKind kind = "vllm"

variable (cfg : GpuWorkerConfig)

def effectiveGpuModel (row : NodeJob) : String :=
  if isClusterReservation row then
    clusterReservationSlot
  else
    match orNull row.requiredModel with
    | some model => model
    | none =>
      let module := stripped row.nodeModule
      if module ≠ "" ∧ module ∈ cfg.selfLoadModules then
        selfManagedSlot module
      else if jobServesLlm row then
        llmServerSlot
      else if cfg.servesComfyui then
        comfyuiServerSlot
      else
        llmServerSlot

/-! ### Claims -/

structure ClaimProbe where
  readings : Readings
  clock : ℚ
  vramTotal : Option ℤ := none
  fits : List String := []
  hasModels : Bool := false
  knownModels : List String := []
  parallelism : ℤ := 1
  servedTypes : List String := []
  warmServers : List String := []
  warmModels : List String := []
  defaultServer : Option String := none
  servingContext : Option ℤ := none
  poolGpuServingOk : Bool := true
  reservationReadable : Bool := true
  env : ClaimEnv := {}

variable (probe : ClaimProbe)

def kindConcurrency (kind : String) : Option ℤ := if kind = "ollama" then some 1 else none

def gpuSlotBudget (parallelism : ℤ) (servedTypes : List String) : ℤ :=
  let par := max 1 parallelism
  let caps := (nonBlank servedTypes).map kindConcurrency
  if caps = [] ∨ none ∈ caps then
    par
  else
    max 1 (min par ((caps.filterMap id).foldl max 0))

def kindCapsFor (parallelism : ℤ) : OrdDict String ℤ :=
  (OrdDict.empty.insert "ollama" 1).insert "vllm" (max 1 parallelism)

def ClaimProbe.args : GpuClaim where
  host := some cfg.host
  leaseS := cfg.leaseS
  hostPriority := cfg.hostPriority
  knownModels := probe.knownModels
  poolModules := cfg.poolModules
  project := cfg.project
  maxRunning := some (gpuSlotBudget probe.parallelism probe.servedTypes)
  box := cfg.box
  servedTypes := probe.servedTypes
  warmServers := probe.warmServers
  warmModels := probe.warmModels
  kindCaps := some (kindCapsFor probe.parallelism)
  defaultServer := probe.defaultServer
  servingContext := probe.servingContext

def ClaimProbe.inlineArgs (currentModel : Option String) : GpuClaim :=
  { probe.args cfg with requireModel := some true, currentModel := currentModel }

def ClaimProbe.poolArgs (reservationsOnly : Bool) : GpuClaim :=
  { probe.args cfg with requireModel := some false, reservationsOnly := reservationsOnly }

def ClaimProbe.tooSmall : Bool := probe.hasModels && probe.vramTotal.isSome && probe.fits.isEmpty

/-- A reservation this box answers to: one queued that it could claim, or one running in its
name. -/
def AnswersTo (db : Db) (row : NodeJob) : Prop :=
  row.queue = .gpu ∧ row.project = cfg.project ∧
    ((Tri.isNotNull row.serverTypes).and
      (cfg.dialect.arraysOverlap row.serverTypes [clusterServerKind])).Holds ∧
    runClaimable db row.runId ∧
    ((row.status = .queued ∧ (placementTerms cfg.dialect (orNull cfg.box) row).Holds) ∨
      (row.status = .running ∧ (Tri.eq row.claimedBy (some cfg.host)).Holds))

instance (cfg : GpuWorkerConfig) (db : Db) (row : NodeJob) : Decidable (AnswersTo cfg db row) :=
  inferInstanceAs (Decidable (_ ∧ _))

def clusterReservationFor (db : Db) : Option JobStatus :=
  let statuses := db.jobs.collect fun _ row =>
    if AnswersTo cfg db row then some row.status else none
  if .queued ∈ statuses then some .queued else statuses.head?

section

variable (cfg : GpuWorkerConfig)

def blocksClaims (readings : Readings) : BoxProg Bool :=
  onSwitch cfg fun host => host.blocksClaims cfg.switchConfig readings

def spillPaused (clock : ℚ) : BoxProg Bool :=
  readWorker cfg fun worker => clock < worker.spillPauseUntil

def clusterHeld : BoxProg Bool := readWorker cfg fun worker => !worker.clusterHolds.isEmpty

def reservationQueuedHere (readable : Bool) : BoxProg Bool :=
  Prog.read fun box => readable && decide (clusterReservationFor cfg box.db = some .queued)

def claimGpu (args : GpuClaim) (env : ClaimEnv) : BoxProg (Option (JobId × NodeJob)) :=
  onDb (claimNextGpuJob cfg.dialect args env)

def claim (probe : ClaimProbe) : BoxProg (Option (JobId × NodeJob)) := do
  if ← blocksClaims cfg probe.readings then
    return none
  if ← spillPaused cfg probe.clock then
    return none
  let currentModel ← readWorker cfg fun worker => worker.cache.currentModel
  if probe.tooSmall then
    return none
  claimGpu cfg (probe.inlineArgs cfg currentModel) probe.env

/-- `_claim_pool`: a lane out of service for LLM work still claims a reservation. -/
def claimPool (probe : ClaimProbe) : BoxProg (Option (JobId × NodeJob)) := do
  let blocked ← blocksClaims cfg probe.readings
  if ← spillPaused cfg probe.clock then
    return none
  let held ← clusterHeld cfg
  let reservationsOnly := blocked || !probe.poolGpuServingOk || held
  if reservationsOnly then
    if !(← reservationQueuedHere cfg probe.reservationReadable) then
      return none
  claimGpu cfg (probe.poolArgs cfg reservationsOnly) probe.env

end

/-! ### The switch and the holds -/

structure AbandonEnv where
  readings : Readings
  releaseContended : Bool := false

structure StartGate where
  parked : Bool := false
  reservationReadable : Bool := true

/-- What one tick of the switch meets. A tick whose probes raise makes no transition. -/
structure DriveEnv where
  gate : StartGate := {}
  abandon : AbandonEnv
  acquireContended : Bool := false
  renewContended : Bool := false
  releaseContended : Bool := false
  inDanger : Bool := false
  probed : Bool := true
  outgoingLoaded : Bool := false
  incomingReady : Bool := false
  tick : Readings
  report : Readings
  lever : LeverReturn := .nothing

section

variable (cfg : GpuWorkerConfig) (env : DriveEnv)

def abandonCall (readings : Readings) : BoxProg Unit :=
  onSwitch cfg fun host => (host.abandon cfg.switchConfig readings, ())

def abandonSwitch (env : AbandonEnv) : BoxProg Bool := do
  let state ← readWorker cfg fun worker => worker.switch.switch.state
  if state = .idle then
    return false
  abandonCall cfg env.readings
  releaseLease cfg env.releaseContended
  return true

def llmStartsForbidden (gate : StartGate) : BoxProg Bool := do
  if ← clusterHeld cfg then
    return true
  if gate.parked then
    return true
  Prog.read fun box => gate.reservationReadable && (clusterReservationFor cfg box.db).isSome

def abandonWarmIfBoxIsDying : BoxProg Bool := do
  let switch ← readWorker cfg fun worker => worker.switch.switch
  if switch.state = .warming ∧ switch.target = some "vllm" ∧ env.inDanger then
    abandonCall cfg env.abandon.readings
    return true
  else
    return false

def gpuActiveCount (worker : GpuWorker) : ℤ :=
  worker.poolInflight + if worker.inlineRunning then 1 else 0

/-- The actions of a tick, with what the start lever answers handed back to the switch. A switch to
a server that is always on is started by nothing. -/
def performActions (env : DriveEnv) (switch : ServerSwitch) :
    List SwitchAction → BoxProg (List SwitchAction)
  | [] => return []
  | .startIncoming :: rest => do
    if ← clusterHeld cfg then
      let _ ← abandonSwitch cfg env.abandon
      return []
    let followups ←
      if switch.target = some "vllm" ∨ switch.targetContext.isSome then
        onSwitch cfg fun host => host.reportStartOutcome cfg.switchConfig env.report env.lever
      else
        pure []
    return followups ++ (← performActions env switch rest)
  | _ :: rest => performActions env switch rest

def holdBoxForSwitch : BoxProg Unit := do
  if !(← acquireLease cfg switchSlot env.acquireContended) then
    let _ ← renewLeaseOf cfg switchSlot env.renewContended

def tickServerSwitch : BoxProg Unit := do
  let switch ← readWorker cfg fun worker => worker.switch.switch
  let inFlight ← readWorker cfg gpuActiveCount
  let actions ← onSwitch cfg fun host =>
    host.tick cfg.switchConfig env.tick
      ⟨inFlight, !switch.resize && env.outgoingLoaded, env.incomingReady⟩
  if .done ∈ actions ∨ .abort ∈ actions then
    releaseLease cfg env.releaseContended
  let followups ← performActions cfg env switch actions
  if .abort ∈ followups then
    releaseLease cfg env.releaseContended

def driveServerSwitch : BoxProg Unit := do
  let state ← readWorker cfg fun worker => worker.switch.switch.state
  if state = .idle then
    return ()
  if ← llmStartsForbidden cfg env.gate then
    let _ ← abandonSwitch cfg env.abandon
    return ()
  holdBoxForSwitch cfg env
  if ← abandonWarmIfBoxIsDying cfg env then
    return ()
  if env.probed then
    tickServerSwitch cfg env

def requestServerSwitch (target : String) (contextLength : Option ℤ) (resize : Bool)
    (gate : StartGate) (readings : Readings) : BoxProg Bool := do
  if ← llmStartsForbidden cfg gate then
    return false
  onSwitch cfg fun host => host.request cfg.switchConfig readings target contextLength resize

def beginClusterHold (job : JobId) (purpose : String) (env : AbandonEnv) : BoxProg Unit := do
  writeWorker cfg fun worker =>
    { worker with clusterHolds := worker.clusterHolds.insert job purpose }
  let _ ← abandonSwitch cfg env

def clusterHoldTick (job : JobId) (env : AbandonEnv) : BoxProg Unit := do
  let held ← readWorker cfg fun worker => (worker.clusterHolds.get? job).isSome
  if held then
    let _ ← abandonSwitch cfg env

def endClusterHold (job : JobId) : BoxProg Unit :=
  writeWorker cfg fun worker => { worker with clusterHolds := worker.clusterHolds.erase job }

end

/-! ### The card -/

def spillPauseS : ℚ := 1

def spillPauseMaxS : ℚ := 30

def clusterReservationAcquireMaxS : ℚ := 120

structure ReservationRound where
  contended : Bool := false
  clock : ℚ
  abandon : AbandonEnv
  ended : Bool := false

namespace GpuWorker

def spill (clock : ℚ) (worker : GpuWorker) : GpuWorker :=
  { worker with
    spillStreak := worker.spillStreak + 1
    spillPauseUntil := clock + min (spillPauseS * 2 ^ min worker.spillStreak 8) spillPauseMaxS }

def hold (slot : String) (worker : GpuWorker) : GpuWorker :=
  { worker with
    spillStreak := 0
    spillPauseUntil := 0
    boxHeldModel := some slot
    boxActiveJobs := worker.boxActiveJobs + 1 }

end GpuWorker

section

variable (cfg : GpuWorkerConfig)

def acquireFor (job : HeldJob) (contended : Bool) : BoxProg Bool := do
  let now ← Prog.read GpuBox.now
  Prog.exec (GpuBox.admitJob cfg job.id (effectiveGpuModel cfg job.row) now contended)

def boxAcquireGranted (job : HeldJob) : BoxProg Unit :=
  writeWorker cfg (GpuWorker.hold (effectiveGpuModel cfg job.row))

def acquireBoxOrSpill (job : HeldJob) (contended : Bool) (clock : ℚ) : BoxProg Bool := do
  if ← acquireFor cfg job contended then
    boxAcquireGranted cfg job
    return true
  else
    writeWorker cfg (GpuWorker.spill clock)
    let _ ← onDb (requeueJobForRetry job.id)
    return false

/-- `_acquire_box_for_reservation`: wait for the occupant that the hold is clearing. -/
def acquireBoxForReservation (job : HeldJob) (deadline : ℚ) :
    List ReservationRound → BoxProg Bool
  | [] => .hang
  | round :: rest => do
    if ← acquireFor cfg job round.contended then
      boxAcquireGranted cfg job
      return true
    if deadline ≤ round.clock then
      return false
    clusterHoldTick cfg job.id round.abandon
    if round.ended then
      return false
    acquireBoxForReservation job deadline rest

def boxJobDone (job : JobId) : BoxProg Unit :=
  Prog.write fun box => (box.finish cfg job).setWorker cfg
    { box.worker cfg with boxActiveJobs := (box.worker cfg).boxActiveJobs - 1 }

def modelStillResident (held : String) (probe : Bool) (worker : GpuWorker) : Bool :=
  if held = llmServerSlot ∨ held = comfyuiServerSlot then
    probe
  else
    decide (worker.cache.currentModel = some held)

end

/-! ### The heartbeat -/

structure TickEnv where
  dying : Bool := false
  shed : Readings
  drive : DriveEnv
  contextNeed : Option (String × ℤ) := none
  request : Readings
  blocks : Readings
  resident : Bool := false
  contended : Bool := false

section

variable (cfg : GpuWorkerConfig)

def shedIfBoxIsDying (env : TickEnv) : BoxProg Unit := do
  if env.dying then
    let state ← readWorker cfg fun worker => worker.switch.switch.state
    if state = .warming then
      abandonCall cfg env.shed

def maybeRequestContextSwitch (env : TickEnv) : BoxProg Unit := do
  let state ← readWorker cfg fun worker => worker.switch.switch.state
  match state, env.contextNeed with
  | .idle, some (kind, window) =>
    let _ ← requestServerSwitch cfg kind (some window) true env.drive.gate env.request
  | _, _ => return ()

def boxLeaseTick (env : TickEnv) : BoxProg Unit := do
  shedIfBoxIsDying cfg env
  driveServerSwitch cfg env.drive
  maybeRequestContextSwitch cfg env
  if ← blocksClaims cfg env.blocks then
    return ()
  match orNull (← readWorker cfg GpuWorker.boxHeldModel) with
  | none => return ()
  | some held =>
    let active ← readWorker cfg GpuWorker.boxActiveJobs
    let resident ← readWorker cfg (modelStillResident held env.resident)
    if 0 < active ∨ resident then
      let _ ← renewLeaseOf cfg held env.contended
    else
      releaseLease cfg env.contended
      writeWorker cfg fun worker => { worker with boxHeldModel := none }

end

/-! ### The lanes -/

structure NodeEnv where
  contended : Bool := false
  clock : ℚ := 0
  load : LoadEnv := {}
  idle : ℚ := 0
  finish : QueueOp
  loadFailed : QueueOp
  purpose : String := ""
  holdAbandon : AbandonEnv
  rounds : List ReservationRound := []

def isInputModule (module : String) : Bool := "__input__".toList.isPrefixOf module.toList

def cachedModel (row : NodeJob) : Option String :=
  if row.serverTypes.getD [] = [] then orNull row.requiredModel else none

section

variable (cfg : GpuWorkerConfig)

def queueOp (op : QueueOp) : BoxProg Unit := onDb fun db => (op.step cfg.dialect db, ())

/-- `execute_node`. Only the inline lane supplies a warm cache. -/
def executeNode (cache : Bool) (job : HeldJob) (env : NodeEnv) : BoxProg Unit := do
  Prog.write (GpuBox.start cfg job.id)
  match cachedModel job.row with
  | none => queueOp cfg env.finish
  | some modelId =>
    if cache then
      match ← requireModel cfg modelId env.load with
      | .ok _ => queueOp cfg env.finish
      | .error _ => queueOp cfg env.loadFailed
    else
      queueOp cfg env.loadFailed

def runNode (job : HeldJob) (env : NodeEnv) : BoxProg Bool := do
  if isInputModule job.row.nodeModule then
    queueOp cfg (.parkInput job)
    return true
  if !(← acquireBoxOrSpill cfg job env.contended env.clock) then
    return false
  onCache cfg ModelCache.markBusy
  executeNode cfg true job env
  onCache cfg (ModelCache.markIdle env.idle)
  boxJobDone cfg job.id
  return true

/-- The admission of the pool lane: a reservation takes its hold first and waits for the card. -/
def admitPoolNode (job : HeldJob) (env : NodeEnv) : BoxProg Bool := do
  if isClusterReservation job.row then
    beginClusterHold cfg job.id env.purpose env.holdAbandon
    if ← acquireBoxForReservation cfg job (env.clock + clusterReservationAcquireMaxS)
        env.rounds then
      return true
    endClusterHold cfg job.id
    let _ ← onDb (requeueJobForRetry job.id)
    return false
  else
    acquireBoxOrSpill cfg job env.contended env.clock

def endHoldOf (job : HeldJob) : BoxProg Unit := do
  if isClusterReservation job.row then
    endClusterHold cfg job.id

def runPoolNode (job : HeldJob) (env : NodeEnv) : BoxProg Bool := do
  if !(← admitPoolNode cfg job env) then
    return false
  if isInputModule job.row.nodeModule then
    boxJobDone cfg job.id
    endHoldOf cfg job
    queueOp cfg (.parkInput job)
    return true
  executeNode cfg false job env
  boxJobDone cfg job.id
  endHoldOf cfg job
  return true

def runOnce (probe : ClaimProbe) (env : HeldJob → NodeEnv) : BoxProg Bool := do
  let reserved ← execWorker cfg fun worker =>
    if probe.parallelism ≤ worker.poolInflight then
      (worker, false)
    else
      ({ worker with inlineRunning := true }, true)
  if !reserved then
    return false
  let ran ← match ← claim cfg probe with
    | none => pure false
    | some (id, row) => runNode cfg ⟨id, row⟩ (env ⟨id, row⟩)
  writeWorker cfg fun worker => { worker with inlineRunning := false }
  return ran

def poolBudget (parallelism : ℤ) (worker : GpuWorker) : ℤ :=
  max 0 (parallelism - if worker.inlineRunning then 1 else 0)

def feedPool (probe : ClaimProbe) (env : HeldJob → NodeEnv) : BoxProg Bool := do
  let reserved ← execWorker cfg fun worker =>
    if poolBudget probe.parallelism worker ≤ worker.poolInflight then
      (worker, false)
    else
      ({ worker with poolInflight := worker.poolInflight + 1 }, true)
  if !reserved then
    return false
  let ran ← match ← claimPool cfg probe with
    | none => pure false
    | some (id, row) => runPoolNode cfg ⟨id, row⟩ (env ⟨id, row⟩)
  writeWorker cfg fun worker => { worker with poolInflight := worker.poolInflight - 1 }
  return ran

end

/-! ### Interleavings -/

inductive WorkerCall where
  | runOnce (probe : ClaimProbe) (env : HeldJob → NodeEnv)
  | feedPool (probe : ClaimProbe) (env : HeldJob → NodeEnv)
  | boxLeaseTick (env : TickEnv)
  | driveServerSwitch (env : DriveEnv)
  | requestServerSwitch (target : String) (contextLength : Option ℤ) (resize : Bool)
      (gate : StartGate) (readings : Readings)
  | clusterHoldTick (job : JobId) (env : AbandonEnv)
  | abandonSwitch (env : AbandonEnv)
  | requireModel (modelId : String) (env : LoadEnv)
  | dropCache (releaseContended : Bool)
  | reapIdleOnce (monotonic : ℚ) (releaseContended : Bool)
  | acquireLease (modelId : String) (contended : Bool)
  | renewLease (modelId : String) (contended : Bool)
  | releaseLease (contended : Bool)

def WorkerCall.prog : WorkerCall → BoxProg Unit
  | runOnce probe env => do let _ ← BrokerParrot.runOnce cfg probe env
  | feedPool probe env => do let _ ← BrokerParrot.feedPool cfg probe env
  | boxLeaseTick env => BrokerParrot.boxLeaseTick cfg env
  | driveServerSwitch env => BrokerParrot.driveServerSwitch cfg env
  | requestServerSwitch target contextLength resize gate readings => do
    let _ ← BrokerParrot.requestServerSwitch cfg target contextLength resize gate readings
  | clusterHoldTick job env => BrokerParrot.clusterHoldTick cfg job env
  | abandonSwitch env => do let _ ← BrokerParrot.abandonSwitch cfg env
  | requireModel modelId env => do let _ ← BrokerParrot.requireModel cfg modelId env
  | dropCache releaseContended => BrokerParrot.dropCache cfg releaseContended
  | reapIdleOnce monotonic releaseContended => do
    let _ ← BrokerParrot.reapIdleOnce cfg monotonic releaseContended
  | acquireLease modelId contended => do
    let _ ← BrokerParrot.acquireLease cfg modelId contended
  | renewLease modelId contended => do let _ ← renewLeaseOf cfg modelId contended
  | releaseLease contended => BrokerParrot.releaseLease cfg contended

abbrev GpuFleet := Pool GpuWorkerConfig GpuBox Empty Unit

inductive FleetAction where
  | call (cfg : GpuWorkerConfig) (call : WorkerCall)
  | advance (index : ℕ)
  | queue (db : Db)
  | passTime (seconds : ℚ)

namespace GpuFleet

def move : FleetAction → Move GpuWorkerConfig GpuBox Empty Unit
  | .call cfg call => .spawn cfg (call.prog cfg)
  | .advance index => .advance index
  | .queue db => .outside fun box => { box with db := db }
  | .passTime seconds => .outside fun box => { box with now := box.now + max 0 seconds }

def act (fleet : GpuFleet) (action : FleetAction) : GpuFleet := fleet.step (move action)

def run (fleet : GpuFleet) (history : List FleetAction) : GpuFleet := history.foldl act fleet

end GpuFleet

end BrokerParrot
