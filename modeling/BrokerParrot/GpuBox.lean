import BrokerParrot.ModelLease
import BrokerParrot.NodeQueue
import BrokerParrot.ServerSwitch

/-!
# A box with gpu workers

Several worker processes share one card. What they share is the lease file of the box; each has its
own switch, its own warm model and its own bookkeeping of what it runs.

A lease is called in two statements: the clock is read, and the file is rewritten under its lock.
The box keeps what no process can see, the calls that were made on the lease and the jobs that were
admitted and are not done yet.
-/

namespace BrokerParrot

structure ModelCache where
  currentModel : Option String := none
  currentHandle : Option Value := none
  active : ℕ := 0
  lastUsed : ℚ := 0

namespace ModelCache

def dropped (cache : ModelCache) : ModelCache :=
  { cache with currentHandle := none, currentModel := none }

def loaded (modelId : String) (handle : Option Value) (cache : ModelCache) : ModelCache :=
  { cache with currentHandle := handle, currentModel := some modelId }

def markBusy (cache : ModelCache) : ModelCache := { cache with active := cache.active + 1 }

def markIdle (monotonic : ℚ) (cache : ModelCache) : ModelCache :=
  { cache with active := cache.active - 1, lastUsed := monotonic }

end ModelCache

def gpuShouldUnload (handlePresent : Bool) (active : ℕ) (idleS ttlS : ℚ) : Bool :=
  if ttlS ≤ 0 then false else handlePresent && decide (active = 0) && decide (ttlS ≤ idleS)

/-- What is fixed for one worker process. `holder` names the process in the lease file, `host` names
it in the queue. -/
structure GpuWorkerConfig where
  holder : String
  ttlS : ℚ := 120
  host : String
  project : String := ""
  box : Option String := none
  hostPriority : ℤ := 0
  leaseS : ℤ := 600
  dialect : Dialect := .pg
  poolModules : List String := []
  selfLoadModules : List String := []
  servesComfyui : Bool := false
  idleTtlS : ℚ := 60
  switchConfig : SwitchConfig := {}

def GpuWorkerConfig.lease (cfg : GpuWorkerConfig) : ModelLease := ⟨cfg.holder, cfg.ttlS⟩

structure GpuWorker where
  switch : SwitchHost := ⟨SwitchState.fresh, none⟩
  cache : ModelCache := {}
  boxHeldModel : Option String := none
  boxActiveJobs : ℕ := 0
  poolInflight : ℤ := 0
  inlineRunning : Bool := false
  clusterHolds : OrdDict JobId String := OrdDict.empty
  spillStreak : ℕ := 0
  spillPauseUntil : ℚ := 0

structure Admission where
  holder : String
  job : JobId
  slot : String
  executing : Bool := false
  deriving DecidableEq

structure GpuBox where
  db : Db := {}
  lease : LeaseBox := LeaseBox.opened .blank
  now : ℚ := 0
  workers : String → GpuWorker := fun _ => {}
  admitted : List Admission := []

abbrev BoxProg := Prog GpuBox Empty

namespace GpuBox

variable (cfg : GpuWorkerConfig)

def worker (box : GpuBox) : GpuWorker := box.workers cfg.holder

def setWorker (worker : GpuWorker) (box : GpuBox) : GpuBox :=
  { box with workers := Function.update box.workers cfg.holder worker }

@[simp]
theorem worker_setWorker (cfg : GpuWorkerConfig) (worker : GpuWorker) (box : GpuBox) :
    (box.setWorker cfg worker).worker cfg = worker :=
  Function.update_self ..

def granted (box : GpuBox) (cfg : GpuWorkerConfig) (contended : Bool) : LeaseCall → Bool
  | .acquire modelId now => (cfg.lease.acquire modelId now contended box.lease.body).1
  | .renew modelId now => (cfg.lease.renew modelId now contended box.lease.body).1
  | .release => !contended

def callLease (call : LeaseCall) (contended : Bool) (box : GpuBox) : GpuBox × Bool :=
  ({ box with lease := box.lease.step cfg.ttlS ⟨cfg.holder, call, contended, box.now⟩ },
    box.granted cfg contended call)

def admitJob (job : JobId) (slot : String) (now : ℚ) (contended : Bool) (box : GpuBox) :
    GpuBox × Bool :=
  let (after, granted) := box.callLease cfg (.acquire slot now) contended
  (if granted then
    { after with admitted := ⟨cfg.holder, job, slot, false⟩ :: after.admitted }
  else
    after, granted)

def Admission.IsFor (job : JobId) (admission : Admission) : Bool :=
  admission.holder = cfg.holder ∧ admission.job = job

def start (job : JobId) (box : GpuBox) : GpuBox :=
  { box with
    admitted := box.admitted.map fun admission =>
      if Admission.IsFor cfg job admission then
        { admission with executing := true }
      else
        admission }

def finish (job : JobId) (box : GpuBox) : GpuBox :=
  { box with admitted := box.admitted.eraseP (Admission.IsFor cfg job) }

end GpuBox

/-! ### Statements -/

section

variable (cfg : GpuWorkerConfig)

def readWorker {α : Type} (view : GpuWorker → α) : BoxProg α :=
  Prog.read fun box => view (box.worker cfg)

def writeWorker (set : GpuWorker → GpuWorker) : BoxProg Unit :=
  Prog.write fun box => box.setWorker cfg (set (box.worker cfg))

def execWorker {α : Type} (run : GpuWorker → GpuWorker × α) : BoxProg α :=
  Prog.exec fun box => (box.setWorker cfg (run (box.worker cfg)).1, (run (box.worker cfg)).2)

def onSwitch {α : Type} (run : SwitchHost → SwitchHost × α) : BoxProg α :=
  execWorker cfg fun worker =>
    ({ worker with switch := (run worker.switch).1 }, (run worker.switch).2)

def onCache (set : ModelCache → ModelCache) : BoxProg Unit :=
  writeWorker cfg fun worker => { worker with cache := set worker.cache }

def onDb {α : Type} (run : Db → Db × α) : BoxProg α :=
  Prog.exec fun box => ({ box with db := (run box.db).1 }, (run box.db).2)

def acquireLease (modelId : String) (contended : Bool) : BoxProg Bool := do
  let now ← Prog.read GpuBox.now
  Prog.exec (GpuBox.callLease cfg (.acquire modelId now) contended)

def renewLeaseOf (modelId : String) (contended : Bool) : BoxProg Bool := do
  let now ← Prog.read GpuBox.now
  Prog.exec (GpuBox.callLease cfg (.renew modelId now) contended)

def releaseLease (contended : Bool) : BoxProg Unit := do
  let _ ← Prog.exec (GpuBox.callLease cfg .release contended)

end

/-! ### The warm cache

Every call holds the cache's own lock from its first statement to its last. -/

inductive CacheError where
  | modelAlreadyLoaded
  | modelLeaseDenied
  | keyError
  | loader (error : String)
  deriving DecidableEq, Repr

/-- What a call of `require_model` meets: the monotonic clock, the gate before the load, the lock of
the lease file at the acquire and at the release, the registry and the loader. -/
structure LoadEnv where
  monotonic : ℚ := 0
  gate : Bool := true
  acquireContended : Bool := false
  releaseContended : Bool := false
  registered : Bool := true
  loader : Except String (Option Value) := .ok (some .null)

structure Served where
  handle : Option Value
  loaded : Bool

section

variable (cfg : GpuWorkerConfig)

def dropCache (releaseContended : Bool) : BoxProg Unit := do
  let handle ← readWorker cfg fun worker => worker.cache.currentHandle
  if handle.isSome then
    onCache cfg ModelCache.dropped
    releaseLease cfg releaseContended

def requireModel (modelId : String) (env : LoadEnv) : BoxProg (Except CacheError Served) := do
  onCache cfg fun cache => { cache with lastUsed := env.monotonic }
  let cache ← readWorker cfg GpuWorker.cache
  if cache.currentModel = some modelId ∧ cache.currentHandle.isSome then
    return .ok ⟨cache.currentHandle, false⟩
  if !env.gate then
    return .error .modelAlreadyLoaded
  if !(← acquireLease cfg modelId env.acquireContended) then
    return .error .modelLeaseDenied
  -- The box was just acquired for the new model; dropping the old one releases the same holder.
  dropCache cfg env.releaseContended
  if !env.registered then
    return .error .keyError
  match env.loader with
  | .error error => return .error (.loader error)
  | .ok handle =>
    onCache cfg (ModelCache.loaded modelId handle)
    return .ok ⟨handle, true⟩

def reapIdleOnce (monotonic : ℚ) (releaseContended : Bool) : BoxProg Bool := do
  let cache ← readWorker cfg GpuWorker.cache
  if gpuShouldUnload cache.currentHandle.isSome cache.active (monotonic - cache.lastUsed)
      cfg.idleTtlS then
    dropCache cfg releaseContended
    return true
  else
    return false

end

end BrokerParrot
