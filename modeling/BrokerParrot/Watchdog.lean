import BrokerParrot.Dispatcher

/-!
# The watchdog

A watchdog that trips over a wedged node puts it back on the queue for a fresh worker, until the
node has used up its retries; then it fails it. The trip ends the process, so a worker with several
threads first releases the other claims it holds.

The stall watchdog goes by beats. When none came in time it looks at the card and the memory for a
while, and trips if both rest.
-/

namespace BrokerParrot

def readRetries (readable : Bool) (id : JobId) (db : Db) : ℕ :=
  if readable then ((db.jobs.get? id).map NodeJob.watchdogRetries).getD 0 else 0

def watchdogTrip (cap : ℕ) (readable : Bool) (id : JobId) (error : String) : DbProg Unit := do
  let retries ← Prog.read (readRetries readable id)
  if retries < cap then
    Prog.write fun db => (requeueJobForRetry id db).1
  else
    Prog.write (failJobAndExit id error)

/-- The first statement of `requeue_running_job` selects the row for update, the start time is
compared in the process, and the second statement asks for the owner only. Given are what others
commit between the two and whether the second one raises. -/
structure ReleaseTxn where
  id : JobId
  worker : WorkerKey
  startedAt : ℚ
  between : List QueueOp
  raises : Bool

namespace ReleaseTxn

def found (txn : ReleaseTxn) (db : Db) : Bool :=
  (db.jobs.get? txn.id).any fun row =>
    row.status = .running ∧ OwnedBy txn.worker row ∧ row.startedAt = some txn.startedAt

def exec (txn : ReleaseTxn) (d : Dialect) (db : Db) : Db :=
  if txn.found db ∧ txn.raises = false then
    requeueRunningJob txn.id txn.worker none (QueueOp.run d db txn.between)
  else
    QueueOp.run d db txn.between

/-- PostgreSQL locks the row that was selected. On SQLite an update raises if anybody has written
since the transaction's first read. -/
def Isolated (txn : ReleaseTxn) (d : Dialect) (db : Db) : Prop :=
  txn.found db → txn.raises = false → ∀ before, before <+: txn.between →
    match d with
    | .pg => (QueueOp.run d db before).jobs.get? txn.id = db.jobs.get? txn.id
    | .sqlite => (QueueOp.run d db before).jobs = db.jobs

end ReleaseTxn

/-! ### The stall watchdog -/

structure StallConfig where
  stallTimeout : ℚ
  idlePct : ℤ
  ramDelta : ℤ
  confirmSamples : ℤ
  confirmIdle : Bool := true

/-- The samples that `max(1, int(confirm_samples))` asks for, after the first one. -/
def StallConfig.moreSamples (cfg : StallConfig) : ℕ := (max 1 cfg.confirmSamples).toNat - 1

abbrev Reading := Except String (Option ℤ)

def sampleGpu : Reading → ℤ
  | .ok value => value.getD 0
  | .error _ => 0

def sampleRam : Reading → Option ℤ
  | .ok value => value
  | .error _ => none

/-- The beats before the deadline is read, the clock, the samples by their number, whether a wait
finds the watchdog stopped, the beats from the read of the deadline on, and the clock of the
re-arming. -/
structure StallRound where
  beats : List ℚ := []
  clock : ℚ
  gpu : ℕ → Reading
  ram : ℕ → Reading
  stopped : ℕ → Bool := fun _ => false
  lateBeats : List ℚ := []
  rearmClock : ℚ

namespace StallRound

/-- `max_util` and `ram_now` after so many rounds of the confirmation, none once it is stopped. -/
def window (round : StallRound) : ℕ → Option (ℤ × Option ℤ)
  | 0 => some (sampleGpu (round.gpu 0), sampleRam (round.ram 0))
  | more + 1 => do
    let (maxUtil, _) ← round.window more
    if round.stopped more then none
    else some (max maxUtil (sampleGpu (round.gpu (more + 1))), sampleRam (round.ram (more + 1)))

def ramMoved (cfg : StallConfig) : Option ℤ → Option ℤ → Bool
  | some anchor, some now => cfg.ramDelta < |now - anchor|
  | _, _ => false

def confirmWedged (cfg : StallConfig) (round : StallRound) : Bool :=
  match round.window cfg.moreSamples with
  | none => false
  | some (maxUtil, ramNow) =>
    maxUtil ≤ cfg.idlePct ∧ ¬ ramMoved cfg (sampleRam (round.ram 0)) ramNow

end StallRound

structure StallWatchdog where
  deadline : Option ℚ := none
  tripped : Bool := false

namespace StallWatchdog

variable (cfg : StallConfig)

def beat (clock : ℚ) (dog : StallWatchdog) : StallWatchdog :=
  { dog with deadline := some (clock + cfg.stallTimeout) }

def beaten (dog : StallWatchdog) (clocks : List ℚ) : StallWatchdog :=
  clocks.foldl (fun dog clock => dog.beat cfg clock) dog

def expired (dog : StallWatchdog) (clock : ℚ) : Bool := dog.deadline.any (· ≤ clock)

/-- A round of `_loop`. A trip ends the thread; re-arming hides the beats of the confirmation. -/
def step (dog : StallWatchdog) (round : StallRound) : StallWatchdog :=
  if dog.tripped then dog
  else
    let read := dog.beaten cfg round.beats
    let late := read.beaten cfg round.lateBeats
    if read.expired round.clock then
      if !cfg.confirmIdle || round.confirmWedged cfg then { late with tripped := true }
      else late.beat cfg round.rearmClock
    else late

end StallWatchdog

end BrokerParrot
