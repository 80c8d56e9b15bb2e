import Mathlib.Data.String.Basic
import BrokerParrot.NodeQueue

/-!
# The fleet

What the engine reads of its machines to schedule gpu work: which box should wait for a better
placed one, which box should restart its server at a wider context window, and which queued rows no
live machine can take.
-/

namespace BrokerParrot

/-- The order of labels, which is the collation of the database. -/
structure Collation where
  lt : String → String → Bool
  irrefl : ∀ label, lt label label = false
  trans : ∀ a b c, lt a b = true → lt b c = true → lt a c = true
  total : ∀ a b, a ≠ b → lt a b = true ∨ lt b a = true

def Collation.binary : Collation where
  lt := fun a b => decide (a < b)
  irrefl := fun label => decide_eq_false (lt_irrefl label)
  trans := fun _ _ _ hab hbc =>
    decide_eq_true (lt_trans (of_decide_eq_true hab) (of_decide_eq_true hbc))
  total := fun _ _ hne => (lt_or_gt_of_ne hne).imp decide_eq_true decide_eq_true

def poolRowTerm (row : NodeJob) : Tri :=
  (Tri.isNull row.requiredModel).or (Tri.isNotNull row.serverTypes)

/-! ### Filling one box before the next -/

structure PoolFeeder where
  hostLabel : String
  par : ℤ
  staleS : ℤ := 30
  starveS : ℤ := 20
  project : String := ""
  box : Option String := none

namespace PoolFeeder

variable (args : PoolFeeder)

def Fresh (db : Db) (worker : WorkerKey) (beat : Heartbeat) : Prop :=
  worker.queue = .gpu ∧ worker.project = args.project ∧
    db.now - max 1 args.staleS < beat.lastSeen

instance (args : PoolFeeder) (db : Db) (worker : WorkerKey) (beat : Heartbeat) :
    Decidable (args.Fresh db worker beat) :=
  inferInstanceAs (Decidable (_ ∧ _))

def RankedAbove (collation : Collation) (worker : WorkerKey) (beat : Heartbeat) : Prop :=
  args.par < beat.concurrency ∨
    (beat.concurrency = args.par ∧ collation.lt worker.hostLabel args.hostLabel = true)

instance (args : PoolFeeder) (collation : Collation) (worker : WorkerKey) (beat : Heartbeat) :
    Decidable (args.RankedAbove collation worker beat) :=
  inferInstanceAs (Decidable (_ ∨ _))

def runningPool (db : Db) (host : String) : List NodeJob :=
  db.jobs.collect fun _ row =>
    if row.queue = .gpu ∧ row.status = .running ∧ (poolRowTerm row).Holds ∧
        row.project = args.project ∧ row.claimedBy = some host then
      some row
    else
      none

def HasRoom (db : Db) (worker : WorkerKey) (beat : Heartbeat) : Prop :=
  ((args.runningPool db worker.hostLabel).length : ℤ) < beat.concurrency

instance (args : PoolFeeder) (db : Db) (worker : WorkerKey) (beat : Heartbeat) :
    Decidable (args.HasRoom db worker beat) :=
  inferInstanceAs (Decidable (_ < _))

/-- A queued pool row that this box could claim and that must not wait: run-next, or too old. -/
def Starving (d : Dialect) (db : Db) (row : NodeJob) : Prop :=
  row.queue = .gpu ∧ row.status = .queued ∧ (poolRowTerm row).Holds ∧ row.project = args.project ∧
    runClaimable db row.runId = true ∧ (placementTerms d (orNull args.box) row).Holds ∧
    (row.createdAt < db.now - max 1 args.starveS ∨ row.isPriority = true)

instance (args : PoolFeeder) (d : Dialect) (db : Db) (row : NodeJob) :
    Decidable (args.Starving d db row) :=
  inferInstanceAs (Decidable (_ ∧ _))

end PoolFeeder

def vlmPoolShouldDefer (d : Dialect) (collation : Collation) (args : PoolFeeder) (db : Db) : Bool :=
  decide (∃ entry ∈ db.heartbeats.entries, args.Fresh db entry.1 entry.2 ∧
      args.RankedAbove collation entry.1 entry.2 ∧ args.HasRoom db entry.1 entry.2) &&
    !decide (∃ entry ∈ db.jobs.entries, args.Starving d db entry.2)

/-! ### The fleet's other columns -/

structure Advert where
  contextLength : Option ℤ := none
  contextMax : Option ℤ := none
  fitsModels : List String := []
  knownModels : List String := []
  vramTotalMb : Option ℤ := none
  llmServersAvailable : List String := ["ollama"]

inductive DesiredState where
  | on
  | off
  deriving DecidableEq

structure RedFlag where
  raisedAt : Option ℚ := none
  reason : Option String := none
  deriving DecidableEq

structure Fleet where
  db : Db
  adverts : WorkerKey → Advert := fun _ => {}
  controls : OrdDict WorkerKey DesiredState := OrdDict.empty
  flags : JobId → RedFlag := fun _ => {}

namespace Fleet

def liveGpu (fleet : Fleet) (project : String) (windowS : ℚ) : List WorkerKey :=
  fleet.db.heartbeats.collect fun worker beat =>
    if worker.queue = .gpu ∧ worker.project = project ∧ fleet.db.now - windowS < beat.lastSeen then
      some worker
    else
      none

theorem key_of_mem_liveGpu {fleet : Fleet} {project : String} {windowS : ℚ} {worker : WorkerKey}
    (hlive : worker ∈ fleet.liveGpu project windowS) :
    worker.queue = .gpu ∧ worker.project = project := by
  obtain ⟨key, hseen⟩ := OrdDict.mem_collect.mp hlive
  obtain ⟨beat, -, hview⟩ := Option.bind_eq_some_iff.mp hseen
  dsimp only at hview
  split_ifs at hview with hfresh
  cases hview
  exact ⟨hfresh.1, hfresh.2.1⟩

/-! ### The context switch -/

def Parked (fleet : Fleet) (project host : String) : Prop :=
  fleet.controls.get? ⟨host, .gpu, project⟩ = some .off

instance (fleet : Fleet) (project host : String) : Decidable (fleet.Parked project host) :=
  inferInstanceAs (Decidable (_ = _))

end Fleet

structure ContextNeed where
  host : String
  serving : Option ℤ
  ceiling : Option ℤ
  box : Option String := none
  project : String := ""
  windowS : ℚ := 30
  minAgeS : ℚ := 30
  elect : Bool := true

namespace ContextNeed

def live (args : ContextNeed) (fleet : Fleet) : List WorkerKey :=
  (fleet.liveGpu args.project args.windowS).filter fun worker =>
    ¬ fleet.Parked args.project worker.hostLabel

def Outbid (args : ContextNeed) (collation : Collation) (fleet : Fleet) (ceiling : ℤ)
    (row : NodeJob) (worker : WorkerKey) : Prop :=
  (Tri.compare (· ≤ ·) row.contextLength (fleet.adverts worker).contextMax).Holds ∧
    ((Tri.compare (· < ·) (fleet.adverts worker).contextMax (some ceiling)).Holds ∨
      ((Tri.eq (fleet.adverts worker).contextMax (some ceiling)).Holds ∧
        collation.lt worker.hostLabel args.host = true))

instance (args : ContextNeed) (collation : Collation) (fleet : Fleet) (ceiling : ℤ)
    (row : NodeJob) (worker : WorkerKey) :
    Decidable (args.Outbid collation fleet ceiling row worker) :=
  inferInstanceAs (Decidable (_ ∧ _))

def Asks (args : ContextNeed) (d : Dialect) (collation : Collation) (fleet : Fleet) (ceiling : ℤ)
    (row : NodeJob) : Prop :=
  row.queue = .gpu ∧ row.status = .queued ∧ row.project = args.project ∧
    (Tri.compare (· < ·) (some (args.serving.getD 0)) row.contextLength).Holds ∧
    (Tri.compare (· ≤ ·) row.contextLength (some ceiling)).Holds ∧
    row.createdAt ≤ fleet.db.now - args.minAgeS ∧ (placementTerms d args.box row).Holds ∧
    runClaimable fleet.db row.runId = true ∧
    (∀ worker ∈ args.live fleet,
      ¬ (Tri.compare (· ≤ ·) row.contextLength (fleet.adverts worker).contextLength).Holds) ∧
    (args.elect = true → ∀ worker ∈ args.live fleet,
      ¬ args.Outbid collation fleet ceiling row worker)

instance (args : ContextNeed) (d : Dialect) (collation : Collation) (fleet : Fleet) (ceiling : ℤ)
    (row : NodeJob) : Decidable (args.Asks d collation fleet ceiling row) :=
  inferInstanceAs (Decidable (_ ∧ _))

end ContextNeed

def contextSwitchNeed (d : Dialect) (collation : Collation) (args : ContextNeed) (fleet : Fleet) :
    Option ℤ :=
  args.ceiling.bind fun ceiling =>
    let asked := fleet.db.jobs.collect fun _ row =>
      if args.Asks d collation fleet ceiling row then row.contextLength else none
    asked.max?.filter (· ≠ 0)

/-! ### Rows nobody can take -/

structure Flagged where
  id : JobId
  row : NodeJob
  flag : RedFlag

namespace Fleet

variable (fleet : Fleet)

def setFlags (selects : JobId → NodeJob → Prop) [∀ id row, Decidable (selects id row)]
    (flag : NodeJob → RedFlag) : Fleet :=
  { fleet with
    flags := fun id =>
      match fleet.db.jobs.get? id with
      | some row => if selects id row then flag row else fleet.flags id
      | none => fleet.flags id }

def flagged (selects : JobId → NodeJob → Prop) [∀ id row, Decidable (selects id row)]
    (flag : NodeJob → RedFlag) : List Flagged :=
  fleet.db.jobs.collect fun id row => if selects id row then some ⟨id, row, flag row⟩ else none

def sweep (clears raises : Fleet → JobId → NodeJob → Prop)
    [∀ fleet id row, Decidable (clears fleet id row)]
    [∀ fleet id row, Decidable (raises fleet id row)] (reason : NodeJob → Option String) :
    Fleet × List Flagged :=
  let cleared := fleet.setFlags (clears fleet) fun _ => {}
  let flag := fun row => { raisedAt := some fleet.db.now, reason := reason row }
  (cleared.setFlags (raises cleared) flag, cleared.flagged (raises cleared) flag)

section

def strandedStart : String := "no live worker serves"

variable (d : Dialect) (project : String) (windowS : ℚ) (fleet : Fleet)

/-- A live worker that serves one of the row's kinds. One that advertises none claims any row. -/
def ServedBySome (row : NodeJob) : Prop :=
  ∃ worker ∈ fleet.liveGpu project windowS,
    (d.arraysOverlap row.serverTypes (fleet.adverts worker).llmServersAvailable).Holds ∨
      (fleet.adverts worker).llmServersAvailable = []

instance (fleet : Fleet) (row : NodeJob) : Decidable (fleet.ServedBySome d project windowS row) :=
  inferInstanceAs (Decidable (∃ worker ∈ _, _))

def ClearsStranded (id : JobId) (row : NodeJob) : Prop :=
  (fleet.flags id).raisedAt ≠ none ∧ (d.likeStart strandedStart (fleet.flags id).reason).Holds ∧
    row.project = project ∧ row.serverTypes ≠ none ∧
    (row.status ≠ .queued ∨ fleet.ServedBySome d project windowS row ∨
      (d.arraysOverlap row.serverTypes [clusterServerKind]).Holds)

instance (fleet : Fleet) (id : JobId) (row : NodeJob) :
    Decidable (fleet.ClearsStranded d project windowS id row) :=
  inferInstanceAs (Decidable (_ ∧ _))

def RaisesStranded (id : JobId) (row : NodeJob) : Prop :=
  row.status = .queued ∧ row.queue = .gpu ∧ row.project = project ∧ row.serverTypes ≠ none ∧
    (fleet.flags id).raisedAt = none ∧
    (d.arraysOverlap row.serverTypes [clusterServerKind]).not.Holds ∧
    fleet.liveGpu project windowS ≠ [] ∧ ¬ fleet.ServedBySome d project windowS row

instance (fleet : Fleet) (id : JobId) (row : NodeJob) :
    Decidable (fleet.RaisesStranded d project windowS id row) :=
  inferInstanceAs (Decidable (_ ∧ _))

def strandedReason (row : NodeJob) : Option String :=
  row.serverTypes.map fun kinds => "no live worker serves any of: " ++ d.arrayToText kinds

def flagServerStrandedJobs : Fleet × List Flagged :=
  fleet.sweep (ClearsStranded d project windowS) (RaisesStranded d project windowS)
    (strandedReason d)

end

section

variable (d : Dialect) (project : String) (windowS : ℚ) (fleet : Fleet)

def Fits (row : NodeJob) (worker : WorkerKey) : Prop :=
  (d.arrayContainsValue (some (fleet.adverts worker).fitsModels) row.requiredModel).Holds

instance (fleet : Fleet) (row : NodeJob) (worker : WorkerKey) :
    Decidable (fleet.Fits d row worker) :=
  inferInstanceAs (Decidable (Tri.Holds _))

def Knows (row : NodeJob) (worker : WorkerKey) : Prop :=
  (d.arrayContainsValue (some (fleet.adverts worker).knownModels) row.requiredModel).Holds

instance (fleet : Fleet) (row : NodeJob) (worker : WorkerKey) :
    Decidable (fleet.Knows d row worker) :=
  inferInstanceAs (Decidable (Tri.Holds _))

def Reaches (row : NodeJob) (worker : WorkerKey) : Prop :=
  (Tri.compare (· ≤ ·) row.contextLength (fleet.adverts worker).contextMax).Holds

instance (fleet : Fleet) (row : NodeJob) (worker : WorkerKey) :
    Decidable (fleet.Reaches row worker) :=
  inferInstanceAs (Decidable (Tri.Holds _))

def ServesHere (row : NodeJob) (worker : WorkerKey) : Prop :=
  (row.requiredModel = none ∨ fleet.Fits d row worker) ∧
    (row.contextLength = none ∨ fleet.Reaches row worker)

instance (fleet : Fleet) (row : NodeJob) (worker : WorkerKey) :
    Decidable (fleet.ServesHere d row worker) :=
  inferInstanceAs (Decidable (_ ∧ _))

def ClearsUnassignable (id : JobId) (row : NodeJob) : Prop :=
  (fleet.flags id).raisedAt ≠ none ∧
    ((Tri.isNull (fleet.flags id).reason).or
      (d.likeStart strandedStart (fleet.flags id).reason).not).Holds ∧
    row.project = project ∧
    (row.status ≠ .queued ∨ ∃ worker ∈ fleet.liveGpu project windowS, fleet.ServesHere d row worker)

instance (fleet : Fleet) (id : JobId) (row : NodeJob) :
    Decidable (fleet.ClearsUnassignable d project windowS id row) :=
  inferInstanceAs (Decidable (_ ∧ _))

def RaisesUnassignable (id : JobId) (row : NodeJob) : Prop :=
  row.queue = .gpu ∧ row.project = project ∧ row.status = .queued ∧
    (row.requiredModel ≠ none ∨ row.contextLength ≠ none) ∧ (fleet.flags id).raisedAt = none ∧
    0 < (fleet.liveGpu project windowS).length ∧
    ¬ ∃ worker ∈ fleet.liveGpu project windowS, fleet.ServesHere d row worker

instance (fleet : Fleet) (id : JobId) (row : NodeJob) :
    Decidable (fleet.RaisesUnassignable d project windowS id row) :=
  inferInstanceAs (Decidable (_ ∧ _))

def largest (column : Advert → Option ℤ) : String :=
  (((fleet.liveGpu project windowS).filterMap fun worker =>
    column (fleet.adverts worker)).max?.map toString).getD "unknown"

def unassignableReason (row : NodeJob) : Option String :=
  let live := fleet.liveGpu project windowS
  let boxes := "none of " ++ toString live.length ++ " live GPU machine(s) "
  -- The window comes first: when no box reaches it, the model does not matter.
  if row.contextLength ≠ none ∧ ¬ ∃ worker ∈ live, fleet.Reaches row worker then
    row.contextLength.map fun context =>
      "no live GPU machine can serve a " ++ toString context ++ "-token context — " ++ boxes ++
        "reaches it (largest reachable: " ++ fleet.largest project windowS Advert.contextMax ++
        " tokens, checked against each box's free memory)"
  else if row.requiredModel ≠ none ∧ ¬ ∃ worker ∈ live, fleet.Knows d row worker then
    row.requiredModel.map fun model =>
      "no live GPU machine SERVES model " ++ model ++ " — " ++ boxes ++
        "advertises it (weights not installed, or its server does not report the tag)"
  else if row.requiredModel ≠ none ∧ ¬ ∃ worker ∈ live, fleet.Fits d row worker then
    row.requiredModel.map fun model =>
      "no live GPU machine can hold model " ++ model ++ " — " ++ boxes ++
        "has enough VRAM (max " ++ fleet.largest project windowS Advert.vramTotalMb ++ "MB)"
  else do
    let model ← row.requiredModel
    let context ← row.contextLength
    return "no single live GPU machine both holds model " ++ model ++ " and reaches a " ++
      toString context ++ "-token context — " ++ boxes ++ "has both"

def flagUnassignableGpuJobs : Fleet × List Flagged :=
  fleet.sweep (ClearsUnassignable d project windowS) (RaisesUnassignable d project windowS)
    (fleet.unassignableReason d project windowS)

end

end Fleet

/-! ### Silent workers -/

structure StaleWorker where
  worker : WorkerKey
  lastSeen : ℚ
  runningJobs : ℕ
  deriving DecidableEq

/-- The database with the column `last_flagged_dead_at` of the heartbeats. -/
structure DeadFlags where
  db : Db
  flaggedAt : WorkerKey → Option ℚ := fun _ => none

namespace DeadFlags

def runningJobs (board : DeadFlags) (worker : WorkerKey) : ℕ :=
  (board.db.jobs.collect fun id row =>
    if row.claimedBy = some worker.hostLabel ∧ row.queue = worker.queue ∧
        row.project = worker.project ∧ row.status = .running then some id else none).length

variable (project : String) (thresholdS : ℚ) (board : DeadFlags)

def Silent (worker : WorkerKey) (beat : Heartbeat) : Prop :=
  worker.project = project ∧ beat.lastSeen < board.db.now - thresholdS ∧
    0 < board.runningJobs worker

def FlagAged (worker : WorkerKey) : Prop :=
  ∀ flagged ∈ board.flaggedAt worker, flagged < board.db.now - thresholdS

instance (board : DeadFlags) (worker : WorkerKey) (beat : Heartbeat) :
    Decidable (board.Silent project thresholdS worker beat ∧ board.FlagAged thresholdS worker) :=
  inferInstanceAs (Decidable ((_ ∧ _) ∧ ∀ flagged ∈ _, _))

def staleWorkers : List StaleWorker :=
  board.db.heartbeats.collect fun worker beat =>
    if board.Silent project thresholdS worker beat ∧ board.FlagAged thresholdS worker then
      some ⟨worker, beat.lastSeen, board.runningJobs worker⟩
    else
      none

def flagStaleWorkersHoldingRunningJobs : DeadFlags × List StaleWorker :=
  let stale := board.staleWorkers project thresholdS
  ({ board with
      flaggedAt := fun worker =>
        if worker ∈ stale.map StaleWorker.worker then some board.db.now
        else board.flaggedAt worker },
    stale)

end DeadFlags

end BrokerParrot
