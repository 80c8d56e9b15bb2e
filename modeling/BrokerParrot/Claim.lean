import BrokerParrot.Dialect

/-!
# The claim

A worker takes the next row of its queue with one statement: a subselect picks a queued row that
satisfies every term, in the order the statement asks for, and the outer update stamps it running.

Between rows that tie in the order the database may take any, and on PostgreSQL a row that another
transaction holds is passed over. A statement that raises changes nothing and returns no row.
-/

namespace BrokerParrot

structure ClaimEnv where
  locked : JobId → Bool := fun _ => false
  tie : ℕ := 0
  /-- The waiting rows on which the plan works every term out, besides the one it returns. -/
  visits : JobId → Bool := fun _ => false

def runClaimable (db : Db) (runId : String) : Bool :=
  match db.runStatus? runId with
  | some .cancelled => false
  | some .failed => false
  | some _ => true
  | none => false

variable (d : Dialect)

def placementTerms (box : Option String) (row : NodeJob) : Tri :=
  ((Tri.isNull row.avoidBox).or (d.arrayContainsValue row.avoidBox box).not).and
    ((Tri.isNull row.forceBox).or (d.arrayContainsValue row.forceBox box))

/-- An empty string binds as a missing parameter. -/
def orNull (text : Option String) : Option String := text.filter (· ≠ "")

def hostDir (hostPriority : ℤ) : ℚ := if hostPriority < 0 then -1 else 1

def descFlag (p : Prop) [Decidable p] : ℚ := if p then 0 else 1

structure ClaimSql where
  queue : Queue
  project : String
  host : Option String
  workerLane : ℤ
  leaseS : ℤ
  box : Option String
  capability : Db → NodeJob → Tri
  order : JobId → NodeJob → List ℚ
  stamp : NodeJob → Option String
  modelStamp : NodeJob → Option String
  /-- A term raises on this row. -/
  raisesOn : NodeJob → Bool := fun _ => false
  /-- The rows that a term sums over. -/
  counted : Db → List NodeJob := fun _ => []

namespace ClaimSql

def eligible (sql : ClaimSql) (d : Dialect) (db : Db) (row : NodeJob) : Tri :=
  Tri.all
    [.ofProp (row.queue = sql.queue), .ofProp (row.status = .queued),
      .ofProp (row.project = sql.project), .ofProp (runClaimable db row.runId),
      placementTerms d sql.box row, sql.capability db row]

def candidates (sql : ClaimSql) (d : Dialect) (env : ClaimEnv) (db : Db) :
    List (JobId × NodeJob) :=
  db.jobs.entries.filter fun entry =>
    (sql.eligible d db entry.2).Holds ∧ d.skipLocked env.locked entry.1 = false

def firsts (sql : ClaimSql) (rows : List (JobId × NodeJob)) : List (JobId × NodeJob) :=
  rows.filter fun entry => ∀ other ∈ rows, ¬ sql.order other.1 other.2 < sql.order entry.1 entry.2

def pick (sql : ClaimSql) (d : Dialect) (env : ClaimEnv) (db : Db) : Option (JobId × NodeJob) :=
  let best := sql.firsts (sql.candidates d env db)
  best[env.tie % best.length]?

def take (sql : ClaimSql) (now : ℚ) (row : NodeJob) : NodeJob :=
  { row with
    status := .running
    startedAt := some now
    workerLane := some sql.workerLane
    claimedBy := sql.host
    resolvedServer := sql.stamp row
    resolvedModel := sql.modelStamp row
    leaseExpiresAt := some (now + sql.leaseS) }

def Waiting (sql : ClaimSql) (row : NodeJob) : Prop :=
  row.queue = sql.queue ∧ row.status = .queued ∧ row.project = sql.project

instance (sql : ClaimSql) (row : NodeJob) : Decidable (sql.Waiting row) :=
  inferInstanceAs (Decidable (_ ∧ _))

/-- Before it returns a row, the statement has worked its terms out on that row and on the counted
ones. How many of the other waiting rows it looks at is up to the plan. -/
def Raises (sql : ClaimSql) (env : ClaimEnv) (db : Db) (row : NodeJob) : Prop :=
  sql.raisesOn row = true ∨ (∃ other ∈ sql.counted db, sql.raisesOn other = true) ∨
    ∃ entry ∈ db.jobs.entries, env.visits entry.1 = true ∧ sql.Waiting entry.2 ∧
      sql.raisesOn entry.2 = true

instance (sql : ClaimSql) (env : ClaimEnv) (db : Db) (row : NodeJob) :
    Decidable (sql.Raises env db row) :=
  inferInstanceAs (Decidable (_ ∨ _))

def execute (sql : ClaimSql) (d : Dialect) (env : ClaimEnv) (db : Db) :
    Db × Option (JobId × NodeJob) :=
  match sql.pick d env db with
  | none => (db, none)
  | some (id, row) =>
    if sql.Raises env db row then
      (db, none)
    else
      ({ db with jobs := db.jobs.modify id (sql.take db.now) }, some (id, sql.take db.now row))

end ClaimSql

/-! ### The cpu and download claims -/

structure CpuClaim where
  workerLane : ℤ := 0
  host : Option String := none
  leaseS : ℤ := 600
  hostPriority : ℤ := 0
  project : String := ""
  box : Option String := none
  laneWidth : Option ℤ := none
  freeSlots : Option ℤ := none

/-- `LEAST(GREATEST(COALESCE(c.cpu_slots, 1), 1), lane_width)`. -/
def claimWeight (laneWidth : ℤ) (row : NodeJob) : ℤ :=
  min (max (row.cpuSlots.getD 1) 1) laneWidth

def CpuClaim.width (args : CpuClaim) (row : NodeJob) : Tri :=
  match args.laneWidth, args.freeSlots with
  | some laneWidth, some freeSlots => .ofProp (claimWeight laneWidth row ≤ freeSlots)
  | _, _ => some true

def plainOrder (hostPriority : ℤ) (id : JobId) (row : NodeJob) : List ℚ :=
  [descFlag row.isPriority, row.priority, d.creationOrder id row * hostDir hostPriority]

def CpuClaim.sql (args : CpuClaim) (d : Dialect) : ClaimSql where
  queue := .cpu
  project := args.project
  host := args.host
  workerLane := args.workerLane
  leaseS := args.leaseS
  box := orNull args.box
  capability := fun _ row => args.width row
  order := plainOrder d args.hostPriority
  stamp := fun _ => none
  modelStamp := fun _ => none

def claimNextCpuJob (args : CpuClaim) (env : ClaimEnv) (db : Db) : Db × Option (JobId × NodeJob) :=
  (args.sql d).execute d env db

structure DownloadClaim where
  workerLane : ℤ := 0
  host : Option String := none
  leaseS : ℤ := 600
  hostPriority : ℤ := 0
  project : String := ""
  box : Option String := none
  maxConcurrent : ℤ := 1

def runningDownloads (db : Db) (project : String) : List JobId :=
  db.jobs.collect fun id row =>
    if row.status = .running ∧ row.queue = .download ∧ row.project = project then some id else none

def DownloadClaim.sql (args : DownloadClaim) (d : Dialect) : ClaimSql where
  queue := .download
  project := args.project
  host := args.host
  workerLane := args.workerLane
  leaseS := args.leaseS
  box := orNull args.box
  capability := fun db _ =>
    .ofProp (((runningDownloads db args.project).length : ℤ) < max 1 args.maxConcurrent)
  order := plainOrder d args.hostPriority
  stamp := fun _ => none
  modelStamp := fun _ => none

def claimNextDownloadJob (args : DownloadClaim) (env : ClaimEnv) (db : Db) :
    Db × Option (JobId × NodeJob) :=
  (args.sql d).execute d env db

/-! ### The gpu claim -/

/-- The declared kind of a cluster reservation: a row that asks for a box, not for a server. -/
def clusterServerKind : String := "cluster"

def inprocessServerKind : String := "inprocess"

def defaultServerKind : String := "ollama"

structure GpuClaim where
  workerLane : ℤ := 0
  currentModel : Option String := none
  host : Option String := none
  leaseS : ℤ := 600
  hostPriority : ℤ := 0
  knownModels : List String := []
  requireModel : Option Bool := none
  poolModules : List String := []
  project : String := ""
  maxRunning : Option ℤ := none
  box : Option String := none
  servedTypes : List String := []
  warmServers : List String := []
  warmModels : List String := []
  kindCaps : Option (OrdDict String ℤ) := none
  defaultServer : Option String := none
  servingContext : Option ℤ := none
  reservationsOnly : Bool := false

def nonBlank (texts : List String) : List String := texts.filter (· ≠ "")

def gpuWeight (budget : ℤ) : Option GpuSlots → ℤ
  | none => 1
  | some .all => budget
  | some .half => (budget + 1).tdiv 2
  | some (.count n) => min (max n 1) budget

/-- The width cannot be worked out. -/
def oversized : Option GpuSlots → Bool
  | some (.count n) => d.castRaises n
  | _ => false

/-- The scope every arbiter counts over: a running gpu row of this host and project. -/
def RunningHere (host : Option String) (project : String) (row : NodeJob) : Prop :=
  row.status = .running ∧ row.queue = .gpu ∧ (Tri.eq row.claimedBy host).Holds ∧
    row.project = project

instance (host : Option String) (project : String) (row : NodeJob) :
    Decidable (RunningHere host project row) :=
  inferInstanceAs (Decidable (_ ∧ _))

def runningHere (db : Db) (host : Option String) (project : String) : List NodeJob :=
  db.jobs.collect fun _ row => if RunningHere host project row then some row else none

def runningWeight (db : Db) (host : Option String) (project : String) (budget : ℤ) : ℤ :=
  ((runningHere db host project).map fun row => gpuWeight budget row.gpuSlots).sum

def CountsAgainst (kind : Option String) (row : NodeJob) : Prop :=
  ((Tri.eq row.resolvedServer kind).or (Tri.isNull row.resolvedServer)).Holds

instance (kind : Option String) (row : NodeJob) : Decidable (CountsAgainst kind row) :=
  inferInstanceAs (Decidable (Tri.Holds _))

def kindCount (db : Db) (host : Option String) (project : String) (kind : Option String) : ℤ :=
  ((runningHere db host project).filter fun row => CountsAgainst kind row).length

namespace GpuClaim

variable (args : GpuClaim) (d : Dialect)

def served : List String := nonBlank args.servedTypes

def known : List String := nonBlank args.knownModels

def pool : List String := nonBlank args.poolModules

def hosted : Bool := (orNull args.host).isSome

def servedGate (row : NodeJob) : Tri :=
  if args.served = [] then
    some true
  else
    ((Tri.isNull row.serverTypes).or (d.arraysOverlap row.serverTypes args.served)).or
      (d.arraysOverlap row.serverTypes [clusterServerKind])

def knownGate (row : NodeJob) : Tri :=
  if args.known = [] then
    some true
  else
    ((Tri.isNull row.requiredModel).or (Dialect.valueInParamArray row.requiredModel args.known)).or
      ((Tri.isNotNull row.requiredModelIds).and (d.arraysOverlap row.requiredModelIds args.known))

def contextGate (row : NodeJob) : Tri :=
  match args.servingContext with
  | none => Tri.isNull row.contextLength
  | some serving =>
    (Tri.isNull row.contextLength).or (Tri.compare (· ≤ ·) row.contextLength (some serving))

/-- The lane split. A remote-served row belongs to the pool lane whatever its module. -/
def laneGate (row : NodeJob) : Tri :=
  let remote := Tri.isNotNull row.serverTypes
  let poolModule := Dialect.valueInParamArray (some row.nodeModule) args.pool
  match args.requireModel with
  | some true =>
    if args.pool = [] then
      remote.not.and (Tri.isNotNull row.requiredModel)
    else
      remote.not.and ((Tri.isNotNull row.requiredModel).or poolModule.not)
  | some false =>
    if args.pool = [] then
      (Tri.isNull row.requiredModel).or remote
    else
      ((Tri.isNull row.requiredModel).and poolModule).or remote
  | none => some true

def eligibility (row : NodeJob) : Tri :=
  Tri.all [args.servedGate d row, args.knownGate d row, args.contextGate row, args.laneGate row]

def reservationsGate (row : NodeJob) : Tri :=
  if args.reservationsOnly then
    (Tri.isNotNull row.serverTypes).and (d.arraysOverlap row.serverTypes [clusterServerKind])
  else
    some true

def budget : Option ℤ := if args.hosted then args.maxRunning else none

def boxSlotGate (db : Db) (row : NodeJob) : Tri :=
  match args.budget with
  | some budget =>
    .ofProp (runningWeight db args.host args.project budget +
      gpuWeight budget row.gpuSlots ≤ budget)
  | none => some true

def RunNextWide (budget : ℤ) (row : NodeJob) : Prop :=
  row.isPriority = true ∧ row.gpuSlots.isSome ∧ 1 < gpuWeight budget row.gpuSlots

instance (budget : ℤ) (row : NodeJob) : Decidable (RunNextWide budget row) :=
  inferInstanceAs (Decidable (_ ∧ _))

/-- A queued row that reserves the box: run-next, wide, and claimable here but for what runs. -/
def Reserves (db : Db) (budget : ℤ) (row : NodeJob) : Prop :=
  row.queue = .gpu ∧ row.status = .queued ∧ row.project = args.project ∧
    runClaimable db row.runId ∧ (placementTerms d (orNull args.box) row).Holds ∧
    (args.eligibility d row).Holds ∧ RunNextWide budget row

instance (args : GpuClaim) (d : Dialect) (db : Db) (budget : ℤ) (row : NodeJob) :
    Decidable (args.Reserves d db budget row) :=
  inferInstanceAs (Decidable (_ ∧ _))

def reservationGate (db : Db) (row : NodeJob) : Tri :=
  match args.budget with
  | some budget =>
    .ofProp (RunNextWide budget row ∨
      ¬ ∃ entry ∈ db.jobs.entries, args.Reserves d db budget entry.2)
  | none => some true

def kindStamp (row : NodeJob) : Option String :=
  -- A served kind that the row names, else its first kind, else the kind of an undeclared row.
  (if args.served = [] then none else Dialect.firstOverlap row.serverTypes args.served).or
    ((Dialect.arrayFirst row.serverTypes).or
      (if row.requiredModel.isSome then
        some inprocessServerKind
      else
        some ((orNull args.defaultServer).getD defaultServerKind)))

def caps : OrdDict String ℤ :=
  match args.kindCaps with
  | none => OrdDict.empty.insert "vllm" (max 1 (args.maxRunning.getD 1))
  | some kindCaps => kindCaps.filter fun _ cap => cap ≠ 0

def lawOn : Bool := !args.caps.isEmpty && args.hosted

def capOf (kind : Option String) : ℤ :=
  match kind with
  | some name => (args.caps.get? name).getD 1
  | none => 1

def kindGate (db : Db) (row : NodeJob) : Tri :=
  if args.lawOn then
    .ofProp (kindCount db args.host args.project (args.kindStamp row) <
      args.capOf (args.kindStamp row))
  else
    some true

def modelStamp (row : NodeJob) : Option String :=
  if args.known = [] then
    row.requiredModel
  else
    (Dialect.firstOverlap row.requiredModelIds args.known).or row.requiredModel

def warmScore (row : NodeJob) : ℚ :=
  if row.serverTypes.isNone then
    0
  else
    (if (d.arraysOverlap row.serverTypes (nonBlank args.warmServers)).Holds then 2 else 0) +
      (if ((Tri.isNotNull row.requiredModel).and
        (Dialect.valueInParamArray row.requiredModel (nonBlank args.warmModels))).Holds
        then 1 else 0)

def order (id : JobId) (row : NodeJob) : List ℚ :=
  [descFlag row.isPriority, descFlag (row.requiredModel = args.currentModel),
    -args.warmScore d row, row.priority, d.creationOrder id row * hostDir args.hostPriority]

def capability (db : Db) (row : NodeJob) : Tri :=
  Tri.all [args.eligibility d row, args.reservationsGate d row, args.boxSlotGate db row,
    args.reservationGate d db row, args.kindGate db row]

def sql : ClaimSql where
  queue := .gpu
  project := args.project
  host := args.host
  workerLane := args.workerLane
  leaseS := args.leaseS
  box := orNull args.box
  capability := args.capability d
  order := args.order d
  stamp := fun row => if args.lawOn then args.kindStamp row else none
  modelStamp := args.modelStamp
  raisesOn := fun row => args.budget.isSome && oversized d row.gpuSlots
  counted := fun db => runningHere db args.host args.project

end GpuClaim

def claimNextGpuJob (args : GpuClaim) (env : ClaimEnv) (db : Db) : Db × Option (JobId × NodeJob) :=
  (args.sql d).execute d env db

end BrokerParrot
