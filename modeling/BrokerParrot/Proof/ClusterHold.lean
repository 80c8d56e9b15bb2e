import BrokerParrot.GpuWorker
import BrokerParrot.Proof.BoxSlots

/-!
# The claims of a held box

A worker that holds its box for a cluster reservation narrows its pool lane to reservations. The
inline lane never asks about the hold: it takes whatever its claim statement finds. What can keep it
from finding a job is the slot budget, so beside a running reservation it stays shut exactly when
that reservation weighs the whole budget.
-/

namespace BrokerParrot

open Prog Tri List GpuClaim

variable {fact : GpuBox → Prop} {d : Dialect}

def Held (cfg : GpuWorkerConfig) (job : JobId) (box : GpuBox) : Prop :=
  ((box.worker cfg).clusterHolds.get? job).isSome = true

instance (cfg : GpuWorkerConfig) (job : JobId) (box : GpuBox) : Decidable (Held cfg job box) :=
  inferInstanceAs (Decidable (_ = true))

structure HeldIn (cfg : GpuWorkerConfig) (job : JobId) (queue : Db → Prop) (box : GpuBox) :
    Prop where
  held : Held cfg job box
  queued : queue box.db

def ReservationRuns (cfg : GpuWorkerConfig) (job : JobId) (slots : Option GpuSlots) (db : Db) :
    Prop :=
  ∃ row, db.jobs.get? job = some row ∧ isClusterReservation row = true ∧
    RunningHere (some cfg.host) cfg.project row ∧ row.gpuSlots = slots

def Keeps (fact : GpuBox → Prop) (before after : GpuBox) : Prop := fact before → fact after

/-- The row satisfies every term of the inline claim, and none of them raises. -/
def InlineTakes (cfg : GpuWorkerConfig) (probe : ClaimProbe) (db : Db) (row : NodeJob) : Prop :=
  (((probe.inlineArgs cfg none).sql cfg.dialect).eligible cfg.dialect db row).Holds ∧
    ¬ ((probe.inlineArgs cfg none).sql cfg.dialect).Raises {} db row

def OnlyReservation (result : Option (JobId × NodeJob)) : Prop :=
  ∀ id row, result = some (id, row) → isClusterReservation row = true

/-- Under the hold, and with the queue in the given states, the inline lane returns nothing but
reservations. -/
def InlineReserves (cfg : GpuWorkerConfig) (probe : ClaimProbe) (job : JobId) (queue : Db → Prop) :
    Prop :=
  ∀ (env : ClaimEnv) (box after : GpuBox) (result : Option (JobId × NodeJob)),
    HeldIn cfg job queue box →
    Ends (Keeps (HeldIn cfg job queue)) (claim cfg { probe with env := env }) box (.ok result)
      after →
    OnlyReservation result

def PoolReserves (cfg : GpuWorkerConfig) (probe : ClaimProbe) (job : JobId) : Prop :=
  ∀ (env : ClaimEnv) (box after : GpuBox) (result : Option (JobId × NodeJob)),
    Held cfg job box →
    Ends (Keeps (Held cfg job)) (claimPool cfg { probe with env := env }) box (.ok result) after →
    OnlyReservation result

variable {cfg : GpuWorkerConfig} {job : JobId} {slots : Option GpuSlots} {box : GpuBox}
  {probe : ClaimProbe} {queue : Db → Prop}

theorem fact_of_keeps {after : GpuBox} (hsteps : Relation.ReflTransGen (Keeps fact) box after)
    (hfact : fact box) : fact after :=
  have hstable : Stable (Keeps fact) fact := fun _ _ hkeeps => hkeeps
  hstable.steps hsteps hfact

theorem Held.setSwitch (hheld : Held cfg job box) (switch : SwitchHost) :
    Held cfg job (box.setWorker cfg { box.worker cfg with switch := switch }) := by
  unfold Held
  rwa [GpuBox.worker_setWorker]

theorem HeldIn.setSwitch (hheld : HeldIn cfg job queue box) (switch : SwitchHost) :
    HeldIn cfg job queue (box.setWorker cfg { box.worker cfg with switch := switch }) :=
  ⟨hheld.held.setSwitch switch, hheld.queued⟩

section

variable {α β : Type} {post : Except Empty β → GpuBox → Prop} {next : α → BoxProg β}

theorem safe_read_of_keeps {view : GpuBox → α} (hfact : fact box)
    (hnext : ∀ now, fact now → Safe (Keeps fact) (fun _ _ => True) post (next (view now)) now) :
    Safe (Keeps fact) (fun _ _ => True) post (Prog.read view >>= next) box :=
  Safe.read_bind fun now hsteps => ⟨trivial, hnext now (fact_of_keeps hsteps hfact)⟩

theorem safe_onSwitch_of_keeps {run : SwitchHost → SwitchHost × α}
    (hswitch : ∀ now switch, fact now →
      fact (now.setWorker cfg { now.worker cfg with switch := switch })) (hfact : fact box)
    (hnext : ∀ value now, fact now → Safe (Keeps fact) (fun _ _ => True) post (next value) now) :
    Safe (Keeps fact) (fun _ _ => True) post (onSwitch cfg run >>= next) box :=
  Safe.exec_bind fun now hsteps =>
    ⟨trivial, hnext _ _ (hswitch now _ (fact_of_keeps hsteps hfact))⟩

end

/-! ### The pool lane -/

theorem normalKind_clusterServerKind : normalKind clusterServerKind = clusterServerKind := by
  decide +kernel

variable {db : Db} {row : NodeJob} {args : GpuClaim} {env : ClaimEnv}

theorem GpuClaim.capability_of_eligible (hholds : ((args.sql d).eligible d db row).Holds) :
    (args.capability d db row).Holds :=
  (ClaimSql.eligible_holds.mp hholds).2.2.2.2.2

theorem onlyReservation_of_reservationsOnly (honly : args.reservationsOnly = true) :
    OnlyReservation (claimNextGpuJob d args env db).2 := by
  rintro id taken hresult
  rcases (args.sql d).execute_cases d env db with hnone | ⟨key, row, -, hholds, htaken⟩
  · rw [claimNextGpuJob, hnone] at hresult
    cases hresult
  rw [claimNextGpuJob, htaken] at hresult
  cases hresult
  obtain ⟨-, hgate, -⟩ :=
    capability_holds.mp (capability_of_eligible hholds)
  rw [GpuClaim.reservationsGate, if_pos honly, holds_and] at hgate
  change isClusterReservation row = true
  cases htypes : row.serverTypes with
  | none => simp [htypes, Tri.isNotNull, Holds] at hgate
  | some kinds =>
    have hmem : clusterServerKind ∈ kinds := by
      cases d <;> simpa [htypes, Dialect.arraysOverlap, Holds] using hgate.2
    unfold isClusterReservation
    rw [htypes, any_eq_true]
    exact ⟨clusterServerKind, hmem, decide_eq_true normalKind_clusterServerKind⟩

theorem Held.isEmpty_eq (hheld : Held cfg job box) :
    (box.worker cfg).clusterHolds.isEmpty = false := by
  by_contra hempty
  rw [Bool.not_eq_false] at hempty
  unfold Held at hheld
  rw [OrdDict.get?_of_isEmpty hempty] at hheld
  cases hheld

theorem safe_claimPool (hheld : Held cfg job box) :
    Safe (Keeps (Held cfg job)) (fun _ _ => True) (onReturn fun result _ => OnlyReservation result)
      (claimPool cfg probe) box := by
  have hnone : OnlyReservation none := fun _ _ hnone => absurd hnone (by simp)
  apply safe_onSwitch_of_keeps (fun _ switch hheld => hheld.setSwitch switch) hheld
  intro blocked atSwitch hheld
  apply safe_read_of_keeps hheld
  intro atPause hheld
  split
  · exact fun _ _ => hnone
  apply safe_read_of_keeps hheld
  intro atHold hheld
  -- The hold is seen here, so the claim below is narrowed whatever the other gates say.
  simp only [hheld.isEmpty_eq, Bool.not_false, Bool.or_true, if_true]
  apply safe_read_of_keeps hheld
  intro atQueue _
  split
  · exact fun _ _ => hnone
  · intro atClaim _
    exact ⟨trivial, fun _ _ => onlyReservation_of_reservationsOnly rfl⟩

/-! ### The inline lane -/

theorem claim_none_of_not_takes {currentModel : Option String}
    (hnone : ∀ id row, db.jobs.get? id = some row → ¬ InlineTakes cfg probe db row) :
    (claimNextGpuJob cfg.dialect (probe.inlineArgs cfg currentModel) env db).2 = none := by
  set sql := (probe.inlineArgs cfg currentModel).sql cfg.dialect with hsql
  cases hpick : sql.pick cfg.dialect env db with
  | none => rw [claimNextGpuJob, ← hsql, ClaimSql.execute, hpick]
  | some entry =>
    obtain ⟨hget, heligible⟩ := ClaimSql.mem_of_pick hpick
    have hraises : sql.Raises env db entry.2 := by
      -- What the plan does not look at cannot make it raise.
      have hleast := not_not.mp fun hquiet => hnone entry.1 entry.2 hget ⟨heligible, hquiet⟩
      exact hleast.imp_right (Or.imp_right (by simp))
    rw [claimNextGpuJob, ← hsql, ClaimSql.execute_of_pick hpick, if_pos hraises]

theorem safe_claim
    (hshut : probe.tooSmall = true ∨
      ∀ db, queue db → ∀ id row, db.jobs.get? id = some row → ¬ InlineTakes cfg probe db row)
    (hheld : HeldIn cfg job queue box) :
    Safe (Keeps (HeldIn cfg job queue)) (fun _ _ => True) (onReturn fun result _ => result = none)
      (claim cfg probe) box := by
  apply safe_onSwitch_of_keeps (fun _ switch hheld => hheld.setSwitch switch) hheld
  intro blocked atSwitch hheld
  split
  · exact fun _ _ => rfl
  apply safe_read_of_keeps hheld
  intro atPause hheld
  split
  · exact fun _ _ => rfl
  apply safe_read_of_keeps hheld
  intro atModel hheld
  split
  · exact fun _ _ => rfl
  next hlarge =>
    intro atClaim hsteps
    have hqueued := (fact_of_keeps hsteps hheld).queued
    have hnone := hshut.resolve_left hlarge atClaim.db hqueued
    exact ⟨trivial, fun _ _ => claim_none_of_not_takes hnone⟩

theorem serverTypes_of_inlineTakes (htakes : InlineTakes cfg probe db row) :
    row.serverTypes = none := by
  obtain ⟨heligibility, -⟩ :=
    capability_holds.mp (capability_of_eligible htakes.1)
  rw [GpuClaim.eligibility, holds_all] at heligibility
  have hlane : ((probe.inlineArgs cfg none).laneGate row).Holds := heligibility _ (by simp)
  have hremote : (Tri.isNotNull row.serverTypes).not.Holds := by
    have hrequire : (probe.inlineArgs cfg none).requireModel = some true := rfl
    unfold GpuClaim.laneGate at hlane
    rw [hrequire] at hlane
    dsimp only at hlane
    split at hlane <;> exact (holds_and.mp hlane).1
  cases htypes : row.serverTypes with
  | none => rfl
  | some => simp [htypes, Tri.isNotNull, Tri.not, Holds] at hremote

theorem not_raises_sqlite : ¬ (args.sql .sqlite).Raises env db row := by
  have hnever (other : NodeJob) : (args.sql .sqlite).raisesOn other = false := by
    change (args.budget.isSome && oversized .sqlite other.gpuSlots) = false
    rw [Bool.and_eq_false_iff]
    right
    rcases other.gpuSlots with _ | _ | _ | n <;> rfl
  simp [ClaimSql.Raises, hnever]

/-- With the other rows locked PostgreSQL has only this one to take, and SQLite never raises. -/
theorem exists_claim_of_inlineTakes {id : JobId} (hget : db.jobs.get? id = some row)
    (htakes : InlineTakes cfg probe db row) (currentModel : Option String) :
    let args := probe.inlineArgs cfg currentModel
    let env : ClaimEnv := { locked := fun other => decide (other ≠ id) }
    ∃ taken first, InlineTakes cfg probe db first ∧ (claimNextGpuJob cfg.dialect args env db).2 =
      some (taken, (args.sql cfg.dialect).take db.now first) := by
  intro args env
  obtain ⟨⟨taken, first⟩, hpick⟩ : ∃ entry, (args.sql cfg.dialect).pick cfg.dialect env db =
      some entry := ClaimSql.exists_pick hget htakes.1 (by simp [env])
  obtain ⟨hfirst, heligible⟩ := ClaimSql.mem_of_pick hpick
  have hquiet : ¬ (args.sql cfg.dialect).Raises env db first := by
    cases hdialect : cfg.dialect with
    | sqlite => exact not_raises_sqlite
    | pg =>
      have hcandidate := (mem_filter.mp (mem_filter.mp (mem_of_getElem? hpick)).1).2
      have hfree := (of_decide_eq_true hcandidate).2
      rw [hdialect] at hfree
      obtain rfl : taken = id := by simpa [Dialect.skipLocked, env] using hfree
      rw [Option.some.inj (hfirst.symm.trans hget), ← hdialect]
      exact htakes.2
  refine ⟨taken, first, ⟨heligible, hquiet⟩, ?_⟩
  rw [claimNextGpuJob, ClaimSql.execute_of_pick hpick, if_neg hquiet]

def idleBox (db : Db) (job : JobId) (clock : ℚ) : GpuBox where
  db := db
  workers := fun _ => { clusterHolds := OrdDict.empty.insert job "", spillPauseUntil := clock }

theorem held_idleBox {clock : ℚ} : Held cfg job (idleBox db job clock) := by
  change ((OrdDict.empty.insert job "" : OrdDict JobId String).get? job).isSome = true
  rw [OrdDict.get?_insert_self]
  rfl

theorem claim_takes {id : JobId} (hlarge : ¬ probe.tooSmall = true)
    (hget : db.jobs.get? id = some row) (htakes : InlineTakes cfg probe db row)
    {R : GpuBox → GpuBox → Prop} :
    ∃ env taken other after, isClusterReservation other = false ∧
      Ends R (claim cfg { probe with env := env }) (idleBox db job probe.clock)
        (.ok (some (taken, other))) after := by
  let box := idleBox db job probe.clock
  let unblocked := box.setWorker cfg (box.worker cfg)
  have hworker : unblocked.worker cfg = box.worker cfg := GpuBox.worker_setWorker cfg _ box
  have hpause : ¬ decide (probe.clock < (unblocked.worker cfg).spillPauseUntil) = true := by
    rw [hworker]
    simp [box, idleBox, GpuBox.worker]
  let args := probe.inlineArgs cfg (unblocked.worker cfg).cache.currentModel
  let env : ClaimEnv := { locked := fun other => decide (other ≠ id) }
  let claimed : GpuBox := { unblocked with db := (claimNextGpuJob cfg.dialect args env db).1 }
  obtain ⟨taken, first, hfirst, hclaimed⟩ := exists_claim_of_inlineTakes hget htakes
    (unblocked.worker cfg).cache.currentModel
  have hother : isClusterReservation ((args.sql cfg.dialect).take db.now first) = false := by
    change ((first.serverTypes.getD []).any _) = false
    rw [serverTypes_of_inlineTakes hfirst]
    rfl
  refine ⟨env, taken, _, claimed, hother, ?_⟩
  -- The four statements of the claim, one after the other.
  have hlast : Ends R (claimGpu cfg args env) unblocked
      (.ok (some (taken, (args.sql cfg.dialect).take db.now first))) claimed := by
    rw [← hclaimed]
    exact .stmt .refl (.ret .refl)
  apply Ends.stmt .refl
  apply Ends.stmt .refl
  change Ends R (if decide (probe.clock < (unblocked.worker cfg).spillPauseUntil) = true then _
    else _) unblocked _ claimed
  rw [if_neg hpause]
  apply Ends.stmt .refl
  change Ends R (if probe.tooSmall = true then _ else claimGpu cfg args env) unblocked _ claimed
  rwa [if_neg hlarge]

theorem inlineReserves_iff :
    InlineReserves cfg probe job queue ↔
      probe.tooSmall = true ∨
        ∀ db, queue db → ∀ id row, db.jobs.get? id = some row → ¬ InlineTakes cfg probe db row := by
  constructor
  · intro hreserves
    by_contra hopen
    push Not at hopen
    obtain ⟨hlarge, db, hqueue, id, row, hget, htakes⟩ := hopen
    obtain ⟨env, taken, other, after, hother, hends⟩ := claim_takes hlarge hget htakes
    have hrow := hreserves env _ after _ ⟨held_idleBox, hqueue⟩ hends taken other rfl
    rw [hother] at hrow
    cases hrow
  · intro hshut env box after result hheld hends
    have hshut : ({ probe with env := env } : ClaimProbe).tooSmall = true ∨ ∀ db, queue db →
        ∀ id row, db.jobs.get? id = some row → ¬ InlineTakes cfg { probe with env := env } db row :=
      hshut
    have hsafe := safe_claim hshut hheld
    have hnone : result = none := hsafe.of_ends hends
    rintro id row rfl
    cases hnone

/-! ### A full budget -/

def ClaimProbe.budget (probe : ClaimProbe) : ℤ := gpuSlotBudget probe.parallelism probe.servedTypes

theorem ClaimProbe.one_le_budget (probe : ClaimProbe) : 1 ≤ probe.budget := by
  unfold budget gpuSlotBudget
  dsimp only
  split <;> exact le_max_left _ _

/-- The reservation weighs the whole budget, or is so wide that its weight cannot be worked out. -/
def FillsBudget (cfg : GpuWorkerConfig) (probe : ClaimProbe) (slots : Option GpuSlots) : Prop :=
  cfg.host ≠ "" ∧
    (probe.budget ≤ gpuWeight probe.budget slots ∨ oversized cfg.dialect slots = true)

theorem gpuWeight_le_runningWeight {host project : String} {budget : ℤ} (hbudget : 1 ≤ budget)
    (hget : db.jobs.get? job = some row) (hhere : RunningHere (some host) project row) :
    gpuWeight budget row.gpuSlots ≤ runningWeight db (some host) project budget := by
  rw [runningWeight_eq]
  apply single_le_sum
  · intro weight hmem
    have hone := one_le_of_mem_occupants hbudget hmem
    omega
  · refine Table.mem_collect.mpr ⟨job, ?_⟩
    rw [Table.seen, hget]
    exact occupant_eq_some.mpr ⟨hhere, rfl⟩

theorem not_inlineTakes_of_fillsBudget {other : NodeJob} (hfills : FillsBudget cfg probe slots)
    (hruns : ReservationRuns cfg job slots db) : ¬ InlineTakes cfg probe db other := by
  rintro ⟨heligible, hquiet⟩
  obtain ⟨row, hget, -, hhere, rfl⟩ := hruns
  have hcapability := capability_of_eligible heligible
  have hmax : (probe.inlineArgs cfg none).maxRunning = some probe.budget := rfl
  rcases hfills.2 with hfull | hwide
  · have hfits := fits_of_capability hfills.1 rfl rfl hmax hcapability
    have hrunning := gpuWeight_le_runningWeight probe.one_le_budget hget hhere
    have hother := one_le_gpuWeight probe.one_le_budget other.gpuSlots
    change runningWeight db (some cfg.host) cfg.project _ + _ ≤ _ at hfits
    omega
  · -- The sum over what runs here raises.
    have hbudget : (probe.inlineArgs cfg none).budget = some probe.budget :=
      budget_eq hfills.1 rfl hmax
    refine hquiet (Or.inr (Or.inl ⟨row, ?_, ?_⟩))
    · change row ∈ runningHere db (some cfg.host) cfg.project
      refine Table.mem_collect.mpr ⟨job, ?_⟩
      rw [Table.seen, hget]
      exact if_pos hhere
    · change ((probe.inlineArgs cfg none).budget.isSome &&
        oversized cfg.dialect row.gpuSlots) = true
      rw [hbudget, hwide]
      rfl

/-! ### A slot left beside the reservation -/

section

variable (cfg job slots probe)

def heldRow : NodeJob :=
  { runId := "r", nodeId := "hold", nodeModule := "hold", queue := .gpu, project := cfg.project,
    status := .running, serverTypes := some [clusterServerKind], gpuSlots := slots,
    claimedBy := some cfg.host, resolvedServer := some clusterServerKind, createdAt := 0 }

def besideRow : NodeJob :=
  { runId := "r", nodeId := "render", nodeModule := "render", queue := .gpu,
    requiredModel := some ((nonBlank probe.knownModels).headD "image"), project := cfg.project,
    status := .queued, createdAt := 0 }

def besideDb : Db :=
  { jobs := ((⟨OrdDict.empty, job, fun _ _ => rfl⟩ : Table NodeJob).append
      (heldRow cfg slots)).append (besideRow cfg probe),
    runs := OrdDict.empty.insert "r" { workflowName := "w", status := .running } }

end

theorem entries_besideDb :
    (besideDb cfg job slots probe).jobs.entries =
      [(job, heldRow cfg slots), (job + 1, besideRow cfg probe)] := by
  simp [besideDb, Table.append, Table.entries, OrdDict.insert, OrdDict.insertIn, OrdDict.empty]

theorem runningHere_heldRow : RunningHere (some cfg.host) cfg.project (heldRow cfg slots) :=
  runningHere_iff.mpr ⟨rfl, rfl, rfl, rfl⟩

theorem reservationRuns_besideDb :
    ReservationRuns cfg job slots (besideDb cfg job slots probe) := by
  have hget : (besideDb cfg job slots probe).jobs.get? job = some (heldRow cfg slots) := by
    apply Table.mem_entries.mp
    rw [entries_besideDb]
    exact mem_cons_self
  refine ⟨heldRow cfg slots, hget, ?_, runningHere_heldRow, rfl⟩
  simp [isClusterReservation, heldRow, normalKind_clusterServerKind]

theorem runningHere_besideDb :
    runningHere (besideDb cfg job slots probe) (some cfg.host) cfg.project =
      [heldRow cfg slots] := by
  have hbeside : ¬ RunningHere (some cfg.host) cfg.project (besideRow cfg probe) := by
    intro hhere
    exact absurd hhere.1 (by simp [besideRow])
  change (besideDb cfg job slots probe).jobs.entries.filterMap _ = _
  rw [entries_besideDb]
  simp [runningHere_heldRow, hbeside]

/-! The gates of the claim, at the job beside the hold. -/

theorem eligibility_besideRow :
    ((probe.inlineArgs cfg none).eligibility cfg.dialect (besideRow cfg probe)).Holds := by
  rw [GpuClaim.eligibility, holds_all]
  simp only [forall_mem_cons, not_mem_nil, false_imp_iff, implies_true, and_true]
  refine ⟨?_, ?_, ?_, ?_⟩
  · unfold GpuClaim.servedGate
    split
    · rfl
    · simp [besideRow]
  · unfold GpuClaim.knownGate
    split
    · rfl
    · next hknown =>
      have hknown : nonBlank probe.knownModels ≠ [] := hknown
      obtain ⟨model, rest, hmodels⟩ := exists_cons_of_ne_nil hknown
      have hargs : (probe.inlineArgs cfg none).known = model :: rest := hmodels
      have hmem : (Dialect.valueInParamArray (some model) (model :: rest)).Holds := by
        simp [Dialect.valueInParamArray, Holds]
      rw [hargs]
      simp only [besideRow, hmodels, headD_cons, holds_or]
      exact Or.inl (Or.inr hmem)
  · unfold GpuClaim.contextGate
    split <;> simp [besideRow]
  · have hrequire : (probe.inlineArgs cfg none).requireModel = some true := rfl
    unfold GpuClaim.laneGate
    rw [hrequire]
    dsimp only
    split <;> simp [besideRow, Tri.isNotNull, Tri.not, Holds, Tri.and, Tri.or]

theorem boxSlotGate_besideRow (hroom : ¬ FillsBudget cfg probe slots) :
    ((probe.inlineArgs cfg none).boxSlotGate (besideDb cfg job slots probe)
      (besideRow cfg probe)).Holds := by
  by_cases hhost : cfg.host = ""
  · simp [GpuClaim.boxSlotGate, GpuClaim.budget, GpuClaim.hosted, orNull, ClaimProbe.inlineArgs,
      ClaimProbe.args, hhost, Holds]
  · have hbudget : (probe.inlineArgs cfg none).budget = some probe.budget :=
      budget_eq hhost rfl rfl
    have hlight : gpuWeight probe.budget slots < probe.budget := by
      by_contra hheavy
      exact hroom ⟨hhost, Or.inl (not_lt.mp hheavy)⟩
    have hweight : runningWeight (besideDb cfg job slots probe) (some cfg.host) cfg.project
        probe.budget = gpuWeight probe.budget slots := by
      unfold runningWeight
      rw [runningHere_besideDb]
      simp [heldRow]
    unfold GpuClaim.boxSlotGate
    rw [hbudget, holds_ofProp]
    change runningWeight _ (some cfg.host) cfg.project probe.budget + 1 ≤ probe.budget
    omega

theorem reservationGate_besideRow :
    ((probe.inlineArgs cfg none).reservationGate cfg.dialect (besideDb cfg job slots probe)
      (besideRow cfg probe)).Holds := by
  unfold GpuClaim.reservationGate
  split
  · next budget hbudget =>
    rw [holds_ofProp]
    right
    rintro ⟨entry, hmem, -, hstatus, -, -, -, -, hpriority, -⟩
    rw [entries_besideDb] at hmem
    rcases mem_pair.mp hmem with rfl | rfl
    · cases hstatus
    · cases hpriority
  · rfl

theorem kindGate_besideRow :
    ((probe.inlineArgs cfg none).kindGate (besideDb cfg job slots probe)
      (besideRow cfg probe)).Holds := by
  have hstamp : (probe.inlineArgs cfg none).kindStamp (besideRow cfg probe) =
      some inprocessServerKind := by
    simp [GpuClaim.kindStamp, Dialect.firstOverlap, Dialect.arrayFirst, besideRow]
  have hcount : kindCount (besideDb cfg job slots probe) (some cfg.host) cfg.project
      (some inprocessServerKind) = 0 := by
    have hother : ¬ CountsAgainst (some inprocessServerKind) (heldRow cfg slots) := by
      simp [CountsAgainst, heldRow, clusterServerKind, inprocessServerKind]
    unfold kindCount
    rw [runningHere_besideDb]
    simp [hother]
  have hcap : (probe.inlineArgs cfg none).capOf (some inprocessServerKind) = 1 := by
    have hcaps : (kindCapsFor probe.parallelism).get? inprocessServerKind = none := rfl
    change (((kindCapsFor probe.parallelism).filter _).get? inprocessServerKind).getD 1 = 1
    rw [OrdDict.get?_filter, hcaps]
    rfl
  unfold GpuClaim.kindGate
  split
  · rw [hstamp, hcap, holds_ofProp]
    change kindCount _ (some cfg.host) cfg.project _ < 1
    omega
  · rfl

theorem not_raises_besideRow (hroom : ¬ FillsBudget cfg probe slots) :
    ¬ ((probe.inlineArgs cfg none).sql cfg.dialect).Raises {} (besideDb cfg job slots probe)
      (besideRow cfg probe) := by
  rintro (hraises | ⟨other, hmem, hraises⟩ | ⟨_, -, hvisits, -⟩)
  · exact absurd hraises (by simp [GpuClaim.sql, oversized, besideRow])
  · change other ∈ runningHere _ (some cfg.host) cfg.project at hmem
    rw [runningHere_besideDb, mem_singleton] at hmem
    subst hmem
    obtain ⟨hsome, hwide⟩ := Bool.and_eq_true_iff.mp hraises
    refine hroom ⟨fun hhost => ?_, Or.inr hwide⟩
    simp [GpuClaim.budget, GpuClaim.hosted, orNull, ClaimProbe.inlineArgs, ClaimProbe.args,
      hhost] at hsome
  · cases hvisits

theorem inlineTakes_besideRow (hroom : ¬ FillsBudget cfg probe slots) :
    InlineTakes cfg probe (besideDb cfg job slots probe) (besideRow cfg probe) := by
  have hrun : runClaimable (besideDb cfg job slots probe) "r" = true := rfl
  have hplaced : (placementTerms cfg.dialect (orNull cfg.box) (besideRow cfg probe)).Holds := by
    simp [placementTerms, besideRow]
  refine ⟨ClaimSql.eligible_holds.mpr ⟨rfl, rfl, rfl, hrun, hplaced, ?_⟩,
    not_raises_besideRow hroom⟩
  exact capability_holds.mpr ⟨eligibility_besideRow, rfl, boxSlotGate_besideRow hroom,
    reservationGate_besideRow, kindGate_besideRow⟩

theorem inlineReserves_running_iff :
    InlineReserves cfg probe job (ReservationRuns cfg job slots) ↔
      probe.tooSmall = true ∨ FillsBudget cfg probe slots := by
  rw [inlineReserves_iff]
  refine or_congr_right ?_
  constructor
  · intro hnone
    by_contra hroom
    have hget : (besideDb cfg job slots probe).jobs.get? (job + 1) =
        some (besideRow cfg probe) := by
      apply Table.mem_entries.mp
      rw [entries_besideDb]
      simp
    exact hnone _ reservationRuns_besideDb _ _ hget (inlineTakes_besideRow hroom)
  · intro hfills db hruns _ row _
    exact not_inlineTakes_of_fillsBudget hfills hruns

/-- While a box is held the pool lane returns only reservations. The inline lane does so exactly
when the machine is too small for every model, or the queue holds no row that it can take. -/
theorem held_lanes_claim_iff (cfg : GpuWorkerConfig) (probe : ClaimProbe) (job : JobId) :
    PoolReserves cfg probe job ∧
      (∀ queue : Db → Prop, InlineReserves cfg probe job queue ↔
        probe.tooSmall = true ∨
          ∀ db, queue db → ∀ id row, db.jobs.get? id = some row →
            ¬ InlineTakes cfg probe db row) ∧
      ∀ slots, InlineReserves cfg probe job (ReservationRuns cfg job slots) ↔
        probe.tooSmall = true ∨ FillsBudget cfg probe slots := by
  refine ⟨?_, fun queue => inlineReserves_iff, fun slots => inlineReserves_running_iff⟩
  intro env box after result hheld hends
  exact (safe_claimPool hheld).of_ends hends

/-- A reservation that takes one of two slots: the pool lane claims it and begins the hold, and the
inline lane of the same worker then takes a job for a model. -/
theorem held_box_takes_render :
    let r : Readings := ⟨0, fun _ => 0, true⟩
    let hold : NodeJob :=
      { runId := "r", nodeId := "hold", nodeModule := "hold", queue := .gpu, project := "",
        status := .queued, serverTypes := some ["cluster"], createdAt := 0 }
    let render : NodeJob :=
      { runId := "r", nodeId := "render", nodeModule := "render", queue := .gpu,
        requiredModel := some "image", project := "", status := .queued, createdAt := 0 }
    let box : GpuBox :=
      { db :=
          { jobs := (Table.empty.append hold).append render,
            runs := OrdDict.empty.insert "r" { workflowName := "w", status := .running } } }
    let cfg : GpuWorkerConfig := { holder := "a", host := "a" }
    let probe : ClaimProbe := { readings := r, clock := 0, parallelism := 2 }
    let history : BoxProg (Option JobId × Option (JobId × NodeJob)) := do
      let reserved ← claimPool cfg probe
      beginClusterHold cfg 0 "" ⟨r, false⟩
      let taken ← claim cfg probe
      return (reserved.map Prod.fst, taken)
    (history.alone box).any (fun outcome =>
      decide (Held cfg 0 outcome.2) && match outcome.1 with
        | .ok (some 0, some (1, row)) => !isClusterReservation row
        | _ => false) = true := by
  intro r hold render box cfg probe history
  decide +kernel

end BrokerParrot
