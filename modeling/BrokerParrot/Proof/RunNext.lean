import BrokerParrot.Proof.BoxSlots

/-!
# Run-next rows that need more than one slot

A queued run-next row that weighs more than one slot reserves the box: until it is taken, nothing
narrower is. On PostgreSQL a width beyond four bytes stops the claim, whichever row declares it.

The terms it is judged by leave two out. A claim that is narrowed to cluster reservations is refused
for the sake of a row that is none, and one whose kind has no slot here is waited for as well.
-/

namespace BrokerParrot

open ClaimSql GpuClaim

variable {budget : ℤ} {row : NodeJob} {d : Dialect} {args : GpuClaim} {db : Db}
  {host : Option String} {id : JobId}

theorem gpuWeight_le_of_wide {slots : Option GpuSlots} (hwide : 1 < gpuWeight budget slots) :
    gpuWeight budget slots ≤ budget := by
  rcases slots with _ | _ | _ | n
  · exact absurd hwide (lt_irrefl _)
  · exact le_rfl
  · change 1 < (budget + 1).tdiv 2 at hwide
    change (budget + 1).tdiv 2 ≤ budget
    have hsign : (2 : ℤ).sign = 1 := rfl
    rw [Int.tdiv_eq_ediv, hsign] at hwide ⊢
    split_ifs at hwide ⊢ <;> omega
  · exact min_le_right _ _

theorem runNextWide_iff :
    RunNextWide budget row ↔
      row.isPriority = true ∧ 1 < gpuWeight budget row.gpuSlots := by
  constructor
  · rintro ⟨hnext, -, hwide⟩
    exact ⟨hnext, hwide⟩
  · rintro ⟨hnext, hwide⟩
    refine ⟨hnext, ?_, hwide⟩
    cases hslots : row.gpuSlots with
    | none => simp [hslots, gpuWeight] at hwide
    | some => rfl

/-! ### A box with nothing running -/

def IdleHost (host : Option String) (db : Db) : Prop :=
  ∀ id row, db.jobs.get? id = some row → row.status = .running → row.claimedBy ≠ host

theorem IdleHost.runningHere_eq_nil {project : String} (hidle : IdleHost host db) :
    runningHere db host project = [] := by
  rw [List.eq_nil_iff_forall_not_mem]
  intro row hmem
  obtain ⟨id, hseen⟩ := Table.mem_collect.mp hmem
  obtain ⟨found, hget, hview⟩ := Option.bind_eq_some_iff.mp hseen
  dsimp only at hview
  split_ifs at hview with hhere
  exact hidle id found hget hhere.1 (Tri.holds_eq.mp hhere.2.2.1).1

theorem boxSlotGate_iff_of_idle (hidle : IdleHost args.host db) :
    (args.boxSlotGate db row).Holds ↔
      ∀ budget, args.budget = some budget → gpuWeight budget row.gpuSlots ≤ budget := by
  unfold GpuClaim.boxSlotGate
  cases args.budget with
  | none => exact iff_of_true rfl nofun
  | some budget =>
    unfold runningWeight
    rw [Tri.holds_ofProp, hidle.runningHere_eq_nil, List.map_nil, List.sum_nil, zero_add]
    simp

def GpuClaim.KindServed (args : GpuClaim) (row : NodeJob) : Prop :=
  args.lawOn = true → 1 ≤ args.capOf (args.kindStamp row)

theorem kindGate_iff_of_idle (hidle : IdleHost args.host db) :
    (args.kindGate db row).Holds ↔ args.KindServed row := by
  unfold GpuClaim.kindGate KindServed
  split_ifs with hlaw
  · rw [Tri.holds_ofProp]
    unfold kindCount
    rw [hidle.runningHere_eq_nil]
    exact ⟨fun hroom _ => hroom, fun hserved => hserved hlaw⟩
  · exact ⟨fun _ hlawOn => absurd hlawOn hlaw, fun _ => rfl⟩

/-! ### Widths that the claim can work out -/

/-- No row that waits in the lane declares a width that the claim of a budgeted box raises on. -/
def WidthsFit (d : Dialect) (args : GpuClaim) (db : Db) : Prop :=
  ∀ id row, db.jobs.get? id = some row → (args.sql d).Waiting row →
    (args.sql d).raisesOn row = false

theorem not_raises_of_fit {env : ClaimEnv} (hfit : WidthsFit d args db)
    (hidle : IdleHost args.host db) (hget : db.jobs.get? id = some row)
    (hwaiting : (args.sql d).Waiting row) : ¬ (args.sql d).Raises env db row := by
  rintro (hraises | ⟨other, hmem, -⟩ | ⟨entry, hmem, -, hother, hraises⟩)
  · exact Bool.false_ne_true ((hfit id row hget hwaiting).symm.trans hraises)
  · change other ∈ runningHere db args.host args.project at hmem
    rw [hidle.runningHere_eq_nil] at hmem
    cases hmem
  · have hfits := hfit entry.1 entry.2 (Table.mem_entries.mp hmem) hother
    exact Bool.false_ne_true (hfits.symm.trans hraises)

theorem widthsFit_of_not_raises {env : ClaimEnv} (hvisits : ∀ id, env.visits id = true)
    (hquiet : ¬ (args.sql d).Raises env db row) : WidthsFit d args db := by
  intro id other hget hwaiting
  by_contra hraises
  have hmem := Table.mem_entries.mpr hget
  refine hquiet (Or.inr (Or.inr ⟨(id, other), hmem, hvisits id, hwaiting, ?_⟩))
  simpa using hraises

theorem waiting_of_eligible (heligible : ((args.sql d).eligible d db row).Holds) :
    (args.sql d).Waiting row := by
  obtain ⟨hqueue, hstatus, hproject, -⟩ := eligible_holds.mp heligible
  exact ⟨hqueue, hstatus, hproject⟩

/-! ### Rows that reserve the box -/

theorem eligible_of_reserves (hbudget : args.budget = some budget) (hidle : IdleHost args.host db)
    (hreserves : args.Reserves d db budget row) (honly : (args.reservationsGate d row).Holds)
    (hkind : args.KindServed row) : ((args.sql d).eligible d db row).Holds := by
  obtain ⟨hqueue, hstatus, hproject, hrun, hplaced, heligible, hwide⟩ := hreserves
  refine eligible_holds.mpr ⟨hqueue, hstatus, hproject, hrun, hplaced, ?_⟩
  refine capability_holds.mpr ⟨heligible, honly, ?_, ?_, ?_⟩
  · refine (boxSlotGate_iff_of_idle hidle).mpr fun other hother => ?_
    cases hbudget.symm.trans hother
    exact gpuWeight_le_of_wide hwide.2.2
  · unfold GpuClaim.reservationGate
    rw [hbudget]
    exact Tri.holds_ofProp.mpr (Or.inl hwide)
  · exact (kindGate_iff_of_idle hidle).mpr hkind

theorem reserves_of_eligible (hbudget : args.budget = some budget) {waiting : NodeJob}
    (hget : db.jobs.get? id = some waiting) (hwaiting : args.Reserves d db budget waiting)
    (heligible : ((args.sql d).eligible d db row).Holds) : args.Reserves d db budget row := by
  obtain ⟨hqueue, hstatus, hproject, hrun, hplaced, hcapability⟩ :=
    eligible_holds.mp heligible
  obtain ⟨hterms, -, -, hgate, -⟩ := capability_holds.mp hcapability
  unfold GpuClaim.reservationGate at hgate
  rw [hbudget] at hgate
  have hwide := (Tri.holds_ofProp.mp hgate).resolve_right fun hnone =>
    hnone ⟨(id, waiting), Table.mem_entries.mpr hget, hwaiting⟩
  exact ⟨hqueue, hstatus, hproject, hrun, hplaced, hterms, hwide⟩

/-! ### The row that is waited for -/

def GpuClaim.CapsPositive (args : GpuClaim) : Prop :=
  ∀ caps, args.kindCaps = some caps → ∀ kind cap, caps.get? kind = some cap → 1 ≤ cap

theorem GpuClaim.CapsPositive.one_le_capOf (hcaps : args.CapsPositive) (kind : Option String) :
    1 ≤ args.capOf kind := by
  have hdeclared : ∀ name cap, args.caps.get? name = some cap → 1 ≤ cap := by
    intro name cap hget
    unfold GpuClaim.caps at hget
    split at hget
    · by_cases hname : name = "vllm"
      · rw [hname, OrdDict.get?_insert_self] at hget
        cases hget
        exact le_max_left _ _
      · rw [OrdDict.get?_insert_of_ne _ _ hname] at hget
        cases hget
    · rename_i caps hkindCaps
      rw [OrdDict.get?_filter, Option.filter_eq_some_iff] at hget
      exact hcaps caps hkindCaps name cap hget.1
  cases kind with
  | none => exact le_rfl
  | some name =>
    change 1 ≤ (args.caps.get? name).getD 1
    cases hget : args.caps.get? name with
    | none => exact le_refl (1 : ℤ)
    | some cap => exact hdeclared name cap hget

structure WaitsWide (args : GpuClaim) (d : Dialect) (db : Db) (budget : ℤ) (row : NodeJob) :
    Prop where
  queue : row.queue = .gpu
  queued : row.status = .queued
  project : row.project = args.project
  run : runClaimable db row.runId = true
  placed : (placementTerms d (orNull args.box) row).Holds
  eligible : (args.eligibility d row).Holds
  runNext : row.isPriority = true
  wide : 1 < gpuWeight budget row.gpuSlots

theorem WaitsWide.reserves (hwaits : WaitsWide args d db budget row) :
    args.Reserves d db budget row :=
  ⟨hwaits.queue, hwaits.queued, hwaits.project, hwaits.run, hwaits.placed, hwaits.eligible,
    runNextWide_iff.mpr ⟨hwaits.runNext, hwaits.wide⟩⟩

/-- **Run-next is honoured.** While a run-next row of more than one slot waits that the claim could
take, it returns only such rows. With nothing running on the host and no row locked it returns one,
whatever the plan, exactly if the declared widths fit. -/
theorem run_next_honoured_iff (d : Dialect) (db : Db) (args : GpuClaim) (host : String)
    (hhost : host ≠ "") (hargs : args.host = some host) (budget : ℤ)
    (hmax : args.maxRunning = some budget) (honly : args.reservationsOnly = false)
    (hcaps : args.CapsPositive) (id : JobId) (row : NodeJob) (hget : db.jobs.get? id = some row)
    (hwaits : WaitsWide args d db budget row) :
    (∀ env final other taken, claimNextGpuJob d args env db = (final, some (other, taken)) →
        taken.isPriority = true ∧ 1 < gpuWeight budget taken.gpuSlots) ∧
      (IdleHost (some host) db →
        ((∀ env : ClaimEnv, (∀ other, env.locked other = false) →
          ∃ final other taken, claimNextGpuJob d args env db = (final, some (other, taken)) ∧
            taken.isPriority = true ∧ 1 < gpuWeight budget taken.gpuSlots) ↔
        WidthsFit d args db)) := by
  have hbudget := budget_eq hhost hargs hmax
  have hkept {found : NodeJob} (heligible : ((args.sql d).eligible d db found).Holds) :
      ((args.sql d).take db.now found).isPriority = true ∧
        1 < gpuWeight budget ((args.sql d).take db.now found).gpuSlots :=
    runNextWide_iff.mp (reserves_of_eligible hbudget hget hwaits.reserves heligible).2.2.2.2.2.2
  unfold claimNextGpuJob
  constructor
  · intro env final other taken hclaim
    rcases (args.sql d).execute_cases d env db with hnone | ⟨key, found, -, heligible, htaken⟩
    · rw [hnone] at hclaim
      cases congrArg Prod.snd hclaim
    · rw [htaken] at hclaim
      cases hclaim
      exact hkept heligible
  · intro hidle
    constructor
    · intro hreturns
      obtain ⟨_, _, _, hclaim, -⟩ := hreturns { visits := fun _ => true } fun _ => rfl
      obtain ⟨other, hquiet⟩ := not_raises_of_execute (congrArg Prod.snd hclaim)
      exact widthsFit_of_not_raises (fun _ => rfl) hquiet
    · intro hfit env hfree
      have hreservations : (args.reservationsGate d row).Holds := by
        unfold GpuClaim.reservationsGate
        rw [if_neg (by simp [honly])]
        rfl
      have heligible : ((args.sql d).eligible d db row).Holds :=
        eligible_of_reserves hbudget (hargs ▸ hidle) hwaits.reserves hreservations
          fun _ => hcaps.one_le_capOf _
      obtain ⟨⟨key, found⟩, hpick⟩ := exists_pick hget heligible (hfree id)
      obtain ⟨hfound, htakes⟩ := mem_of_pick hpick
      have hquiet : ¬ (args.sql d).Raises env db found :=
        not_raises_of_fit hfit (hargs ▸ hidle) hfound (waiting_of_eligible htakes)
      rw [execute_of_pick hpick, if_neg hquiet]
      exact ⟨_, key, _, rfl, hkept htakes⟩

def poolRow (node kind : String) (slots : Option GpuSlots) (runNext : Bool) : NodeJob :=
  { runId := "run", nodeId := node, nodeModule := "m", queue := .gpu, project := "",
    status := .queued, serverTypes := some [kind], gpuSlots := slots, isPriority := runNext,
    createdAt := 0 }

def poolDb (rows : List NodeJob) : Db :=
  { jobs := Table.ofRows rows,
    runs := OrdDict.empty.insert "run" { workflowName := "w", status := .running } }

theorem idleHost_of_queued {host : Option String}
    (hqueued : ∀ entry ∈ db.jobs.entries, entry.2.status = .queued) : IdleHost host db := by
  intro id row hget hrunning
  have hstatus := hqueued (id, row) (Table.mem_entries.mpr hget)
  cases hrunning.symm.trans hstatus

theorem widthsFit_of_entries
    (hfit : ∀ entry ∈ db.jobs.entries, (args.sql d).raisesOn entry.2 = false) :
    WidthsFit d args db :=
  fun id row hget _ => hfit (id, row) (Table.mem_entries.mpr hget)

/-- A lease of the whole box is queued behind a row with a better priority, and is taken first. -/
theorem run_next_honoured_iff_lease :
    let lease := poolRow "lease" "vllm" (some .all) true
    let better := { poolRow "better" "vllm" none false with priority := 1 }
    let db := poolDb [better, lease]
    let args : GpuClaim :=
      { host := some "box", maxRunning := some 3, servedTypes := ["vllm"],
        requireModel := some false }
    ∃ final other taken, claimNextGpuJob .pg args {} db = (final, some (other, taken)) ∧
      taken.isPriority = true ∧ 1 < gpuWeight 3 taken.gpuSlots := by
  intro lease better db args
  have hwaits : WaitsWide args .pg db 3 lease :=
    ⟨rfl, rfl, rfl, by decide +kernel, by decide +kernel, by decide +kernel, rfl, by decide⟩
  have hcaps : args.CapsPositive := fun caps hsome => absurd hsome (by simp [args])
  have hidle : IdleHost (some "box") db := idleHost_of_queued (by decide +kernel)
  exact ((run_next_honoured_iff .pg db args "box" (by decide) rfl 3 rfl rfl hcaps 1 lease rfl
    hwaits).2 hidle).mpr (widthsFit_of_entries (by decide +kernel)) {} fun _ => rfl

/-- A run-next row asks for three billion slots, which is stored as it is. On PostgreSQL the
claim of the empty box raises, and nothing else is claimed either. -/
theorem oversized_row_stops_claims :
    let wide := poolRow "wide" "vllm" (some (.count 3000000000)) true
    let plain := poolRow "plain" "vllm" none false
    let db := poolDb [wide, plain]
    let args : GpuClaim :=
      { host := some "box", maxRunning := some 3, servedTypes := ["vllm"],
        requireModel := some false }
    normaliseGpuSlots (some (.count 3000000000)) = .ok wide.gpuSlots ∧
      WaitsWide args .pg db 3 wide ∧ IdleHost (some "box") db ∧
      ∀ tie, (claimNextGpuJob .pg args { tie := tie } db).2 = none := by
  intro wide plain db args
  refine ⟨rfl, ⟨rfl, rfl, rfl, by decide +kernel, by decide +kernel, by decide +kernel, rfl,
    by decide⟩, idleHost_of_queued (by decide +kernel), fun tie => ?_⟩
  have hall : ∀ entry ∈ db.jobs.entries, ((args.sql .pg).eligible .pg db entry.2).Holds →
      (args.sql .pg).raisesOn entry.2 = true := by decide +kernel
  unfold claimNextGpuJob
  cases hpick : (args.sql .pg).pick .pg { tie := tie } db with
  | none => rw [ClaimSql.execute, hpick]
  | some entry =>
    obtain ⟨hget, heligible⟩ := mem_of_pick hpick
    have hraises : (args.sql .pg).Raises { tie := tie } db entry.2 :=
      Or.inl (hall entry (Table.mem_entries.mpr hget) heligible)
    rw [execute_of_pick hpick, if_pos hraises]

/-! ### What a box is kept free for -/

def Db.without (db : Db) (host : Option String) : Db :=
  { db with
    jobs := db.jobs.filter fun _ row => !decide (row.status = .running ∧ row.claimedBy = host) }

theorem Db.get?_without :
    (db.without host).jobs.get? id = some row ↔
      db.jobs.get? id = some row ∧ ¬ (row.status = .running ∧ row.claimedBy = host) := by
  unfold Db.without
  rw [Table.get?_filter, Option.filter_eq_some_iff, Bool.not_eq_true', decide_eq_false_iff_not]

theorem Db.idleHost_without (host : Option String) : IdleHost host (db.without host) := by
  intro id row hget hrunning hclaim
  exact (Db.get?_without.mp hget).2 ⟨hrunning, hclaim⟩

theorem Db.get?_without_of_queued (host : Option String) (hget : db.jobs.get? id = some row)
    (hstatus : row.status = .queued) : (db.without host).jobs.get? id = some row :=
  Db.get?_without.mpr ⟨hget, fun hrunning => absurd (hstatus.symm.trans hrunning.1) (by simp)⟩

theorem widthsFit_without_iff :
    WidthsFit d args (db.without args.host) ↔ WidthsFit d args db := by
  refine ⟨fun hfit id row hget hwaiting => ?_, fun hfit id row hget hwaiting => ?_⟩
  · exact hfit id row (Db.get?_without_of_queued args.host hget hwaiting.2.1) hwaiting
  · exact hfit id row (Db.get?_without.mp hget).1 hwaiting

def RefusedByReservation (args : GpuClaim) (d : Dialect) (db : Db) (row : NodeJob) : Prop :=
  row.queue = .gpu ∧ row.status = .queued ∧ row.project = args.project ∧
    runClaimable db row.runId = true ∧ (placementTerms d (orNull args.box) row).Holds ∧
    (args.eligibility d row).Holds ∧ (args.reservationsGate d row).Holds ∧
    (args.boxSlotGate db row).Holds ∧ (args.kindGate db row).Holds ∧
    ¬ (args.reservationGate d db row).Holds

def ReservesHere (args : GpuClaim) (d : Dialect) (db : Db) (row : NodeJob) : Prop :=
  ∃ budget, args.budget = some budget ∧ args.Reserves d db budget row

theorem RefusedByReservation.exists_reserving (hrefused : RefusedByReservation args d db row) :
    ∃ budget id waiting, args.budget = some budget ∧ db.jobs.get? id = some waiting ∧
      args.Reserves d db budget waiting := by
  have hgate := hrefused.2.2.2.2.2.2.2.2.2
  unfold GpuClaim.reservationGate at hgate
  split at hgate
  next budget hbudget =>
    rw [Tri.holds_ofProp, not_or, not_not] at hgate
    obtain ⟨-, ⟨id, waiting⟩, hmem, hreserves⟩ := hgate
    exact ⟨budget, id, waiting, hbudget, Table.mem_entries.mp hmem, hreserves⟩
  next => exact absurd rfl hgate

/-- Whatever the plan, the claim on the empty box with no row locked returns a queued row. -/
def TakesWhenIdle (d : Dialect) (args : GpuClaim) (tie : ℕ) (db : Db) : Prop :=
  ∀ visits, ∃ id row taken, db.jobs.get? id = some row ∧ row.status = .queued ∧
    (claimNextGpuJob d args { tie := tie, visits := visits } (db.without args.host)).2 =
      some (id, taken)

/-- **What a box is kept free for.** The empty box would take a row if and only if one of those that
reserve it passes the two terms the reservation leaves out, and the declared widths fit. -/
theorem reservation_claimable_iff (d : Dialect) (args : GpuClaim) (db : Db) (row : NodeJob)
    (hrefused : RefusedByReservation args d db row) (tie : ℕ) :
    TakesWhenIdle d args tie db ↔
      (∃ other waiting, db.jobs.get? other = some waiting ∧ ReservesHere args d db waiting ∧
        (args.reservationsGate d waiting).Holds ∧ args.KindServed waiting) ∧
      WidthsFit d args db := by
  have hidle : IdleHost args.host (db.without args.host) := Db.idleHost_without _
  constructor
  · intro htakes
    obtain ⟨taken, queued, after, hqueued, hstatus, hclaim⟩ := htakes fun _ => true
    obtain ⟨budget, first, waiting, hbudget, hfirst, hreserves⟩ := hrefused.exists_reserving
    unfold claimNextGpuJob at hclaim
    obtain ⟨_, hquiet⟩ := not_raises_of_execute hclaim
    refine ⟨?_, (widthsFit_without_iff).mp (widthsFit_of_not_raises (fun _ => rfl) hquiet)⟩
    rcases (args.sql d).execute_cases d { tie := tie, visits := fun _ => true }
      (db.without args.host) with hnone | ⟨key, found, hfound, heligible, htaken⟩
    · rw [hnone] at hclaim
      cases hclaim
    · have hkept := Db.get?_without_of_queued args.host hfirst hreserves.2.1
      have hnext := reserves_of_eligible hbudget hkept hreserves heligible
      obtain ⟨-, honly, -, -, hkind⟩ :=
        capability_holds.mp (eligible_holds.mp heligible).2.2.2.2.2
      refine ⟨key, found, (Db.get?_without.mp hfound).1, ⟨budget, hbudget, hnext⟩, honly, ?_⟩
      exact (kindGate_iff_of_idle hidle).mp hkind
  · rintro ⟨⟨other, waiting, hother, ⟨budget, hbudget, hreserves⟩, honly, hkind⟩, hfit⟩ visits
    have hkept := Db.get?_without_of_queued args.host hother hreserves.2.1
    have heligible : ((args.sql d).eligible d (db.without args.host) waiting).Holds :=
      eligible_of_reserves hbudget hidle hreserves honly hkind
    obtain ⟨⟨key, found⟩, hpick⟩ : ∃ entry, (args.sql d).pick d { tie := tie, visits := visits }
        (db.without args.host) = some entry := exists_pick hkept heligible rfl
    obtain ⟨hfound, htakes⟩ := mem_of_pick hpick
    have hquiet : ¬ (args.sql d).Raises { tie := tie, visits := visits } (db.without args.host)
        found :=
      not_raises_of_fit (widthsFit_without_iff.mpr hfit) hidle hfound (waiting_of_eligible htakes)
    refine ⟨key, found, (args.sql d).take db.now found, (Db.get?_without.mp hfound).1, ?_, ?_⟩
    · exact (eligible_holds.mp htakes).2.1
    · rw [claimNextGpuJob, execute_of_pick hpick, if_neg hquiet]
      rfl

/-- A narrow row waits for a flagged one that takes the whole box, and the empty box takes it. -/
theorem reservation_claimable_iff_lease :
    let lease := poolRow "lease" "ollama" (some .all) true
    let narrow := poolRow "narrow" "ollama" none false
    let db := poolDb [lease, narrow]
    let args : GpuClaim :=
      { host := some "box", maxRunning := some 2, servedTypes := ["ollama"],
        requireModel := some false }
    RefusedByReservation args .pg db narrow ∧ TakesWhenIdle .pg args 0 db := by
  intro lease narrow db args
  have hrefused : RefusedByReservation args .pg db narrow := by
    unfold RefusedByReservation
    decide +kernel
  refine ⟨hrefused, (reservation_claimable_iff .pg args db narrow hrefused 0).mpr
    ⟨⟨0, lease, rfl, ⟨2, rfl, by decide +kernel⟩, by decide +kernel, ?_⟩,
      widthsFit_of_entries (by decide +kernel)⟩⟩
  unfold KindServed
  decide +kernel

/-- A box out of service asks for cluster reservations only. One is queued and the box is empty, but
a flagged row of the server that is out keeps it out. -/
theorem reservation_waits_for_other_work :
    let lease := poolRow "lease" "ollama" (some .all) true
    let cluster := poolRow "cluster" "cluster" none false
    let db := poolDb [lease, cluster]
    let args : GpuClaim :=
      { host := some "box", maxRunning := some 2, servedTypes := ["ollama"],
        requireModel := some false, reservationsOnly := true }
    RefusedByReservation args .pg db cluster ∧ ∀ tie, ¬ TakesWhenIdle .pg args tie db := by
  intro lease cluster db args
  refine ⟨by unfold RefusedByReservation; decide +kernel, ?_⟩
  intro tie htakes
  obtain ⟨id, row, taken, -, -, hclaim⟩ := htakes fun _ => false
  have hnone : ((args.sql .pg).candidates .pg { tie := tie } (db.without args.host)).isEmpty := by
    have hlocks : ((args.sql .pg).candidates .pg {} (db.without args.host)).isEmpty = true := by
      decide +kernel
    exact hlocks
  have hpick : (args.sql .pg).pick .pg { tie := tie } (db.without args.host) = none := by
    unfold ClaimSql.pick
    rfl
  unfold claimNextGpuJob ClaimSql.execute at hclaim
  cases hclaim

end BrokerParrot
