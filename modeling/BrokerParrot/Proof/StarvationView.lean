import BrokerParrot.Fleet
import BrokerParrot.Proof.ClaimGates
import BrokerParrot.Proof.ClusterHold
import BrokerParrot.Proof.RunNext

/-!
# The starvation view and the claim

A box that waits for a better placed one stops waiting when a row it could take is starving. The
claim of the pool lane asks for more, so a row can break the deferral of a box that never takes it.
-/

namespace BrokerParrot

open OrdDict GpuClaim

variable {budget : ℤ} {d : Dialect} {args : GpuClaim} {row : NodeJob}

theorem gpuWeight_le (hbudget : 1 ≤ budget) (slots : Option GpuSlots) :
    gpuWeight budget slots ≤ budget := by
  by_cases hwide : 1 < gpuWeight budget slots
  · exact gpuWeight_le_of_wide hwide
  · exact (not_lt.mp hwide).trans hbudget

def GpuWorkerConfig.feeder (cfg : GpuWorkerConfig) (par staleS starveS : ℤ) : PoolFeeder where
  hostLabel := cfg.host
  par := par
  staleS := staleS
  starveS := starveS
  project := cfg.project
  box := cfg.box

/-- On the empty box with no row locked the claim has the row to choose from, and whatever the plan
it does not raise. -/
def CouldTake (d : Dialect) (args : GpuClaim) (db : Db) (id : JobId) (row : NodeJob) : Prop :=
  (id, row) ∈ (args.sql d).candidates d {} (db.without args.host) ∧
    ∀ visits, ¬ (args.sql d).Raises { visits := visits } (db.without args.host) row

section

variable {db : Db} {id : JobId}

theorem couldTake_iff (hget : db.jobs.get? id = some row) (hstatus : row.status = .queued) :
    CouldTake d args db id row ↔
      ((args.sql d).eligible d (db.without args.host) row).Holds ∧ WidthsFit d args db := by
  have hkept := Db.get?_without_of_queued args.host hget hstatus
  have hfree : d.skipLocked (fun _ => false) id = false := by cases d <;> rfl
  unfold CouldTake ClaimSql.candidates
  rw [List.mem_filter, decide_eq_true_iff]
  constructor
  · rintro ⟨⟨-, heligible, -⟩, hquiet⟩
    have hfit := widthsFit_of_not_raises (fun _ => rfl) (hquiet fun _ => true)
    exact ⟨heligible, widthsFit_without_iff.mp hfit⟩
  · rintro ⟨heligible, hfit⟩
    refine ⟨⟨Table.mem_entries.mpr hkept, heligible, hfree⟩, fun visits => ?_⟩
    exact not_raises_of_fit (widthsFit_without_iff.mpr hfit) (Db.idleHost_without _) hkept
      (waiting_of_eligible heligible)

theorem reservationGate_without_iff :
    (args.reservationGate d (db.without args.host) row).Holds ↔
      ∀ budget, args.budget = some budget → RunNextWide budget row ∨
        ∀ other waiting, db.jobs.get? other = some waiting →
          ¬ args.Reserves d db budget waiting := by
  unfold GpuClaim.reservationGate
  cases hbudget : args.budget with
  | none => simp [Tri.Holds]
  | some =>
    rw [Tri.holds_ofProp]
    simp only [Option.some.injEq, forall_eq']
    refine or_congr Iff.rfl ⟨fun hnone other waiting hother hreserves => hnone ?_, ?_⟩
    · have hkept := Db.get?_without_of_queued args.host hother hreserves.2.1
      exact ⟨(other, waiting), Table.mem_entries.mpr hkept, hreserves⟩
    · rintro hnone ⟨⟨other, waiting⟩, hmem, hreserves⟩
      exact hnone other waiting (Db.get?_without.mp (Table.mem_entries.mp hmem)).1 hreserves

end

/-! ### The claim of the pool lane -/

section

variable {cfg : GpuWorkerConfig} {probe : ClaimProbe}

theorem one_le_of_budget_poolArgs (hbudget : (probe.poolArgs cfg false).budget = some budget) :
    1 ≤ budget := by
  unfold GpuClaim.budget at hbudget
  split_ifs at hbudget with hhosted
  obtain rfl : probe.budget = budget := Option.some.inj hbudget
  exact probe.one_le_budget

theorem capsPositive_poolArgs : (probe.poolArgs cfg false).CapsPositive := by
  intro caps hcaps kind cap hget
  obtain rfl : kindCapsFor probe.parallelism = caps := Option.some.inj hcaps
  unfold kindCapsFor at hget
  by_cases hvllm : kind = "vllm"
  · rw [hvllm, get?_insert_self] at hget
    cases hget
    exact le_max_left _ _
  · rw [get?_insert_of_ne _ _ hvllm] at hget
    by_cases hollama : kind = "ollama"
    · rw [hollama, get?_insert_self] at hget
      cases hget
      exact le_rfl
    · rw [get?_insert_of_ne _ _ hollama, get?_empty] at hget
      cases hget

/-- What the pool lane asks of a row and the starvation view does not: the box serves a kind of the
row, knows a model of it and serves its window, the row's module is one of the lane, the box is not
kept free for another row, and no waiting row stops the claim by its width. -/
structure PoolTerms (args : GpuClaim) (d : Dialect) (db : Db) (row : NodeJob) : Prop where
  kind : args.ServesKind row
  model : args.KnowsModel row
  window : args.ServesWindow row
  lane : args.PoolLane row
  unreserved : ReservesHere args d db row ∨
    ∀ other waiting, db.jobs.get? other = some waiting → ¬ ReservesHere args d db waiting
  widths : WidthsFit d args db

theorem reservesHere_iff {db : Db} (hbudget : args.budget = some budget) :
    ReservesHere args d db row ↔ args.Reserves d db budget row := by
  unfold ReservesHere
  simp [hbudget]

end

/-- **The starvation view and the claim.** A row that breaks the deferral of a box is one that the
box's own pool lane could take on the empty box if and only if it passes the claim's other terms. -/
theorem starvation_view_iff (cfg : GpuWorkerConfig) (probe : ClaimProbe) (par staleS starveS : ℤ)
    (db : Db) (id : JobId) (row : NodeJob) (hget : db.jobs.get? id = some row)
    (hstarving : (cfg.feeder par staleS starveS).Starving cfg.dialect db row) :
    CouldTake cfg.dialect (probe.poolArgs cfg false) db id row ↔
      PoolTerms (probe.poolArgs cfg false) cfg.dialect db row := by
  obtain ⟨hqueue, hstatus, -, hproject, hrun, hplaced, -⟩ := hstarving
  set args := probe.poolArgs cfg false with hargs
  have hidle : IdleHost args.host (db.without args.host) := Db.idleHost_without _
  have hlane : (args.laneGate row).Holds ↔ args.PoolLane row := laneGate_pool_holds rfl
  -- On the empty box neither the slots nor the cap of the row's kind stand in the way.
  have hslots : (args.boxSlotGate (db.without args.host) row).Holds :=
    (boxSlotGate_iff_of_idle hidle).mpr fun _ hbudget =>
      gpuWeight_le (one_le_of_budget_poolArgs hbudget) row.gpuSlots
  have hkind : (args.kindGate (db.without args.host) row).Holds :=
    (kindGate_iff_of_idle hidle).mpr fun _ => capsPositive_poolArgs.one_le_capOf _
  rw [couldTake_iff hget hstatus]
  constructor
  · rintro ⟨heligible, hfit⟩
    obtain ⟨hterms, -, -, hreserved, -⟩ :=
      capability_holds.mp (ClaimSql.eligible_holds.mp heligible).2.2.2.2.2
    obtain ⟨hserves, hknows, hwindow, hholds⟩ := eligibility_holds.mp hterms
    refine ⟨hserves, hknows, hwindow, hlane.mp hholds, ?_, hfit⟩
    rw [reservationGate_without_iff] at hreserved
    -- Without a budget nothing is kept free; with one, the gate speaks of that budget.
    by_cases hnone : args.budget = none
    · refine Or.inr fun other waiting _ hwaits => ?_
      obtain ⟨budget, hbudget, -⟩ := hwaits
      cases hnone.symm.trans hbudget
    · obtain ⟨budget, hbudget⟩ := Option.ne_none_iff_exists'.mp hnone
      refine (hreserved budget hbudget).imp (fun hwide => ?_) fun hfree => ?_
      · exact ⟨budget, hbudget, hqueue, hstatus, hproject, hrun, hplaced, hterms, hwide⟩
      · intro other waiting hother hwaits
        exact hfree other waiting hother ((reservesHere_iff hbudget).mp hwaits)
  · rintro ⟨hserves, hknows, hwindow, hpool, hfree, hfit⟩
    refine ⟨?_, hfit⟩
    refine ClaimSql.eligible_holds.mpr ⟨hqueue, hstatus, hproject, hrun, hplaced, ?_⟩
    refine capability_holds.mpr ⟨?_, rfl, hslots, ?_, hkind⟩
    · exact eligibility_holds.mpr ⟨hserves, hknows, hwindow, hlane.mpr hpool⟩
    · refine reservationGate_without_iff.mpr fun budget hbudget => ?_
      refine hfree.imp (fun hreserves => ?_) fun hnone other waiting hother hwaits => ?_
      · exact ((reservesHere_iff hbudget).mp hreserves).2.2.2.2.2.2
      · exact hnone other waiting hother ((reservesHere_iff hbudget).mpr hwaits)

/-! ### Two rows of a small box -/

def smallBox : GpuWorkerConfig := { holder := "small", host := "small" }

def ollamaProbe : ClaimProbe :=
  { readings := ⟨0, fun _ => 0, true⟩, clock := 0, servedTypes := ["ollama"] }

def peerDb (kind : String) : Db :=
  { poolDb [poolRow "chat" kind none false] with
    heartbeats := OrdDict.empty.insert ⟨"big", .gpu, ""⟩ ⟨2, 60⟩
    now := 60 }

theorem starvation_view_iff_own_kind :
    let row := poolRow "chat" "ollama" none false
    (smallBox.feeder 1 30 20).Starving .pg (peerDb "ollama") row ∧
      CouldTake .pg (ollamaProbe.poolArgs smallBox false) (peerDb "ollama") 0 row := by
  intro row
  have hstarving : (smallBox.feeder 1 30 20).Starving .pg (peerDb "ollama") row := by
    decide +kernel
  refine ⟨hstarving, (starvation_view_iff smallBox ollamaProbe 1 30 20 (peerDb "ollama") 0 row rfl
    hstarving).mpr ⟨?_, Or.inl rfl, ?_, ?_, Or.inr ?_, widthsFit_of_entries (by decide +kernel)⟩⟩
  · refine Or.inr ?_
    rintro kinds ⟨⟩
    exact ⟨"ollama", List.mem_singleton_self _, Or.inl (List.mem_singleton_self _)⟩
  · rintro need ⟨⟩
  · rintro ⟨⟩
  · rintro other waiting hother ⟨budget, -, hreserves⟩
    have hplain : ∀ entry ∈ (peerDb "ollama").jobs.entries, entry.2.isPriority = false := by
      decide +kernel
    have hwaiting := hplain (other, waiting) (Table.mem_entries.mpr hother)
    cases hwaiting.symm.trans hreserves.2.2.2.2.2.2.1

/-- A row of a kind that the box does not serve breaks its deferral all the same: it no longer waits
for the idle peer, and its own claim takes nothing. -/
theorem foreign_row_breaks_deferral :
    let row := poolRow "chat" "vllm" none false
    (smallBox.feeder 1 30 20).Starving .pg (peerDb "vllm") row ∧
      ¬ CouldTake .pg (ollamaProbe.poolArgs smallBox false) (peerDb "vllm") 0 row ∧
      vlmPoolShouldDefer .pg .binary (smallBox.feeder 1 30 20) (peerDb "vllm") = false ∧
      vlmPoolShouldDefer .pg .binary (smallBox.feeder 1 30 20)
        { peerDb "vllm" with jobs := Table.empty } = true := by
  intro row
  refine ⟨by decide +kernel, fun htake => ?_, by decide +kernel, by decide +kernel⟩
  have heligible := ((couldTake_iff (d := .pg) rfl rfl).mp htake).1
  exact absurd heligible (by decide +kernel)

end BrokerParrot
