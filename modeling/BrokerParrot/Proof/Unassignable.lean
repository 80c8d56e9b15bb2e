import BrokerParrot.Fleet
import BrokerParrot.Proof.ClaimGates

/-!
# Rows flagged unassignable

The sweep flags a queued row when no live box fits its `required_model` and reaches its window. The
claim accepts a row by any model of its list, and its two lanes claim with different lists: the
inline lane with the models that fit, the pool lane with all that the box knows.
-/

namespace BrokerParrot

open GpuClaim

inductive GpuLane where
  | inline
  | pool
  deriving DecidableEq

structure WorkerSite where
  box : Option String := none
  poolModules : List String := []

namespace Advert

/-- `fits_models` is what the inline lane claims with, `known_models` what the pool lane does. -/
def laneModels (advert : Advert) : GpuLane → List String
  | .inline => advert.fitsModels
  | .pool => advert.knownModels

def TooSmall (advert : Advert) : Prop :=
  advert.knownModels ≠ [] ∧ advert.vramTotalMb ≠ none ∧ advert.fitsModels = []

def laneClaim (advert : Advert) (site : WorkerSite) (lane : GpuLane) (window : Option ℤ) :
    GpuClaim where
  knownModels := advert.laneModels lane
  requireModel := some (decide (lane = .inline))
  poolModules := site.poolModules
  box := site.box
  servedTypes := advert.llmServersAvailable
  servingContext := window

end Advert

namespace Fleet

/-- Some lane of the worker takes the row at some window the worker can be grown to. -/
def CouldEverTake (fleet : Fleet) (d : Dialect) (site : WorkerSite) (worker : WorkerKey)
    (row : NodeJob) : Prop :=
  runClaimable fleet.db row.runId = true ∧ (placementTerms d (orNull site.box) row).Holds ∧
    ∃ lane window, (lane = .inline → ¬ (fleet.adverts worker).TooSmall) ∧
      (∀ tokens, window = some tokens →
        ∃ widest, (fleet.adverts worker).contextMax = some widest ∧ tokens ≤ widest) ∧
      (((fleet.adverts worker).laneClaim site lane window).eligibility d row).Holds

end Fleet

def NodeJob.modelLane (row : NodeJob) : GpuLane :=
  if row.serverTypes = none then .inline else .pool

namespace Fleet

structure Admits (fleet : Fleet) (d : Dialect) (site : WorkerSite) (worker : WorkerKey)
    (row : NodeJob) : Prop where
  run : runClaimable fleet.db row.runId = true
  placed : (placementTerms d (orNull site.box) row).Holds
  kind : nonBlank (fleet.adverts worker).llmServersAvailable = [] ∨
    ∀ kinds, row.serverTypes = some kinds → ∃ kind ∈ kinds,
      kind ∈ nonBlank (fleet.adverts worker).llmServersAvailable ∨ kind = clusterServerKind
  window : row.contextLength = none ∨ fleet.Reaches row worker

end Fleet

/-- The list the row's lane claims with is not empty and names no model that the row accepts. -/
def Advert.RefusesModels (advert : Advert) (row : NodeJob) : Prop :=
  (row.modelLane = .inline ∧ advert.TooSmall) ∨
    (nonBlank (advert.laneModels row.modelLane) ≠ [] ∧
      ∀ model ∈ row.acceptable, model ∉ nonBlank (advert.laneModels row.modelLane))

section

variable {d : Dialect} {project : String} {windowS : ℚ} {fleet : Fleet} {site : WorkerSite}
  {worker : WorkerKey} {id : JobId} {row : NodeJob} {advert : Advert}

theorem Fleet.selects_of_mem_flagged {selects : JobId → NodeJob → Prop}
    [∀ id row, Decidable (selects id row)] {flag : NodeJob → RedFlag}
    (hmem : id ∈ (fleet.flagged selects flag).map Flagged.id)
    (hget : fleet.db.jobs.get? id = some row) : selects id row := by
  obtain ⟨flagged, hflagged, rfl⟩ := List.mem_map.mp hmem
  obtain ⟨key, hseen⟩ := Table.mem_collect.mp hflagged
  obtain ⟨found, hfound, hview⟩ := Option.bind_eq_some_iff.mp hseen
  dsimp only at hview
  split_ifs at hview with hselects
  cases hview
  obtain rfl : found = row := Option.mem_unique hfound hget
  exact hselects

theorem not_servesHere_of_flagged (hget : fleet.db.jobs.get? id = some row)
    (hflag : id ∈ (fleet.flagUnassignableGpuJobs d project windowS).2.map Flagged.id) :
    ¬ ∃ worker ∈ fleet.liveGpu project windowS, fleet.ServesHere d row worker := by
  -- the raising statement sees the flags that the clearing one left
  let cleared := fleet.setFlags (fleet.ClearsUnassignable d project windowS) fun _ => {}
  let flag : NodeJob → RedFlag := fun row =>
    { raisedAt := some fleet.db.now, reason := fleet.unassignableReason d project windowS row }
  have hmem : id ∈ (cleared.flagged (cleared.RaisesUnassignable d project windowS) flag).map
      Flagged.id := hflag
  exact (Fleet.selects_of_mem_flagged hmem hget).2.2.2.2.2.2

theorem reaches_iff :
    fleet.Reaches row worker ↔ ∃ need widest, row.contextLength = some need ∧
      (fleet.adverts worker).contextMax = some widest ∧ need ≤ widest := by
  unfold Fleet.Reaches
  cases row.contextLength <;> cases (fleet.adverts worker).contextMax <;>
    simp [Tri.compare, Tri.Holds]

theorem couldEverTake_iff : fleet.CouldEverTake d site worker row ↔
    fleet.Admits d site worker row ∧ ∃ lane,
      (lane = .inline → ¬ (fleet.adverts worker).TooSmall) ∧
      ((fleet.adverts worker).laneClaim site lane none).KnowsModel row ∧
      (((fleet.adverts worker).laneClaim site lane none).laneGate row).Holds := by
  constructor
  · rintro ⟨hrun, hplaced, lane, window, hroom, hwidest, hterms⟩
    obtain ⟨hkind, hknows, hwindow, hlane⟩ := eligibility_holds.mp hterms
    refine ⟨⟨hrun, hplaced, hkind, ?_⟩, lane, hroom, hknows, hlane⟩
    cases hneed : row.contextLength with
    | none => exact Or.inl rfl
    | some need =>
      obtain ⟨tokens, htokens, hle⟩ := hwindow need hneed
      obtain ⟨widest, hmax, hbound⟩ := hwidest tokens htokens
      exact Or.inr (reaches_iff.mpr ⟨need, widest, hneed, hmax, hle.trans hbound⟩)
  · rintro ⟨⟨hrun, hplaced, hkind, hwindow⟩, lane, hroom, hknows, hlane⟩
    refine ⟨hrun, hplaced, lane, (fleet.adverts worker).contextMax, hroom,
      fun tokens htokens => ⟨tokens, htokens, le_rfl⟩, ?_⟩
    refine eligibility_holds.mpr ⟨hkind, hknows, fun need hneed => ?_, hlane⟩
    rcases hwindow with hnone | hreaches
    · cases hnone.symm.trans hneed
    · obtain ⟨found, widest, hfound, hmax, hle⟩ := reaches_iff.mp hreaches
      obtain rfl : found = need := Option.mem_unique hfound hneed
      exact ⟨widest, hmax, hle⟩

theorem laneGate_laneClaim_iff {lane : GpuLane} (hmodel : row.requiredModel ≠ none) :
    ((advert.laneClaim site lane none).laneGate row).Holds ↔ lane = row.modelLane := by
  unfold NodeJob.modelLane
  cases lane with
  | inline =>
    rw [laneGate_inline_holds rfl]
    unfold InlineLane
    split_ifs with hserver <;> simp [hserver, hmodel]
  | pool =>
    rw [laneGate_pool_holds rfl]
    unfold PoolLane
    split_ifs with hserver <;> simp [hserver, hmodel]

theorem refusesModels_iff (hmodel : row.requiredModel ≠ none) :
    advert.RefusesModels row ↔
      ¬ ((row.modelLane = .inline → ¬ advert.TooSmall) ∧
        (advert.laneClaim site row.modelLane none).KnowsModel row) := by
  have hknown : (advert.laneClaim site row.modelLane none).known =
    nonBlank (advert.laneModels row.modelLane) := rfl
  unfold Advert.RefusesModels KnowsModel
  simp only [hmodel, false_or]
  constructor
  · rintro (⟨hinline, hsmall⟩ | ⟨hne, hnone⟩) ⟨hroom, hknows⟩
    · exact hroom hinline hsmall
    · rcases hknows with hempty | ⟨model, hmem, hlisted⟩
      · exact hne hempty
      · exact hnone model hmem hlisted
  · intro hrefuses
    by_cases hsmall : row.modelLane = .inline ∧ advert.TooSmall
    · exact Or.inl hsmall
    · rw [not_and] at hsmall
      refine Or.inr ⟨fun hempty => hrefuses ⟨hsmall, Or.inl hempty⟩, fun model hmem hlisted => ?_⟩
      exact hrefuses ⟨hsmall, Or.inr ⟨model, hmem, hlisted⟩⟩

end

/-- **Unassignable rows.** No live worker could ever take a flagged row if and only if every one
that its placement, its kinds and its window admit claims with a list of models that is not empty
and names none of the row's. -/
theorem unassignable_iff (d : Dialect) (project : String) (windowS : ℚ) (fleet : Fleet)
    (sites : WorkerKey → WorkerSite) (id : JobId) (row : NodeJob)
    (hget : fleet.db.jobs.get? id = some row)
    (hflag : id ∈ (fleet.flagUnassignableGpuJobs d project windowS).2.map Flagged.id) :
    (∀ worker ∈ fleet.liveGpu project windowS,
        ¬ fleet.CouldEverTake d (sites worker) worker row) ↔
      ∀ worker ∈ fleet.liveGpu project windowS, fleet.Admits d (sites worker) worker row →
        (fleet.adverts worker).RefusesModels row := by
  have hnobody := not_servesHere_of_flagged hget hflag
  -- a worker that reaches the window was passed over for the model
  have hmodel : ∀ worker ∈ fleet.liveGpu project windowS,
      fleet.Admits d (sites worker) worker row → row.requiredModel ≠ none :=
    fun worker hlive hadmits hnone =>
      hnobody ⟨worker, hlive, Or.inl hnone, hadmits.window⟩
  refine forall₂_congr fun worker hlive => ?_
  rw [couldEverTake_iff, not_and]
  refine forall_congr' fun hadmits => ?_
  have hnamed := hmodel worker hlive hadmits
  rw [refusesModels_iff hnamed]
  refine not_congr ⟨?_, fun ⟨hroom, hknows⟩ => ⟨row.modelLane, hroom, hknows, ?_⟩⟩
  · rintro ⟨lane, hroom, hknows, hlane⟩
    obtain rfl := (laneGate_laneClaim_iff hnamed).mp hlane
    exact ⟨hroom, hknows⟩
  · exact (laneGate_laneClaim_iff hnamed).mpr rfl

/-! ### A row with two models -/

def eitherRow : NodeJob :=
  { runId := "run", nodeId := "render", nodeModule := "m", queue := .gpu, project := "",
    status := .queued, requiredModel := some "large", requiredModelIds := some ["large", "small"],
    createdAt := 0 }

def oneMachine (known fits : List String) (row : NodeJob) : Fleet where
  db :=
    { jobs := Table.ofRows [row]
      runs := OrdDict.empty.insert "run" { workflowName := "w", status := .running }
      heartbeats := OrdDict.empty.insert ⟨"box-gpu", .gpu, ""⟩ ⟨1, 0⟩ }
  adverts := fun _ => { knownModels := known, fitsModels := fits, vramTotalMb := some 8000 }

theorem unassignable_iff_tiny :
    let fleet := oneMachine ["large", "small", "tiny"] ["tiny"] eitherRow
    0 ∈ (fleet.flagUnassignableGpuJobs .pg "" 30).2.map Flagged.id ∧
      ∀ worker ∈ fleet.liveGpu "" 30, ¬ fleet.CouldEverTake .pg {} worker eitherRow := by
  intro fleet
  have hflag : 0 ∈ (fleet.flagUnassignableGpuJobs .pg "" 30).2.map Flagged.id := by
    decide +kernel
  refine ⟨hflag, (unassignable_iff .pg "" 30 fleet (fun _ => {}) 0 eitherRow rfl hflag).mpr ?_⟩
  intro worker _ _
  exact Or.inr (show nonBlank ["tiny"] ≠ [] ∧
    ∀ model ∈ ["large", "large", "small"], model ∉ nonBlank ["tiny"] by decide)

/-- The machine holds the second model. The row is flagged, and the machine's next claim takes
it. -/
theorem flagged_row_taken :
    let fleet := oneMachine ["large", "small"] ["small"] eitherRow
    0 ∈ (fleet.flagUnassignableGpuJobs .pg "" 30).2.map Flagged.id ∧
      (∃ worker ∈ fleet.liveGpu "" 30, fleet.CouldEverTake .pg {} worker eitherRow) ∧
      ((claimNextGpuJob .pg ((fleet.adverts ⟨"box-gpu", .gpu, ""⟩).laneClaim {} .inline none) {}
        fleet.db).2.map Prod.fst) = some 0 := by
  intro fleet
  refine ⟨by decide +kernel, ⟨⟨"box-gpu", .gpu, ""⟩, by decide +kernel, ?_⟩, by decide +kernel⟩
  refine ⟨by decide +kernel, by decide +kernel, .inline, none, fun _ hsmall => ?_, ?_, ?_⟩
  · exact absurd hsmall.2.2 (by decide)
  · rintro tokens ⟨⟩
  · decide +kernel

end BrokerParrot
