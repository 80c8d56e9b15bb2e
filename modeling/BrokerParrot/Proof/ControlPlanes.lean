import BrokerParrot.WorkerControl
import BrokerParrot.Proof.WindowElection

/-!
# The two halves of a control row

Switching a worker and configuring its server write one table. Neither writes a column of the other
half, but both create the row they address, and a row of a label hides the row of its box. So a
write leaves the other half alone, as every worker reads it, exactly when the row was there already
or what it hides says no more than a new row does.
-/

namespace BrokerParrot

open OrdDict Option

variable {controls after : WorkerControls} {key worker : WorkerKey} {repr : String → String}
  {now : ℚ}

namespace WorkerControls

def columnFor {β : Type} (controls : WorkerControls) (column : WorkerControl → β)
    (worker : WorkerKey) : β :=
  ((controls.getWorkerControl worker).map column).getD (column {})

theorem desiredStateFor_eq (controls : WorkerControls) (worker : WorkerKey) :
    controls.desiredStateFor worker = controls.columnFor WorkerControl.desiredState worker := by
  unfold desiredStateFor columnFor
  cases controls.getWorkerControl worker with
  | none => rfl
  | some row =>
    change (if row.desiredState = .off then DesiredState.off else .on) = row.desiredState
    cases row.desiredState <;> rfl

theorem llmConfigFor_eq (controls : WorkerControls) (worker : WorkerKey) :
    controls.llmConfigFor worker = controls.columnFor WorkerControl.llm worker := by
  unfold llmConfigFor columnFor
  cases controls.getWorkerControl worker <;> rfl

theorem getWorkerControl_of_get? {row : WorkerControl} (hget : controls.get? worker = some row) :
    controls.getWorkerControl worker = some row := by
  unfold getWorkerControl
  rw [hget, some_or]

section

variable {β : Type} {column : WorkerControl → β} {set : WorkerControl → WorkerControl}

variable (hset : ∀ row, column (set row) = column row)

include hset

theorem columnFor_upsert_self :
    (controls.upsert key set).columnFor column key = column ((controls.get? key).getD {}) := by
  have hnew : (controls.upsert key set).get? key = some (set ((controls.get? key).getD {})) :=
    get?_insert_self _ _ _
  unfold columnFor
  rw [getWorkerControl_of_get? hnew]
  exact hset _

theorem columnFor_upsert_of_ne (hne : worker ≠ key) :
    (controls.upsert key set).columnFor column worker = controls.columnFor column worker := by
  unfold columnFor getWorkerControl
  have hown : (controls.upsert key set).get? worker = controls.get? worker :=
    get?_insert_of_ne _ _ hne
  rw [hown]
  cases hget : controls.get? worker with
  | some => rfl
  | none =>
    -- The worker falls back on the row of its box, which may be the one that is written.
    rw [none_or, none_or]
    cases hbox : boxAddress worker.hostLabel with
    | none => rfl
    | some box =>
      rw [bind_some, bind_some]
      by_cases heq : { worker with hostLabel := box } = key
      · have hnew : (controls.upsert key set).get? { worker with hostLabel := box } =
            some (set ((controls.get? key).getD {})) := by
          rw [heq]
          exact get?_insert_self _ _ _
        rw [hnew, heq, map_some, getD_some, hset]
        cases controls.get? key <;> rfl
      · have hsame : (controls.upsert key set).get? { worker with hostLabel := box } =
            controls.get? { worker with hostLabel := box } :=
          get?_insert_of_ne _ _ heq
        rw [hsame]

theorem columnFor_upsert_iff :
    (∀ worker, (controls.upsert key set).columnFor column worker =
        controls.columnFor column worker) ↔
      controls.get? key ≠ none ∨ controls.columnFor column key = column {} := by
  constructor
  · intro hsame
    by_cases hnone : controls.get? key = none
    · have hkey := hsame key
      rw [columnFor_upsert_self hset, hnone] at hkey
      exact Or.inr hkey.symm
    · exact Or.inl hnone
  · intro hkept worker
    by_cases heq : worker = key
    · subst heq
      rw [columnFor_upsert_self hset]
      cases hget : controls.get? worker with
      | some =>
        unfold columnFor
        rw [getWorkerControl_of_get? hget]
        rfl
      | none => exact (hkept.resolve_left (by simp [hget])).symm
    · exact columnFor_upsert_of_ne hset heq

end

end WorkerControls

/-! ### The writers -/

theorem setWorkerControl_ok {state policy : String} {requestedBy : Option String}
    (hok : setWorkerControl repr key state policy requestedBy now controls = .ok after) :
    ∃ set : WorkerControl → WorkerControl, (∀ row, (set row).llm = row.llm) ∧
      after = controls.upsert key set := by
  unfold setWorkerControl at hok
  split at hok
  · cases hok
  · split_ifs at hok with hpolicy
    refine ⟨_, ?_, (Except.ok.inj hok).symm⟩
    exact fun _ => rfl

theorem setLlmConfig_ok {edit : LlmEdit}
    (hok : setLlmConfig repr key edit now controls = .ok after) :
    ∃ set : WorkerControl → WorkerControl,
      (∀ row, (set row).desiredState = row.desiredState) ∧ after = controls.upsert key set := by
  unfold setLlmConfig at hok
  split_ifs at hok with hkind hslots httl
  refine ⟨_, ?_, (Except.ok.inj hok).symm⟩
  exact fun _ => rfl

/-- **Control planes.** A configuration changes nobody's switch if and only if the row it addresses
exists, or the worker is not off by the row of its box; and a switch nobody's configuration if and
only if the row exists, or the worker reads the defaults. -/
theorem control_planes_apart_iff (repr : String → String) (controls after : WorkerControls)
    (key : WorkerKey) (now : ℚ) :
    (∀ edit, setLlmConfig repr key edit now controls = .ok after →
      ((∀ worker, after.desiredStateFor worker = controls.desiredStateFor worker) ↔
        controls.get? key ≠ none ∨ controls.desiredStateFor key = .on)) ∧
    (∀ state policy requestedBy,
      setWorkerControl repr key state policy requestedBy now controls = .ok after →
      ((∀ worker, after.llmConfigFor worker = controls.llmConfigFor worker) ↔
        controls.get? key ≠ none ∨ controls.llmConfigFor key = {})) := by
  constructor
  · intro edit hok
    obtain ⟨set, hset, rfl⟩ := setLlmConfig_ok hok
    simp only [WorkerControls.desiredStateFor_eq]
    exact WorkerControls.columnFor_upsert_iff hset
  · intro state policy requestedBy hok
    obtain ⟨set, hset, rfl⟩ := setWorkerControl_ok hok
    simp only [WorkerControls.llmConfigFor_eq]
    exact WorkerControls.columnFor_upsert_iff hset

/-! ### A machine addressed by its name -/

def laneKey : WorkerKey := ⟨"box-c-gpu", .gpu, ""⟩

def machineRow : WorkerControls :=
  OrdDict.empty.insert ⟨"box-c", .gpu, ""⟩
    { desiredState := .off, llm := { serverType := .vllm, parallelism := 4 } }

theorem control_planes_apart_iff_machine :
    (∃ after, setLlmConfig id ⟨"box-c", .gpu, ""⟩ { parallelism := some 2 } 0 machineRow =
        .ok after ∧ ∀ worker, after.desiredStateFor worker = machineRow.desiredStateFor worker) ∧
      ∃ after, setWorkerControl id ⟨"box-c", .gpu, ""⟩ "on" "hard" none 0 machineRow = .ok after ∧
        ∀ worker, after.llmConfigFor worker = machineRow.llmConfigFor worker := by
  have hrow : machineRow.get? ⟨"box-c", .gpu, ""⟩ ≠ none := some_ne_none _
  refine ⟨⟨_, rfl, ?_⟩, ⟨_, rfl, ?_⟩⟩
  · exact ((control_planes_apart_iff id machineRow _ ⟨"box-c", .gpu, ""⟩ 0).1
      { parallelism := some 2 } rfl).mpr (Or.inl hrow)
  · exact ((control_planes_apart_iff id machineRow _ ⟨"box-c", .gpu, ""⟩ 0).2
      "on" "hard" none rfl).mpr (Or.inl hrow)

/-- Giving the worker of a parked machine one more slot turns it on, and turning it on by its label
gives it the default server. -/
theorem lane_row_hides_machine_row :
    machineRow.desiredStateFor laneKey = .off ∧
      machineRow.llmConfigFor laneKey = { serverType := .vllm, parallelism := 4 } ∧
      (setLlmConfig id laneKey { parallelism := some 2 } 0 machineRow).map
        (fun after => after.desiredStateFor laneKey) = .ok .on ∧
      (setWorkerControl id laneKey "on" "hard" none 0 machineRow).map
        (fun after => after.llmConfigFor laneKey) = .ok {} := by
  decide +kernel

/-! ### Parked boxes -/

namespace ContextNeed

variable {args : ContextNeed} {collation : Collation} {fleet : Fleet}

def CountsWindow (args : ContextNeed) (fleet : Fleet) (row : NodeJob) (worker : WorkerKey) : Prop :=
  worker ∈ args.live fleet ∧
    (Tri.compare (· ≤ ·) row.contextLength (fleet.adverts worker).contextLength).Holds

def WinsElection (args : ContextNeed) (collation : Collation) (fleet : Fleet) (ceiling : ℤ)
    (row : NodeJob) (worker : WorkerKey) : Prop :=
  worker ∈ args.live fleet ∧ args.Outbid collation fleet ceiling row worker

def MasksNothing (args : ContextNeed) (collation : Collation) (fleet : Fleet) (worker : WorkerKey) :
    Prop :=
  ∀ row, ¬ args.CountsWindow fleet row worker ∧
    ∀ ceiling, ¬ args.WinsElection collation fleet ceiling row worker

theorem masksNothing_iff : args.MasksNothing collation fleet worker ↔
    worker ∉ args.live fleet ∨
      ((fleet.adverts worker).contextLength = none ∧ (fleet.adverts worker).contextMax = none) := by
  constructor
  · intro hmasks
    rw [or_iff_not_imp_left, not_not]
    intro hlive
    constructor
    · -- a row that asks for just the window the worker serves
      by_contra hserves
      obtain ⟨tokens, htokens⟩ := ne_none_iff_exists'.mp hserves
      refine (hmasks { sizedRow none with contextLength := some tokens }).1 ⟨hlive, ?_⟩
      rw [htokens]
      simp [Tri.compare, Tri.Holds]
    · -- a row that asks for the worker's maximum, against a box that has more
      by_contra hreaches
      obtain ⟨widest, hwidest⟩ := ne_none_iff_exists'.mp hreaches
      refine (hmasks { sizedRow none with contextLength := some widest }).2 (widest + 1)
        ⟨hlive, ?_⟩
      unfold Outbid
      rw [hwidest]
      simp [Tri.compare, Tri.Holds]
  · rintro (hnot | ⟨hserves, hreaches⟩) row
    · exact ⟨fun hcounts => hnot hcounts.1, fun ceiling hwins => hnot hwins.1⟩
    · refine ⟨fun hcounts => ?_, fun ceiling hwins => ?_⟩
      · have hholds := hcounts.2
        rw [hserves] at hholds
        cases row.contextLength <;> exact absurd hholds (by simp [Tri.compare, Tri.Holds])
      · have hholds := hwins.2.1
        rw [hreaches] at hholds
        cases row.contextLength <;> exact absurd hholds (by simp [Tri.compare, Tri.Holds])

theorem mem_live_withControls :
    worker ∈ args.live (fleet.withControls controls) ↔
      worker ∈ fleet.liveGpu args.project args.windowS ∧
        (controls.get? worker).map WorkerControl.desiredState ≠ some .off := by
  unfold live Fleet.Parked
  rw [List.mem_filter, decide_eq_true_iff]
  refine and_congr_right fun hlive => not_congr ?_
  obtain ⟨hqueue, hproject⟩ := Fleet.key_of_mem_liveGpu hlive
  have hkey : (⟨worker.hostLabel, .gpu, args.project⟩ : WorkerKey) = worker := by
    rw [← hqueue, ← hproject]
  rw [hkey, ← get?_mapValues]
  rfl

end ContextNeed

/-- **Parked boxes.** A worker that is off masks no row if and only if its control row is addressed
to its own label, or it is not a fresh gpu worker of the project or advertises no window. -/
theorem parked_masks_nothing_iff (args : ContextNeed) (collation : Collation) (fleet : Fleet)
    (controls : WorkerControls) (worker : WorkerKey)
    (hoff : controls.desiredStateFor worker = .off) :
    args.MasksNothing collation (fleet.withControls controls) worker ↔
      controls.get? worker ≠ none ∨ worker ∉ fleet.liveGpu args.project args.windowS ∨
        ((fleet.adverts worker).contextLength = none ∧
          (fleet.adverts worker).contextMax = none) := by
  -- a row of the worker's own label is the one that turns it off
  have hown : (controls.get? worker).map WorkerControl.desiredState = some .off ↔
      controls.get? worker ≠ none := by
    cases hget : controls.get? worker with
    | none => simp
    | some =>
      rw [WorkerControls.desiredStateFor_eq] at hoff
      unfold WorkerControls.columnFor at hoff
      rw [WorkerControls.getWorkerControl_of_get? hget] at hoff
      simpa using hoff
  rw [ContextNeed.masksNothing_iff, ContextNeed.mem_live_withControls, not_and, not_not, hown]
  tauto

def twoMachines : Fleet where
  db :=
    { jobs := Table.ofRows [sizedRow none]
      runs := OrdDict.empty.insert "run" { workflowName := "w", status := .running }
      heartbeats := (OrdDict.empty.insert laneKey ⟨1, 60⟩).insert ⟨"box-d-gpu", .gpu, ""⟩ ⟨1, 60⟩
      now := 60 }
  adverts := fun worker =>
    if worker = laneKey then { contextLength := some 200, contextMax := some 200 }
    else { contextLength := some 10, contextMax := some 400 }

def secondCall : ContextNeed := { host := "box-d-gpu", serving := some 10, ceiling := some 400 }

def laneRow : WorkerControls := OrdDict.empty.insert laneKey { desiredState := .off }

theorem parked_masks_nothing_iff_lane :
    secondCall.MasksNothing .binary (twoMachines.withControls laneRow) laneKey :=
  (parked_masks_nothing_iff secondCall .binary twoMachines laneRow laneKey (by decide)).mpr
    (Or.inl (some_ne_none _))

/-- Parked under its worker's label the first machine masks nothing. Parked under its own name,
nobody grows. -/
theorem parked_machine_masks :
    laneRow.desiredStateFor laneKey = .off ∧ machineRow.desiredStateFor laneKey = .off ∧
      contextSwitchNeed .pg .binary secondCall (twoMachines.withControls laneRow) = some 100 ∧
      secondCall.CountsWindow (twoMachines.withControls machineRow) (sizedRow none) laneKey ∧
      contextSwitchNeed .pg .binary secondCall (twoMachines.withControls machineRow) = none := by
  refine ⟨by decide, by decide, by decide +kernel, ⟨by decide +kernel, by decide +kernel⟩, ?_⟩
  decide +kernel

end BrokerParrot
