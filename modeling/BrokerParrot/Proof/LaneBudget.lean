import BrokerParrot.GpuWorker

/-!
# Both lanes of a gpu worker within one budget

Each lane takes its slot under the lock of the pool before it claims, and looks at what the other
one has taken. The slots are given back in statements of their own, the inline one without the lock,
so the lanes are followed statement by statement, with the place at which each thread stands.
-/

namespace BrokerParrot

inductive InlinePhase where
  | idle
  | reserved
  | executing
  | leaving
  deriving DecidableEq

inductive FeederPhase where
  | idle
  | reserved
  | claimed
  | givingBack
  deriving DecidableEq

/-- A worker and its threads: the inline loop, the feeder, the pool jobs that were handed over and
run, and those that have returned and still have their slot. -/
structure GpuLanes where
  worker : GpuWorker := {}
  inline : InlinePhase := .idle
  feeder : FeederPhase := .idle
  running : ℕ := 0
  returned : ℕ := 0

/-- The statements of `run_once`, of the feeder and of a pool thread. A claim that raises finds
nothing, and a body that raises returns. -/
inductive LaneStep where
  | reserveInline
  | claimInline (found : Bool)
  | returnInline
  | leaveInline
  | reservePool
  | claimPool (found : Bool)
  | submit (accepted : Bool)
  | giveBack
  | returnPool
  | release

namespace GpuLanes

def takeInline (lanes : GpuLanes) : GpuLanes :=
  { lanes with worker := { lanes.worker with inlineRunning := true }, inline := .reserved }

def dropInline (lanes : GpuLanes) : GpuLanes :=
  { lanes with worker := { lanes.worker with inlineRunning := false }, inline := .idle }

def addInflight (lanes : GpuLanes) (count : ℤ) : GpuLanes :=
  { lanes with worker := { lanes.worker with poolInflight := lanes.worker.poolInflight + count } }

def step (parallelism : ℤ) (lanes : GpuLanes) : LaneStep → GpuLanes
  | .reserveInline =>
    if lanes.inline = .idle ∧ ¬ parallelism ≤ lanes.worker.poolInflight then
      lanes.takeInline
    else
      lanes
  | .claimInline found =>
    if lanes.inline = .reserved then
      { lanes with inline := if found then .executing else .leaving }
    else
      lanes
  | .returnInline =>
    if lanes.inline = .executing then { lanes with inline := .leaving } else lanes
  | .leaveInline => if lanes.inline = .leaving then lanes.dropInline else lanes
  | .reservePool =>
    if lanes.feeder = .idle ∧ ¬ poolBudget parallelism lanes.worker ≤ lanes.worker.poolInflight
    then
      { lanes.addInflight 1 with feeder := .reserved }
    else
      lanes
  | .claimPool found =>
    if lanes.feeder = .reserved then
      { lanes with feeder := if found then .claimed else .givingBack }
    else
      lanes
  | .submit accepted =>
    if lanes.feeder = .claimed then
      if accepted then
        { lanes with feeder := .idle, running := lanes.running + 1 }
      else
        { lanes with feeder := .givingBack }
    else
      lanes
  | .giveBack =>
    if lanes.feeder = .givingBack then
      { lanes.addInflight (-1) with feeder := .idle }
    else
      lanes
  | .returnPool =>
    if 0 < lanes.running then
      { lanes with running := lanes.running - 1, returned := lanes.returned + 1 }
    else
      lanes
  | .release =>
    if 0 < lanes.returned then
      { lanes.addInflight (-1) with returned := lanes.returned - 1 }
    else
      lanes

def run (parallelism : ℤ) (lanes : GpuLanes) (steps : List LaneStep) : GpuLanes :=
  steps.foldl (step parallelism) lanes

def poolJobs (lanes : GpuLanes) : ℕ :=
  lanes.running + if lanes.feeder = .claimed then 1 else 0

def inlineJobs (lanes : GpuLanes) : ℕ := if lanes.inline = .executing then 1 else 0

end GpuLanes

def FeederPhase.slots (phase : FeederPhase) : ℕ := if phase = .idle then 0 else 1

/-- The counter counts what the feeder and the threads hold, the flag says whether the inline loop
holds its slot, and together they are within the budget. -/
structure GpuLanes.Balanced (parallelism : ℤ) (lanes : GpuLanes) : Prop where
  inflight : lanes.worker.poolInflight =
    ((lanes.feeder.slots + lanes.running + lanes.returned : ℕ) : ℤ)
  inline : lanes.worker.inlineRunning = true ↔ lanes.inline ≠ .idle
  within : lanes.worker.poolInflight + (if lanes.worker.inlineRunning then 1 else 0) ≤ parallelism

namespace GpuLanes

variable {parallelism : ℤ} {lanes : GpuLanes}

variable (hbalanced : lanes.Balanced parallelism) {after : GpuLanes}

include hbalanced

theorem Balanced.takeInline (hroom : ¬ parallelism ≤ lanes.worker.poolInflight) :
    lanes.takeInline.Balanced parallelism where
  inflight := hbalanced.inflight
  inline := iff_of_true rfl (by simp [GpuLanes.takeInline])
  within := by
    change lanes.worker.poolInflight + 1 ≤ parallelism
    omega

theorem Balanced.dropInline :
    lanes.dropInline.Balanced parallelism where
  inflight := hbalanced.inflight
  inline := iff_of_false Bool.false_ne_true (by simp [GpuLanes.dropInline])
  within := by
    have hwithin := hbalanced.within
    change lanes.worker.poolInflight + 0 ≤ parallelism
    split at hwithin <;> omega

theorem Balanced.of_slots (hworker : after.worker = lanes.worker)
    (hslots : after.feeder.slots + after.running + after.returned =
      lanes.feeder.slots + lanes.running + lanes.returned)
    (hinline : after.inline ≠ .idle ↔ lanes.inline ≠ .idle) : after.Balanced parallelism where
  inflight := by rw [hworker, hslots, hbalanced.inflight]
  inline := by rw [hworker, hbalanced.inline, hinline]
  within := by rw [hworker]; exact hbalanced.within

theorem Balanced.of_inflight {count : ℤ} (hworker : after.worker = (lanes.addInflight count).worker)
    (hinline : after.inline = lanes.inline)
    (hslots : ((after.feeder.slots + after.running + after.returned : ℕ) : ℤ) =
      ((lanes.feeder.slots + lanes.running + lanes.returned : ℕ) : ℤ) + count)
    (hroom : count ≤ 0 ∨ lanes.worker.poolInflight + count +
      (if lanes.worker.inlineRunning then 1 else 0) ≤ parallelism) :
    after.Balanced parallelism where
  inflight := by
    rw [hworker, hslots, ← hbalanced.inflight]
    rfl
  inline := by
    rw [hworker, hinline]
    exact hbalanced.inline
  within := by
    have hwithin := hbalanced.within
    rw [hworker]
    change lanes.worker.poolInflight + count +
      (if lanes.worker.inlineRunning then 1 else 0) ≤ parallelism
    omega

theorem Balanced.guarded {guard : Prop} [Decidable guard]
    (hafter : guard → after.Balanced parallelism) :
    (if guard then after else lanes).Balanced parallelism := by
  split
  · next hguard => exact hafter hguard
  · exact hbalanced

theorem Balanced.step (next : LaneStep) : (lanes.step parallelism next).Balanced parallelism := by
  cases next with
  | reserveInline => exact hbalanced.guarded fun hfree => hbalanced.takeInline hfree.2
  | claimInline found =>
    refine hbalanced.guarded fun hreserved => hbalanced.of_slots rfl rfl ?_
    cases found <;> simp [hreserved]
  | returnInline =>
    exact hbalanced.guarded fun hexecuting => hbalanced.of_slots rfl rfl (by simp [hexecuting])
  | leaveInline => exact hbalanced.guarded fun _ => hbalanced.dropInline
  | reservePool =>
    refine hbalanced.guarded fun ⟨hidle, hroom⟩ => hbalanced.of_inflight rfl rfl ?_ (Or.inr ?_)
    · rw [hidle]
      change ((1 + lanes.running + lanes.returned : ℕ) : ℤ) =
        ((0 + lanes.running + lanes.returned : ℕ) : ℤ) + 1
      omega
    · -- The budget of the pool is what the inline loop leaves of the parallelism.
      have hcount : ¬ lanes.worker.poolInflight < 0 := by
        rw [hbalanced.inflight]
        omega
      have hbudget := (lt_max_iff.mp (not_le.mp hroom)).resolve_left hcount
      omega
  | claimPool found =>
    refine hbalanced.guarded fun hreserved => hbalanced.of_slots rfl ?_ Iff.rfl
    cases found <;> simp [FeederPhase.slots, hreserved]
  | submit accepted =>
    refine hbalanced.guarded fun hclaimed => ?_
    cases accepted with
    | true =>
      refine hbalanced.of_slots rfl ?_ Iff.rfl
      simp [FeederPhase.slots, hclaimed]
      omega
    | false => exact hbalanced.of_slots rfl (by simp [FeederPhase.slots, hclaimed]) Iff.rfl
  | giveBack =>
    refine hbalanced.guarded fun hgiving => hbalanced.of_inflight rfl rfl ?_ (Or.inl (by decide))
    rw [hgiving]
    change ((0 + lanes.running + lanes.returned : ℕ) : ℤ) =
      ((1 + lanes.running + lanes.returned : ℕ) : ℤ) + -1
    omega
  | returnPool =>
    refine hbalanced.guarded fun hrunning => hbalanced.of_slots rfl ?_ Iff.rfl
    change lanes.feeder.slots + (lanes.running - 1) + (lanes.returned + 1) = _
    omega
  | release =>
    refine hbalanced.guarded fun hreturned => ?_
    refine hbalanced.of_inflight rfl rfl ?_ (Or.inl (by decide))
    change ((lanes.feeder.slots + lanes.running + (lanes.returned - 1) : ℕ) : ℤ) = _
    omega

theorem Balanced.run (steps : List LaneStep) : (lanes.run parallelism steps).Balanced parallelism :=
  List.foldlRecOn steps (GpuLanes.step parallelism) hbalanced fun _ hnow next _ => hnow.step next

theorem Balanced.jobs_le : ((lanes.poolJobs + lanes.inlineJobs : ℕ) : ℤ) ≤ parallelism := by
  have hpool : (lanes.poolJobs : ℤ) ≤ lanes.worker.poolInflight := by
    rw [hbalanced.inflight]
    unfold poolJobs
    split
    · next hclaimed =>
      rw [hclaimed]
      change ((lanes.running + 1 : ℕ) : ℤ) ≤ ((1 + lanes.running + lanes.returned : ℕ) : ℤ)
      omega
    · omega
  have hinline : (lanes.inlineJobs : ℤ) ≤ if lanes.worker.inlineRunning then 1 else 0 := by
    unfold inlineJobs
    split
    · next hexecuting => rw [if_pos (hbalanced.inline.mpr (by simp [hexecuting]))]; rfl
    · split <;> simp
  calc ((lanes.poolJobs + lanes.inlineJobs : ℕ) : ℤ)
      = (lanes.poolJobs : ℤ) + lanes.inlineJobs := Nat.cast_add _ _
    _ ≤ lanes.worker.poolInflight + if lanes.worker.inlineRunning then 1 else 0 :=
        add_le_add hpool hinline
    _ ≤ parallelism := hbalanced.within

end GpuLanes

end BrokerParrot
