import BrokerParrot.GpuWorker
import BrokerParrot.Proof.OneModelPerBox

/-!
# One slot per card

The lease keeps different processes off one card, but it never refuses a process because of what the
process itself holds. The two lanes of a worker, its heartbeat, its switch and its warm cache all
call the lease under one name, so they can take the card from each other's jobs.

The invariant is that the lease file backs every grant that is good, and that the jobs on the card
are for one slot. Only an admission can break it: the lease sees to the jobs of other processes, as
long as they are covered by the latest grant of their process, and nothing sees to those of its own.
-/

namespace BrokerParrot

open Relation

variable {before after : GpuBox}

/-! ### What a statement can do -/

structure GpuBox.Quiet (before after : GpuBox) : Prop where
  lease : after.lease = before.lease
  now : after.now = before.now
  admitted : ∀ job ∈ after.admitted, ∃ old ∈ before.admitted,
    old.holder = job.holder ∧ old.slot = job.slot

inductive GpuBox.Effect (before : GpuBox) : GpuBox → Prop
  | quiet {after : GpuBox} (hquiet : before.Quiet after) : Effect before after
  | call (cfg : GpuWorkerConfig) (call : LeaseCall) (contended : Bool)
      (htimely : (LeaseEvent.mk cfg.holder call contended before.now).Timely) :
      Effect before (before.callLease cfg call contended).1
  | admission (cfg : GpuWorkerConfig) (job : JobId) (slot : String) (now : ℚ) (contended : Bool)
      (hnow : now ≤ before.now) : Effect before (before.admitJob cfg job slot now contended).1

def GpuBox.Later (before after : GpuBox) : Prop := before.now ≤ after.now

namespace GpuBox

theorem later_of_steps (hsteps : ReflTransGen Later before after) : before.now ≤ after.now := by
  induction hsteps with
  | refl => exact le_rfl
  | tail _ hlast ih => exact le_trans ih hlast

theorem quiet_of_same (hlease : after.lease = before.lease) (hnow : after.now = before.now)
    (hadmitted : after.admitted = before.admitted) :
    before.Quiet after :=
  ⟨hlease, hnow, fun job hmem => ⟨job, hadmitted ▸ hmem, rfl, rfl⟩⟩

theorem quiet_start (cfg : GpuWorkerConfig) (job : JobId) (box : GpuBox) :
    box.Quiet (box.start cfg job) := by
  refine ⟨rfl, rfl, ?_⟩
  intro started hmem
  obtain ⟨old, hold, rfl⟩ := List.mem_map.mp hmem
  refine ⟨old, hold, ?_⟩
  split
  · exact ⟨rfl, rfl⟩
  · exact ⟨rfl, rfl⟩

theorem quiet_finish (cfg : GpuWorkerConfig) (job : JobId) (box : GpuBox) (worker : GpuWorker) :
    box.Quiet ((box.finish cfg job).setWorker cfg worker) := by
  refine ⟨rfl, rfl, ?_⟩
  intro left hmem
  exact ⟨left, List.mem_of_mem_eraseP hmem, rfl, rfl⟩

theorem Effect.now_eq (heffect : before.Effect after) : after.now = before.now := by
  cases heffect with
  | quiet hquiet => exact hquiet.now
  | call => rfl
  | admission =>
    unfold admitJob
    dsimp only
    split <;> rfl

end GpuBox

def Tame {α : Type} (prog : BoxProg α) : Prop :=
  ∀ box, prog.Safe GpuBox.Later GpuBox.Effect (fun _ _ => True) box

namespace Tame

variable {α β : Type}

theorem ret (value : α) : Tame (pure value : BoxProg α) := fun _ _ _ => trivial

theorem hang : Tame (Prog.hang : BoxProg α) := fun _ => trivial

theorem bind {prog : BoxProg α} {next : α → BoxProg β} (hprog : Tame prog)
    (hnext : ∀ value, Tame (next value)) : Tame (prog >>= next) :=
  fun box => (hprog box).bind (fun value after _ => hnext value after) fun _ _ _ => trivial

theorem read (view : GpuBox → α) : Tame (Prog.read view : BoxProg α) := by
  intro box after _
  exact ⟨.quiet (GpuBox.quiet_of_same rfl rfl rfl), fun _ _ => trivial⟩

theorem exec {run : GpuBox → GpuBox × α} (hrun : ∀ box : GpuBox, box.Quiet (run box).1) :
    Tame (Prog.exec run : BoxProg α) := by
  intro box after _
  exact ⟨.quiet (hrun after), fun _ _ => trivial⟩

theorem write {set : GpuBox → GpuBox} (hset : ∀ box : GpuBox, box.Quiet (set box)) :
    Tame (Prog.write set : BoxProg Unit) := by
  intro box after _
  exact ⟨.quiet (hset after), fun _ _ => trivial⟩

variable (cfg : GpuWorkerConfig)

theorem readWorker (view : GpuWorker → α) : Tame (readWorker cfg view) := read _

theorem writeWorker (set : GpuWorker → GpuWorker) : Tame (writeWorker cfg set) :=
  write fun _ => GpuBox.quiet_of_same rfl rfl rfl

theorem execWorker (run : GpuWorker → GpuWorker × α) : Tame (execWorker cfg run) :=
  exec fun _ => GpuBox.quiet_of_same rfl rfl rfl

theorem onSwitch (run : SwitchHost → SwitchHost × α) : Tame (onSwitch cfg run) := execWorker cfg _

theorem onDb (run : Db → Db × α) : Tame (onDb run) :=
  exec fun _ => GpuBox.quiet_of_same rfl rfl rfl

theorem readThenCall (call : ℚ → LeaseCall) (contended : Bool)
    (htimely : ∀ (now : ℚ) (box : GpuBox), now ≤ box.now →
      (LeaseEvent.mk cfg.holder (call now) contended box.now).Timely) :
    Tame (do
      let now ← Prog.read GpuBox.now
      Prog.exec (GpuBox.callLease cfg (call now) contended)) := by
  intro box reading _
  refine ⟨.quiet (GpuBox.quiet_of_same rfl rfl rfl), ?_⟩
  intro calling hcalling
  exact ⟨.call cfg _ contended (htimely _ _ (GpuBox.later_of_steps hcalling)), fun _ _ => trivial⟩

theorem acquireLease (modelId : String) (contended : Bool) :
    Tame (acquireLease cfg modelId contended) :=
  readThenCall cfg (LeaseCall.acquire modelId) contended fun _ _ hle => hle

theorem renewLeaseOf (modelId : String) (contended : Bool) :
    Tame (renewLeaseOf cfg modelId contended) :=
  readThenCall cfg (LeaseCall.renew modelId) contended fun _ _ hle => hle

theorem releaseLease (contended : Bool) : Tame (releaseLease cfg contended) := by
  intro box calling _
  exact ⟨.call cfg .release contended trivial, fun _ _ => trivial⟩

theorem acquireFor (job : HeldJob) (contended : Bool) : Tame (acquireFor cfg job contended) := by
  intro box reading _
  refine ⟨.quiet (GpuBox.quiet_of_same rfl rfl rfl), ?_⟩
  intro calling hcalling
  exact ⟨.admission cfg _ _ _ contended (GpuBox.later_of_steps hcalling), fun _ _ => trivial⟩

theorem onCache (set : ModelCache → ModelCache) : Tame (onCache cfg set) := writeWorker cfg _

theorem dropCache (contended : Bool) : Tame (dropCache cfg contended) := by
  apply (readWorker cfg _).bind
  intro handle
  split
  · exact (onCache cfg _).bind fun _ => releaseLease cfg contended
  · exact ret ()

theorem requireModel (modelId : String) (env : LoadEnv) : Tame (requireModel cfg modelId env) := by
  apply (onCache cfg _).bind
  intro _
  apply (readWorker cfg _).bind
  intro cache
  split
  · exact ret _
  split
  · exact ret _
  apply (acquireLease cfg modelId _).bind
  intro granted
  split
  · exact ret _
  apply (dropCache cfg _).bind
  intro _
  split
  · exact ret _
  split
  · exact ret _
  · exact (onCache cfg _).bind fun _ => ret _

theorem reapIdleOnce (monotonic : ℚ) (contended : Bool) :
    Tame (reapIdleOnce cfg monotonic contended) := by
  apply (readWorker cfg _).bind
  intro cache
  split
  · exact (dropCache cfg contended).bind fun _ => ret _
  · exact ret _

theorem claim (probe : ClaimProbe) : Tame (claim cfg probe) := by
  apply (onSwitch cfg _).bind
  intro blocked
  split
  · exact ret _
  apply (readWorker cfg _).bind
  intro paused
  split
  · exact ret _
  apply (readWorker cfg _).bind
  intro currentModel
  split
  · exact ret _
  · exact onDb _

theorem claimPool (probe : ClaimProbe) : Tame (claimPool cfg probe) := by
  apply (onSwitch cfg _).bind
  intro blocked
  apply (readWorker cfg _).bind
  intro paused
  split
  · exact ret _
  apply (readWorker cfg _).bind
  intro held
  dsimp only
  split
  · apply (read _).bind
    intro queued
    split
    · exact ret _
    · exact onDb _
  · exact onDb _

theorem abandonSwitch (env : AbandonEnv) : Tame (abandonSwitch cfg env) := by
  apply (readWorker cfg _).bind
  intro state
  split
  · exact ret _
  · exact (onSwitch cfg _).bind fun _ => (releaseLease cfg _).bind fun _ => ret _

theorem llmStartsForbidden (gate : StartGate) : Tame (llmStartsForbidden cfg gate) := by
  apply (readWorker cfg _).bind
  intro held
  split
  · exact ret _
  split
  · exact ret _
  · exact read _

theorem abandonWarmIfBoxIsDying (env : DriveEnv) : Tame (abandonWarmIfBoxIsDying cfg env) := by
  apply (readWorker cfg _).bind
  intro switch
  split
  · exact (onSwitch cfg _).bind fun _ => ret _
  · exact ret _

theorem performActions (env : DriveEnv) (switch : ServerSwitch) (actions : List SwitchAction) :
    Tame (performActions cfg env switch actions) := by
  induction actions with
  | nil => exact ret _
  | cons action rest ih =>
    cases action with
    | startIncoming =>
      apply (readWorker cfg _).bind
      intro held
      split
      · exact (abandonSwitch cfg _).bind fun _ => ret _
      · split
        · exact (onSwitch cfg _).bind fun _ => ih.bind fun _ => ret _
        · exact (ret _).bind fun _ => ih.bind fun _ => ret _
    | unloadOutgoing | done | abort => exact ih

theorem holdBoxForSwitch (env : DriveEnv) : Tame (holdBoxForSwitch cfg env) := by
  apply (acquireLease cfg _ _).bind
  intro granted
  split
  · exact (renewLeaseOf cfg _ _).bind fun _ => ret _
  · exact ret _

theorem releaseIf (p : Prop) [Decidable p] (contended : Bool) :
    Tame (if p then BrokerParrot.releaseLease cfg contended else pure ()) := by
  split
  · exact releaseLease cfg contended
  · exact ret _

theorem tickServerSwitch (env : DriveEnv) : Tame (tickServerSwitch cfg env) := by
  apply (readWorker cfg _).bind
  intro switch
  apply (readWorker cfg _).bind
  intro inFlight
  apply (onSwitch cfg _).bind
  intro actions
  have hfollowups := (performActions cfg env switch actions).bind fun followups =>
    releaseIf cfg (.abort ∈ followups) env.releaseContended
  split
  · exact (releaseLease cfg _).bind fun _ => hfollowups
  · exact hfollowups

theorem driveServerSwitch (env : DriveEnv) : Tame (driveServerSwitch cfg env) := by
  apply (readWorker cfg _).bind
  intro state
  split
  · exact ret _
  apply (llmStartsForbidden cfg _).bind
  intro forbidden
  split
  · exact (abandonSwitch cfg _).bind fun _ => ret _
  apply (holdBoxForSwitch cfg env).bind
  intro _
  apply (abandonWarmIfBoxIsDying cfg env).bind
  intro dying
  split
  · exact ret _
  split
  · exact tickServerSwitch cfg env
  · exact ret _

theorem requestServerSwitch (target : String) (contextLength : Option ℤ) (resize : Bool)
    (gate : StartGate) (readings : Readings) :
    Tame (requestServerSwitch cfg target contextLength resize gate readings) := by
  apply (llmStartsForbidden cfg gate).bind
  intro forbidden
  split
  · exact ret _
  · exact onSwitch cfg _

theorem beginClusterHold (job : JobId) (purpose : String) (env : AbandonEnv) :
    Tame (beginClusterHold cfg job purpose env) :=
  (writeWorker cfg _).bind fun _ => (abandonSwitch cfg env).bind fun _ => ret _

theorem clusterHoldTick (job : JobId) (env : AbandonEnv) : Tame (clusterHoldTick cfg job env) := by
  apply (readWorker cfg _).bind
  intro held
  split
  · exact (abandonSwitch cfg env).bind fun _ => ret _
  · exact ret _

theorem acquireBoxOrSpill (job : HeldJob) (contended : Bool) (clock : ℚ) :
    Tame (acquireBoxOrSpill cfg job contended clock) := by
  apply (acquireFor cfg job contended).bind
  intro granted
  split
  · exact (writeWorker cfg _).bind fun _ => ret _
  · exact (writeWorker cfg _).bind fun _ => (onDb _).bind fun _ => ret _

theorem acquireBoxForReservation (job : HeldJob) (deadline : ℚ) (rounds : List ReservationRound) :
    Tame (acquireBoxForReservation cfg job deadline rounds) := by
  induction rounds with
  | nil => exact hang
  | cons round rest ih =>
    apply (acquireFor cfg job _).bind
    intro granted
    split
    · exact (writeWorker cfg _).bind fun _ => ret _
    split
    · exact ret _
    apply (clusterHoldTick cfg _ _).bind
    intro _
    split
    · exact ret _
    · exact ih

theorem shedIfBoxIsDying (env : TickEnv) : Tame (shedIfBoxIsDying cfg env) := by
  unfold BrokerParrot.shedIfBoxIsDying
  split
  · apply (readWorker cfg _).bind
    intro state
    split
    · exact onSwitch cfg _
    · exact ret _
  · exact ret _

theorem maybeRequestContextSwitch (env : TickEnv) : Tame (maybeRequestContextSwitch cfg env) := by
  apply (readWorker cfg _).bind
  intro state
  split
  · exact (requestServerSwitch cfg _ _ _ _ _).bind fun _ => ret _
  · exact ret _

theorem boxLeaseTick (env : TickEnv) : Tame (boxLeaseTick cfg env) := by
  apply (shedIfBoxIsDying cfg env).bind
  intro _
  apply (driveServerSwitch cfg _).bind
  intro _
  apply (maybeRequestContextSwitch cfg env).bind
  intro _
  apply (onSwitch cfg _).bind
  intro blocked
  split
  · exact ret _
  apply (readWorker cfg _).bind
  intro held
  split
  · exact ret _
  apply (readWorker cfg _).bind
  intro active
  apply (readWorker cfg _).bind
  intro resident
  split
  · exact (renewLeaseOf cfg _ _).bind fun _ => ret _
  · exact (releaseLease cfg _).bind fun _ => writeWorker cfg _

theorem boxJobDone (job : JobId) : Tame (boxJobDone cfg job) :=
  write fun box => GpuBox.quiet_finish cfg job box _

theorem executeNode (cache : Bool) (job : HeldJob) (env : NodeEnv) :
    Tame (executeNode cfg cache job env) := by
  apply (write fun box => GpuBox.quiet_start cfg job.id box).bind
  intro _
  split
  · exact onDb _
  split
  · apply (requireModel cfg _ _).bind
    intro loaded
    split
    · exact onDb _
    · exact onDb _
  · exact onDb _

theorem runNode (job : HeldJob) (env : NodeEnv) : Tame (runNode cfg job env) := by
  unfold BrokerParrot.runNode
  split
  · exact (onDb _).bind fun _ => ret _
  apply (acquireBoxOrSpill cfg job _ _).bind
  intro granted
  split
  · exact ret _
  exact (onCache cfg _).bind fun _ => (executeNode cfg true job env).bind fun _ =>
    (onCache cfg _).bind fun _ => (boxJobDone cfg job.id).bind fun _ => ret _

theorem admitPoolNode (job : HeldJob) (env : NodeEnv) : Tame (admitPoolNode cfg job env) := by
  unfold BrokerParrot.admitPoolNode
  split
  · apply (beginClusterHold cfg _ _ _).bind
    intro _
    apply (acquireBoxForReservation cfg job _ _).bind
    intro granted
    split
    · exact ret _
    · exact (writeWorker cfg _).bind fun _ => (onDb _).bind fun _ => ret _
  · exact acquireBoxOrSpill cfg job _ _

theorem endHoldOf (job : HeldJob) : Tame (endHoldOf cfg job) := by
  unfold BrokerParrot.endHoldOf
  split
  · exact writeWorker cfg _
  · exact ret _

theorem runPoolNode (job : HeldJob) (env : NodeEnv) : Tame (runPoolNode cfg job env) := by
  apply (admitPoolNode cfg job env).bind
  intro granted
  split
  · exact ret _
  split
  · exact (boxJobDone cfg job.id).bind fun _ => (endHoldOf cfg job).bind fun _ =>
      (onDb _).bind fun _ => ret _
  · exact (executeNode cfg false job env).bind fun _ => (boxJobDone cfg job.id).bind fun _ =>
      (endHoldOf cfg job).bind fun _ => ret _

theorem runOnce (probe : ClaimProbe) (env : HeldJob → NodeEnv) :
    Tame (runOnce cfg probe env) := by
  apply (execWorker cfg _).bind
  intro reserved
  split
  · exact ret _
  apply (claim cfg probe).bind
  intro job
  split
  · exact (ret _).bind fun _ => (writeWorker cfg _).bind fun _ => ret _
  · exact (runNode cfg _ _).bind fun _ => (writeWorker cfg _).bind fun _ => ret _

theorem feedPool (probe : ClaimProbe) (env : HeldJob → NodeEnv) :
    Tame (feedPool cfg probe env) := by
  apply (execWorker cfg _).bind
  intro reserved
  split
  · exact ret _
  apply (claimPool cfg probe).bind
  intro job
  split
  · exact (ret _).bind fun _ => (writeWorker cfg _).bind fun _ => ret _
  · exact (runPoolNode cfg _ _).bind fun _ => (writeWorker cfg _).bind fun _ => ret _

theorem workerCall (call : WorkerCall) : Tame (call.prog cfg) := by
  cases call with
  | runOnce probe env => exact (runOnce cfg probe env).bind fun _ => ret _
  | feedPool probe env => exact (feedPool cfg probe env).bind fun _ => ret _
  | boxLeaseTick env => exact boxLeaseTick cfg env
  | driveServerSwitch env => exact driveServerSwitch cfg env
  | requestServerSwitch => exact (requestServerSwitch cfg _ _ _ _ _).bind fun _ => ret _
  | clusterHoldTick job env => exact clusterHoldTick cfg job env
  | abandonSwitch env => exact (abandonSwitch cfg env).bind fun _ => ret _
  | requireModel modelId env => exact (requireModel cfg modelId env).bind fun _ => ret _
  | dropCache contended => exact dropCache cfg contended
  | reapIdleOnce monotonic contended =>
    exact (reapIdleOnce cfg monotonic contended).bind fun _ => ret _
  | acquireLease modelId contended =>
    exact (acquireLease cfg modelId contended).bind fun _ => ret _
  | renewLease modelId contended =>
    exact (renewLeaseOf cfg modelId contended).bind fun _ => ret _
  | releaseLease contended => exact releaseLease cfg contended

end Tame

/-! ### The invariant -/

namespace GpuBox

/-- The job that the step has let onto the card. -/
def newJob (before after : GpuBox) : Option Admission :=
  if after.admitted.length = before.admitted.length + 1 then after.admitted.head? else none

/-- The latest grant of the job's process has not expired, and is for the job's slot or for the
switch. -/
def Covered (box : GpuBox) (job : Admission) : Prop :=
  ∃ grant ∈ box.lease.granted job.holder, box.now < grant.expiry ∧
    (grant.modelId = job.slot ∨ grant.modelId = switchSlot)

instance (box : GpuBox) (job : Admission) : Decidable (box.Covered job) :=
  decidable_of_iff ((box.lease.granted job.holder).any fun grant =>
    box.now < grant.expiry ∧ (grant.modelId = job.slot ∨ grant.modelId = switchSlot))
    (by simp [Covered, Option.any_eq_true])

/-- The job can join those on the card: it is not for the switch, the others of its process are for
the same slot, and those of other processes are covered. -/
def MayJoin (box : GpuBox) (job : Admission) : Prop :=
  job.slot ≠ switchSlot ∧ ∀ other ∈ box.admitted,
    if other.holder = job.holder then other.slot = job.slot else box.Covered other

instance (box : GpuBox) (job : Admission) : Decidable (box.MayJoin job) :=
  inferInstanceAs (Decidable (_ ∧ _))

def Careful (before after : GpuBox) : Prop := ∀ job ∈ before.newJob after, before.MayJoin job

instance (before after : GpuBox) : Decidable (before.Careful after) :=
  inferInstanceAs (Decidable (∀ job ∈ before.newJob after, before.MayJoin job))

structure Orderly (box : GpuBox) : Prop where
  backed : box.lease.Backed box.now
  agree : ∀ job ∈ box.admitted, ∀ other ∈ box.admitted, job.slot = other.slot

variable {cfg : GpuWorkerConfig} {contended : Bool} {slot : String} {job : JobId} {now : ℚ}
  {box : GpuBox}

/-- Another process that still holds the lease holds it for what was granted. -/
theorem modelId_of_granted (hbacked : before.lease.Backed before.now) (hnow : now ≤ before.now)
    (hgranted : before.granted cfg contended (.acquire slot now) = true) {holder : String}
    {grant : Grant} (hne : holder ≠ cfg.holder) (hgrant : before.lease.granted holder = some grant)
    (hlive : before.now < grant.expiry) : grant.modelId = slot := by
  have hbacks := hbacked holder grant hgrant hlive
  cases contended with
  | true => cases hgranted
  | false =>
    have hkept : (before.lease.body.state.decide slot cfg.holder now cfg.ttlS).2.Backs holder
        grant := hbacks.decide_of_ne (lt_of_le_of_lt hnow hlive) hne
    exact Option.some.inj (hkept.1.symm.trans (LeaseState.backs_of_decide_granted hgranted).1)

theorem admitJob_of_denied (hdenied : before.granted cfg contended (.acquire slot now) ≠ true) :
    (before.admitJob cfg job slot now contended).1 =
      (before.callLease cfg (.acquire slot now) contended).1 :=
  if_neg hdenied

theorem admitJob_of_granted (hgranted : before.granted cfg contended (.acquire slot now) = true) :
    (before.admitJob cfg job slot now contended).1 =
      { (before.callLease cfg (.acquire slot now) contended).1 with
        admitted := ⟨cfg.holder, job, slot, false⟩ :: before.admitted } :=
  if_pos hgranted

variable (horderly : before.Orderly)

include horderly

theorem Orderly.quiet (hquiet : before.Quiet after) : after.Orderly := by
  obtain ⟨hlease, hnow, hadmitted⟩ := hquiet
  refine ⟨?_, ?_⟩
  · rw [hlease, hnow]
    exact horderly.backed
  · intro job hjob other hother
    obtain ⟨oldJob, hold, -, hslot⟩ := hadmitted job hjob
    obtain ⟨oldOther, hothers, -, hotherSlot⟩ := hadmitted other hother
    rw [← hslot, ← hotherSlot]
    exact horderly.agree oldJob hold oldOther hothers

theorem Orderly.call {call : LeaseCall}
    (htimely : (LeaseEvent.mk cfg.holder call contended before.now).Timely) :
    (before.callLease cfg call contended).1.Orderly :=
  ⟨horderly.backed.step le_rfl htimely, horderly.agree⟩

theorem Orderly.same_slot (hnow : now ≤ before.now)
    (hgranted : before.granted cfg contended (.acquire slot now) = true)
    (hjoin : before.MayJoin ⟨cfg.holder, job, slot, false⟩) :
    ∀ old ∈ before.admitted, old.slot = slot := by
  intro old hold
  have hrule := hjoin.2 old hold
  split at hrule
  · exact hrule
  · rename_i hother
    obtain ⟨grant, hgrant, hlive, hfor⟩ := hrule
    have hmodel := modelId_of_granted horderly.backed hnow hgranted hother hgrant hlive
    rcases hfor with hfor | hswitch
    · exact hfor.symm.trans hmodel
    · exact absurd (hmodel.symm.trans hswitch) hjoin.1

theorem Orderly.admission (hnow : now ≤ before.now)
    (hcareful : before.Careful (before.admitJob cfg job slot now contended).1) :
    (before.admitJob cfg job slot now contended).1.Orderly := by
  by_cases hgranted : before.granted cfg contended (.acquire slot now) = true
  · rw [admitJob_of_granted hgranted] at hcareful ⊢
    have hjoin : before.MayJoin ⟨cfg.holder, job, slot, false⟩ :=
      hcareful _ (by simp [newJob])
    have hslots : ∀ on ∈ (⟨cfg.holder, job, slot, false⟩ : Admission) :: before.admitted,
        on.slot = slot :=
      List.forall_mem_cons.mpr ⟨rfl, horderly.same_slot hnow hgranted hjoin⟩
    have hcalled : (before.callLease cfg (.acquire slot now) contended).1.Orderly :=
      horderly.call hnow
    refine ⟨hcalled.backed, fun first hfirst second hsecond => ?_⟩
    rw [hslots first hfirst, hslots second hsecond]
  · rw [admitJob_of_denied hgranted]
    exact horderly.call hnow

theorem Orderly.effect (heffect : before.Effect after) (hcareful : before.Careful after) :
    after.Orderly := by
  cases heffect with
  | quiet hquiet => exact horderly.quiet hquiet
  | call cfg call contended htimely => exact horderly.call htimely
  | admission cfg job slot now contended hnow => exact horderly.admission hnow hcareful

theorem Orderly.outside (hlease : after.lease = before.lease)
    (hadmitted : after.admitted = before.admitted) (hlater : before.Later after) :
    after.Orderly := by
  refine ⟨?_, ?_⟩
  · rw [hlease]
    exact horderly.backed.mono hlater
  · rw [hadmitted]
    exact horderly.agree

end GpuBox

/-! ### Runs -/

namespace GpuFleet

def opened (db : Db) (body : LeaseBody) (now : ℚ) (workers : String → GpuWorker) : GpuFleet :=
  { shared := { db := db, lease := LeaseBox.opened body, now := now, workers := workers } }

def CarefulRun : GpuFleet → List FleetAction → Prop
  | _, [] => True
  | fleet, action :: rest =>
    fleet.shared.Careful (fleet.act action).shared ∧ CarefulRun (fleet.act action) rest

instance decidableCarefulRun :
    (fleet : GpuFleet) → (history : List FleetAction) → Decidable (fleet.CarefulRun history)
  | _, [] => isTrue trivial
  | fleet, action :: rest =>
    have := decidableCarefulRun (fleet.act action) rest
    inferInstanceAs (Decidable (_ ∧ _))

structure Sound (fleet : GpuFleet) : Prop where
  tame : fleet.Safe GpuBox.Later GpuBox.Effect fun _ _ _ => True
  orderly : fleet.shared.Orderly

theorem Sound.act {fleet : GpuFleet} (hsound : fleet.Sound) (action : FleetAction)
    (hcareful : fleet.shared.Careful (fleet.act action).shared) : (fleet.act action).Sound := by
  cases action with
  | call cfg call =>
    exact ⟨hsound.tame.spawn (Tame.workerCall cfg call fleet.shared), hsound.orderly⟩
  | advance index =>
    have hstep := hsound.tame.advance_shared index
    refine ⟨hsound.tame.advance index fun heffect => heffect.now_eq.ge, ?_⟩
    rcases hstep with heffect | hsame
    · exact hsound.orderly.effect heffect hcareful
    · have hshared : (fleet.act (.advance index)).shared = fleet.shared := hsame
      rw [hshared]
      exact hsound.orderly
  | queue =>
    refine ⟨hsound.tame.outside le_rfl, ?_⟩
    exact hsound.orderly.outside rfl rfl le_rfl
  | passTime seconds =>
    have hlater : fleet.shared.now ≤ fleet.shared.now + max 0 seconds := by
      have hnonneg : 0 ≤ max 0 seconds := le_max_left 0 seconds
      linarith
    refine ⟨hsound.tame.outside hlater, ?_⟩
    exact hsound.orderly.outside rfl rfl hlater

theorem sound_run {fleet : GpuFleet} (hsound : fleet.Sound) {history : List FleetAction}
    (hcareful : fleet.CarefulRun history) : (fleet.run history).Sound := by
  induction history generalizing fleet with
  | nil => exact hsound
  | cons action rest ih => exact ih (hsound.act action hcareful.1) hcareful.2

theorem sound_opened (db : Db) (body : LeaseBody) (now : ℚ) (workers : String → GpuWorker) :
    (opened db body now workers).Sound := by
  refine ⟨fun thread hmem => absurd hmem (by simp [opened]), ?_, ?_⟩
  · exact LeaseBox.backed_opened body now
  · exact fun job hmem => absurd hmem (by simp [opened])

/-- **One slot per card.** As long as a job is only ever let onto the card beside jobs of its own
process with its slot and covered jobs of others, all jobs there were admitted for one slot. -/
theorem jobs_share_slot (db : Db) (body : LeaseBody) (now : ℚ) (workers : String → GpuWorker)
    (history : List FleetAction) (hcareful : (opened db body now workers).CarefulRun history) :
    ∀ job ∈ ((opened db body now workers).run history).shared.admitted,
      ∀ other ∈ ((opened db body now workers).run history).shared.admitted,
        job.slot = other.slot :=
  (sound_run (sound_opened db body now workers) hcareful).orderly.agree

/-- Two processes run a job of one model each, and one of them renews while both run. -/
theorem jobs_share_slot_pair :
    let r : Readings := ⟨0, fun _ => 0, true⟩
    let row (node : String) : NodeJob :=
      { runId := "r", nodeId := node, nodeModule := "render", queue := .gpu,
        requiredModel := some "image", project := "", status := .queued, createdAt := 0 }
    let db : Db :=
      { jobs := (Table.empty.append (row "x")).append (row "y"),
        runs := OrdDict.empty.insert "r" { workflowName := "w", status := .running } }
    let cfg (name : String) : GpuWorkerConfig := { holder := name, host := name }
    let node : NodeEnv :=
      { finish := .clock 0, loadFailed := .clock 0, holdAbandon := ⟨r, false⟩ }
    let lane (name : String) : FleetAction :=
      .call (cfg name) (.runOnce { readings := r, clock := 0 } fun _ => node)
    let history : List FleetAction :=
      lane "a" :: List.replicate 10 (.advance 0) ++ lane "b" :: List.replicate 10 (.advance 1) ++
        [.passTime 100, .call (cfg "a") (.renewLease "image" false), .advance 2, .advance 2]
    let admitted := ((opened db .blank 0 fun _ => {}).run history).shared.admitted
    (admitted.filter Admission.executing).length = 2 ∧
      ∀ job ∈ admitted, ∀ other ∈ admitted, job.slot = other.slot := by
  intro r row db cfg node lane history admitted
  have hcareful : (opened db .blank 0 fun _ => {}).CarefulRun history := by decide +kernel
  have hrunning : (admitted.filter Admission.executing).length = 2 := by decide +kernel
  exact ⟨hrunning, jobs_share_slot db .blank 0 (fun _ => {}) history hcareful⟩

/-- The two lanes of one worker: while the inline lane runs a model, the pool lane is granted the
card for the LLM server, since the only live holder is the worker itself. -/
theorem lanes_split_card :
    let r : Readings := ⟨0, fun _ => 0, true⟩
    let render : NodeJob :=
      { runId := "r", nodeId := "x", nodeModule := "render", queue := .gpu,
        requiredModel := some "image", project := "", status := .queued, createdAt := 0 }
    let chat : NodeJob :=
      { runId := "r", nodeId := "y", nodeModule := "llm_chat", queue := .gpu, project := "",
        status := .queued, createdAt := 0 }
    let db : Db :=
      { jobs := (Table.empty.append render).append chat,
        runs := OrdDict.empty.insert "r" { workflowName := "w", status := .running } }
    let cfg : GpuWorkerConfig := { holder := "a", host := "a", poolModules := ["llm_chat"] }
    let node : NodeEnv :=
      { finish := .clock 0, loadFailed := .clock 0, holdAbandon := ⟨r, false⟩ }
    let probe : ClaimProbe := { readings := r, clock := 0, parallelism := 2 }
    let history : List FleetAction :=
      .call cfg (.runOnce probe fun _ => node) :: List.replicate 10 (.advance 0) ++
        .call cfg (.feedPool probe fun _ => node) :: List.replicate 9 (.advance 1)
    let fleet := (opened db .blank 0 fun _ => {}).run history
    ∃ job ∈ fleet.shared.admitted, ∃ other ∈ fleet.shared.admitted,
      job.executing = true ∧ other.executing = true ∧ job.slot = "image" ∧
        other.slot = llmServerSlot := by
  intro r render chat db cfg node probe history fleet
  decide +kernel

end GpuFleet

end BrokerParrot
