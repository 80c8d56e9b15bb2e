import BrokerParrot.GpuBox
import BrokerParrot.Proof.OneModelPerBox

/-!
# What a warm cache holds

A load acquires the box for the new model and then drops the old one, which releases the same
holder. So a load that replaces a warm model returns with the box given away, unless the release did
not get the lock.

Two facts about the lease file survive their calls: the entry of this process is good for the model,
or no entry of it is good.
-/

namespace BrokerParrot

open Prog

def LeaseCall.ReadsAt (time : ℚ) : LeaseCall → Prop
  | .acquire _ now => now = time
  | .renew _ now => now = time
  | .release => True

namespace GpuBox

def OthersCall (cfg : GpuWorkerConfig) (before after : GpuBox) : Prop :=
  ∃ (other : GpuWorkerConfig) (call : LeaseCall) (contended : Bool),
    other.holder ≠ cfg.holder ∧ call.ReadsAt before.now ∧
      after = (before.callLease other call contended).1

def Records (box : GpuBox) (cfg : GpuWorkerConfig) (modelId : String) : Prop :=
  box.lease.body.state.model = some modelId ∧
    ∃ expiry, box.lease.body.state.holders.get? cfg.holder = some expiry ∧ box.now < expiry

structure Standing (cfg : GpuWorkerConfig) (modelId : String) (now : ℚ) (box : GpuBox) : Prop where
  now_eq : box.now = now
  backs : 0 < cfg.ttlS → box.lease.body.state.Backs cfg.holder ⟨modelId, now + cfg.ttlS⟩
  expired : ¬ 0 < cfg.ttlS → ∀ expiry, box.lease.body.state.holders.get? cfg.holder = some expiry →
    expiry ≤ now

structure Fallen (cfg : GpuWorkerConfig) (now : ℚ) (box : GpuBox) : Prop where
  now_eq : box.now = now
  expired : ∀ expiry, box.lease.body.state.holders.get? cfg.holder = some expiry → expiry ≤ now

variable {cfg : GpuWorkerConfig} {modelId : String} {now : ℚ} {box after : GpuBox} {kept : Prop}
  {handle : Option Value} {contended : Bool}

theorem Standing.records_iff (hstanding : box.Standing cfg modelId now) :
    box.Records cfg modelId ↔ 0 < cfg.ttlS := by
  constructor
  · rintro ⟨-, expiry, hentry, hlive⟩
    by_contra hdead
    rw [hstanding.now_eq] at hlive
    exact absurd (hstanding.expired hdead expiry hentry) (not_le.mpr hlive)
  · intro hpos
    obtain ⟨hmodel, hentry⟩ := hstanding.backs hpos
    refine ⟨hmodel, now + cfg.ttlS, hentry, ?_⟩
    rw [hstanding.now_eq]
    linarith

theorem Fallen.not_records (hfallen : box.Fallen cfg now) : ¬ box.Records cfg modelId := by
  rintro ⟨-, expiry, hentry, hlive⟩
  rw [hfallen.now_eq] at hlive
  exact absurd (hfallen.expired expiry hentry) (not_le.mpr hlive)

/-! ### The others -/

theorem state_callLease (other : GpuWorkerConfig) (call : LeaseCall) (contended : Bool) :
    (box.callLease other call contended).1.lease.body.state =
      if contended then
        box.lease.body.state
      else
        (other.lease.txn call box.lease.body.state).2 :=
  LeaseBox.state_step other.ttlS box.lease ⟨other.holder, call, contended, box.now⟩

theorem worker_of_othersCall (hothers : OthersCall cfg box after) :
    after.worker cfg = box.worker cfg := by
  obtain ⟨other, call, contended, -, -, rfl⟩ := hothers
  rfl

theorem timely_of_readsAt {call : LeaseCall} (hreads : call.ReadsAt box.now) (holder : String)
    (contended : Bool) : (LeaseEvent.mk holder call contended box.now).Timely := by
  cases call with
  | acquire | renew => exact le_of_eq hreads
  | release => trivial

theorem get?_of_othersCall (hothers : OthersCall cfg box after) {expiry : ℚ}
    (hentry : after.lease.body.state.holders.get? cfg.holder = some expiry) :
    box.lease.body.state.holders.get? cfg.holder = some expiry := by
  obtain ⟨other, call, contended, hne, -, rfl⟩ := hothers
  rw [state_callLease] at hentry
  cases contended with
  | true => exact hentry
  | false => exact LeaseState.get?_of_txn other.lease call (Ne.symm hne) hentry

theorem stable_standing :
    Stable (OthersCall cfg) (GpuBox.Standing cfg modelId now) := by
  intro box after hothers hstanding
  have hexpired hdead expiry hentry :=
    hstanding.expired hdead expiry (get?_of_othersCall hothers hentry)
  obtain ⟨other, call, contended, hne, hreads, rfl⟩ := hothers
  refine ⟨hstanding.now_eq, fun hpos => ?_, hexpired⟩
  rw [state_callLease]
  cases contended with
  | true => exact hstanding.backs hpos
  | false =>
    apply (hstanding.backs hpos).txn_of_ne other.lease
      (timely_of_readsAt hreads other.holder false) (Ne.symm hne)
    rw [hstanding.now_eq]
    linarith

theorem stable_fallen : Stable (OthersCall cfg) (GpuBox.Fallen cfg now) := by
  intro box after hothers hfallen
  refine ⟨?_, fun expiry hentry => hfallen.expired expiry (get?_of_othersCall hothers hentry)⟩
  obtain ⟨other, call, contended, -, -, rfl⟩ := hothers
  exact hfallen.now_eq

theorem stable_worker (worker : GpuWorker) :
    Stable (OthersCall cfg) fun box => box.worker cfg = worker := by
  intro box after hothers hworker
  rw [worker_of_othersCall hothers, hworker]

theorem stable_now (time : ℚ) : Stable (OthersCall cfg) fun box => box.now = time := by
  rintro box after ⟨other, call, contended, -, -, rfl⟩ hnow
  exact hnow

/-! ### The load -/

theorem standing_acquire
    (hgranted : (box.callLease cfg (.acquire modelId box.now) false).2 = true) :
    (box.callLease cfg (.acquire modelId box.now) false).1.Standing cfg modelId box.now := by
  have hbacks : (box.callLease cfg (.acquire modelId box.now) false).1.lease.body.state.Backs
      cfg.holder ⟨modelId, box.now + cfg.ttlS⟩ := by
    exact LeaseState.backs_of_decide_granted hgranted
  refine ⟨rfl, fun _ => hbacks, ?_⟩
  intro hdead expiry hentry
  obtain rfl := Option.mem_unique hbacks.2 hentry
  linarith

theorem Standing.release (hstanding : box.Standing cfg modelId now) :
    (box.callLease cfg .release false).1.Fallen cfg now := by
  refine ⟨hstanding.now_eq, ?_⟩
  intro expiry hentry
  change (box.lease.body.state.holders.erase cfg.holder).get? cfg.holder = some expiry at hentry
  rw [OrdDict.get?_erase_self] at hentry
  cases hentry

def Left (cfg : GpuWorkerConfig) (modelId : String) (now : ℚ) (kept : Prop) (box : GpuBox) :
    Prop :=
  (kept → box.Standing cfg modelId now) ∧ (¬ kept → box.Fallen cfg now)

theorem stable_left : Stable (OthersCall cfg) (Left cfg modelId now kept) := by
  intro box after hothers hleft
  exact ⟨fun hkept => stable_standing box after hothers (hleft.1 hkept),
    fun hkept => stable_fallen box after hothers (hleft.2 hkept)⟩

theorem Left.setWorker (hleft : Left cfg modelId now kept box) (worker : GpuWorker) :
    Left cfg modelId now kept (box.setWorker cfg worker) := by
  constructor
  · intro hkept
    obtain ⟨hnow, hbacks, hexpired⟩ := hleft.1 hkept
    exact ⟨hnow, hbacks, hexpired⟩
  · intro hkept
    obtain ⟨hnow, hexpired⟩ := hleft.2 hkept
    exact ⟨hnow, hexpired⟩

theorem Left.records_iff (hleft : Left cfg modelId now kept box) :
    box.Records cfg modelId ↔ 0 < cfg.ttlS ∧ kept := by
  by_cases hkept : kept
  · rw [(hleft.1 hkept).records_iff, and_iff_left hkept]
  · exact iff_of_false (hleft.2 hkept).not_records fun hboth => hkept hboth.2

theorem safe_dropCache (hhandle : (box.worker cfg).cache.currentHandle = handle)
    (hstanding : box.Standing cfg modelId now) :
    Safe (OthersCall cfg) (fun _ _ => True)
      (onReturn fun _ => Left cfg modelId now (handle = none ∨ contended = true))
      (dropCache cfg contended) box := by
  apply Safe.read_bind
  intro start hbefore
  have hworker : start.worker cfg = box.worker cfg :=
    (stable_worker (box.worker cfg)).steps hbefore rfl
  have hstart : start.Standing cfg modelId now := stable_standing.steps hbefore hstanding
  refine ⟨trivial, ?_⟩
  beta_reduce
  rw [hworker, hhandle]
  cases handle with
  | none =>
    intro after hsteps
    exact ⟨fun _ => stable_standing.steps hsteps hstart, fun hnone => absurd (Or.inl rfl) hnone⟩
  | some =>
    -- The handle is dropped, and then the box.
    intro dropping hdropping
    refine ⟨trivial, ?_⟩
    intro releasing hreleasing
    refine ⟨trivial, ?_⟩
    have hdropped : releasing.Standing cfg modelId now := by
      have hstanding : dropping.Standing cfg modelId now := stable_standing.steps hdropping hstart
      exact stable_standing.steps hreleasing
        ⟨hstanding.now_eq, hstanding.backs, hstanding.expired⟩
    intro after hsteps
    cases contended with
    | true =>
      refine ⟨fun _ => stable_standing.steps hsteps ?_, fun hlost => absurd (Or.inr rfl) hlost⟩
      exact ⟨hdropped.now_eq, hdropped.backs, hdropped.expired⟩
    | false =>
      refine ⟨fun hkept => absurd hkept (by simp), fun _ => ?_⟩
      exact stable_fallen.steps hsteps hdropped.release

theorem safe_acquireLease (hhandle : (box.worker cfg).cache.currentHandle = handle) :
    Safe (OthersCall cfg) (fun _ _ => True)
      (onReturn fun granted after => granted = true →
        (after.worker cfg).cache.currentHandle = handle ∧ after.Standing cfg modelId box.now)
      (acquireLease cfg modelId contended) box := by
  apply Safe.read_bind
  intro reading hreading
  refine ⟨trivial, ?_⟩
  intro calling hcalling
  refine ⟨trivial, ?_⟩
  intro after hsteps hgranted
  have hnow : reading.now = box.now := (stable_now box.now).steps hreading rfl
  have hsame : calling.now = reading.now := (stable_now reading.now).steps hcalling rfl
  have hworker : calling.worker cfg = box.worker cfg := by
    rw [(stable_worker _).steps hcalling rfl, (stable_worker _).steps hreading rfl]
  rw [← hsame] at hgranted hsteps
  cases contended with
  | true => exact absurd hgranted Bool.false_ne_true
  | false =>
    refine ⟨?_, ?_⟩
    · rw [(stable_worker _).steps hsteps rfl]
      exact (congrArg (fun worker => worker.cache.currentHandle) hworker).trans hhandle
    · rw [← hnow, ← hsame]
      exact stable_standing.steps hsteps (standing_acquire hgranted)

theorem safe_requireModel (env : LoadEnv) (box : GpuBox) :
    Safe (OthersCall cfg) (fun _ _ => True)
      (onReturn fun outcome after => ∀ served, outcome = .ok served → served.loaded = true →
        (after.Records cfg modelId ↔ 0 < cfg.ttlS ∧
          ((box.worker cfg).cache.currentHandle = none ∨ env.releaseContended = true)))
      (requireModel cfg modelId env) box := by
  unfold requireModel onCache writeWorker readWorker
  apply Safe.write_bind
  intro touched htouched
  refine ⟨trivial, Safe.read_bind ?_⟩
  intro start hbefore
  refine ⟨trivial, ?_⟩
  have hcache : (start.worker cfg).cache.currentHandle = (box.worker cfg).cache.currentHandle := by
    rw [(stable_worker _).steps hbefore rfl, worker_setWorker,
      (stable_worker (box.worker cfg)).steps htouched rfl]
  beta_reduce
  split
  · -- A cache hit loads nothing.
    rintro after - served hserved hloaded
    obtain rfl : _ = served := Except.ok.inj hserved
    cases hloaded
  split
  · rintro after - served hserved
    cases hserved
  apply (safe_acquireLease hcache).andThen
  intro granted acquired hacquired
  split
  · rintro after - served hserved
    cases hserved
  rename_i hgranted
  obtain ⟨hhandle, hstanding⟩ := hacquired (by simpa using hgranted)
  apply (safe_dropCache hhandle hstanding).andThen
  intro _ dropped hleft
  split
  · rintro after - served hserved
    cases hserved
  split
  · rintro after - served hserved
    cases hserved
  apply Safe.write_bind
  intro loading hloading
  refine ⟨trivial, ?_⟩
  intro after hsteps served _ _
  exact (stable_left.steps hsteps ((stable_left.steps hloading hleft).setWorker _)).records_iff

/-- **What a load leaves.** A load that returns what it loaded leaves this process recorded as a
live holder exactly if the time to live is positive and either nothing was warm or the release of
what was warm did not get the lock. -/
theorem load_records_iff (cfg : GpuWorkerConfig) (modelId : String) (env : LoadEnv)
    (box after : GpuBox) (served : Served)
    (hends : Prog.Ends (OthersCall cfg) (requireModel cfg modelId env) box (.ok (.ok served)) after)
    (hloaded : served.loaded = true) :
    after.Records cfg modelId ↔ 0 < cfg.ttlS ∧
      ((box.worker cfg).cache.currentHandle = none ∨ env.releaseContended = true) :=
  (safe_requireModel env box).of_ends hends served rfl hloaded

/-- A first load holds the box. -/
theorem load_records_first :
    let cfg : GpuWorkerConfig := { holder := "a", host := "a" }
    ∃ after, Prog.Ends (OthersCall cfg) (requireModel cfg "image" {}) {}
        (.ok (.ok ⟨some .null, true⟩)) after ∧ after.Records cfg "image" := by
  intro cfg
  refine ⟨_, ends_of_alone rfl, ?_⟩
  apply (load_records_iff cfg "image" {} {} _ _ (ends_of_alone rfl) rfl).mpr
  exact ⟨by norm_num [cfg], Or.inl rfl⟩

/-- A worker that loads one model and then another, with nobody else on the box, has the second one
warm and is no holder of the box. -/
theorem swap_gives_box_away :
    let cfg : GpuWorkerConfig := { holder := "a", host := "a" }
    let swap : BoxProg (Except CacheError Served) := do
      let _ ← requireModel cfg "image" {}
      requireModel cfg "video" {}
    ∃ served after, Prog.Ends (OthersCall cfg) swap {} (.ok (.ok served)) after ∧
      served.loaded = true ∧ (after.worker cfg).cache.currentModel = some "video" ∧
      ¬ after.Records cfg "video" := by
  intro cfg swap
  let check (outcome : Except Empty (Except CacheError Served) × GpuBox) : Bool :=
    (outcome.1.toOption.bind Except.toOption).any fun served =>
      served.loaded && decide ((outcome.2.worker cfg).cache.currentModel = some "video") &&
        decide (outcome.2.lease.body.state.model = none)
  have hrun : (swap.alone {}).any check = true := by decide +kernel
  obtain ⟨result, after, hends, hcheck⟩ : ∃ result after,
      Ends (OthersCall cfg) swap {} result after ∧ check (result, after) = true :=
    exists_ends_of_alone check hrun
  cases result with
  | error impossible => exact impossible.elim
  | ok loaded =>
    cases loaded with
    | error => cases hcheck
    | ok served =>
      obtain ⟨⟨hloaded, hwarm⟩, hvacant⟩ : (served.loaded = true ∧
          (after.worker cfg).cache.currentModel = some "video") ∧
          after.lease.body.state.model = none := by
        simpa [check, Except.toOption] using hcheck
      refine ⟨served, after, hends, hloaded, hwarm, ?_⟩
      rintro ⟨hmodel, -⟩
      cases hvacant.symm.trans hmodel

end GpuBox

end BrokerParrot
