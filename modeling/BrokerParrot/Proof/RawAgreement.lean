import BrokerParrot.Proof.RawResume
import BrokerParrot.Proof.SwitchEffects

/-!
# The two models of the switch agree

`RawSwitch` repeats the calls of `ServerSwitch` on entries as a file gives them. On entries as an
engine writes them no call raises, and each does and returns what it does there: the map `raw`
commutes with every call, and so with every run.
-/

namespace BrokerParrot

open OrdDict

variable {text : PyText} {cfg : SwitchConfig} {r : Readings} {host : SwitchHost}

namespace Hold

def raw (hold : Hold) : RawHold :=
  [("until_wall", .float (.finite hold.untilWall)), ("failures", .int hold.failures),
    ("reason", .str hold.reason), ("since_wall", .float (.finite hold.sinceWall))]

theorem untilWall_raw (hold : Hold) : hold.raw.untilWall text = .ok (.finite hold.untilWall) :=
  RawHold.untilWall_cons text hold.untilWall _

end Hold

namespace ServerSwitch

variable {sw : ServerSwitch}

def raw (sw : ServerSwitch) : RawSwitch :=
  { sw with quarantine := sw.quarantine.mapValues Hold.raw }

theorem get?_raw (key : String) :
    sw.raw.quarantine.get? key = (sw.quarantine.get? key).map Hold.raw :=
  get?_mapValues _ Hold.raw key

theorem prune_raw (wall : ℚ) :
    sw.raw.pruneQuarantine text cfg wall = .ok (sw.pruneQuarantine cfg wall).raw := by
  have hread : RawSwitch.Readable text sw.raw.quarantine := by
    intro key entry hget
    rw [get?_raw, Option.map_eq_some_iff] at hget
    obtain ⟨hold, -, rfl⟩ := hget
    exact ⟨_, hold.untilWall_raw⟩
  have hstale (hold : Hold) : hold.raw.Stale text (wall - cfg.quarantineMaxS) ↔
      hold.untilWall ≤ wall - cfg.quarantineMaxS := by
    rw [RawHold.stale_iff hold.untilWall_raw]
    exact decide_eq_true_iff
  have hholds := mapValues_filter sw.quarantine Hold.raw
    fun _ entry => !decide (entry.Stale text (wall - cfg.quarantineMaxS))
  simp only [hstale] at hholds
  rw [RawSwitch.prune_eq hread]
  exact congrArg (fun holds => Except.ok { sw.raw with quarantine := holds }) hholds.symm

theorem quarantinedLocked_raw (wall : ℚ) (key : String) :
    sw.raw.quarantinedLocked text wall key = .ok (sw.quarantinedLocked wall key) := by
  unfold RawSwitch.quarantinedLocked quarantinedLocked
  rw [get?_raw]
  cases sw.quarantine.get? key with
  | none => rfl
  | some hold =>
    change (hold.raw.untilWall text >>= _) = _
    rw [Hold.untilWall_raw]
    rfl

theorem failures_raw (key : String) :
    ((sw.raw.quarantine.get? key).getD []).failures text =
      .ok (failuresOf sw.quarantine key) := by
  rw [get?_raw]
  unfold failuresOf
  cases sw.quarantine.get? key with
  | none => rfl
  | some hold => exact RawHold.failures_cons text _ hold.failures _

theorem quarantineLocked_raw (wall : ℚ) (key reason : String) :
    sw.raw.quarantineLocked text cfg wall key reason =
      .ok (sw.quarantineLocked cfg wall key reason).raw := by
  have hpower (count : ℕ) : PyValue.powTwo (min (count : ℤ) 8) = .ok (2 ^ min count 8) := by
    have hrange : -PyFloat.limit < (count : ℤ) :=
      lt_of_lt_of_le (by decide +kernel) (Int.natCast_nonneg count)
    rw [RawSwitch.powTwo_min hrange, ← zpow_natCast, Nat.cast_min]
    rfl
  unfold RawSwitch.quarantineLocked
  rw [failures_raw]
  change (PyValue.powTwo (min (failuresOf sw.quarantine key : ℤ) 8) >>= _) = _
  rw [hpower]
  let hold := min (cfg.quarantineS * 2 ^ min (failuresOf sw.quarantine key) 8) cfg.quarantineMaxS
  have hinsert := mapValues_insert sw.quarantine Hold.raw key
    ⟨wall + hold, failuresOf sw.quarantine key + 1, (reason.take 300).toString, wall⟩
  exact congrArg (fun holds => Except.ok { sw.raw with quarantine := holds }) hinsert.symm

end ServerSwitch

namespace SwitchHost

variable {sw : RawSwitch} {α : Type}

def raw (result : SwitchHost × α) : RawSwitch × α := (result.1.switch.raw, result.2)

theorem ite_raw {p : Prop} [Decidable p] {left right : Except CastError (RawSwitch × α)}
    {yes no : SwitchHost × α} (hyes : left = .ok (raw yes)) (hno : right = .ok (raw no)) :
    (if p then left else right) = .ok (raw (if p then yes else no)) := by
  split
  · exact hyes
  · exact hno

theorem persist_raw (hsw : sw = host.switch.raw) :
    sw.persist text cfg r = .ok (host.persist cfg r).switch.raw := by
  subst hsw
  rw [persist_eq]
  unfold RawSwitch.persist
  split
  · exact ServerSwitch.prune_raw _
  · rfl

theorem persist_return_raw (value : α) (hsw : sw = host.switch.raw) :
    (do let after ← sw.persist text cfg r; return (after, value)) =
      .ok (raw (host.persist cfg r, value)) := by
  rw [persist_raw hsw]
  rfl

theorem abort_raw : host.switch.raw.abort text cfg r = .ok (raw (host.abort cfg r)) :=
  persist_return_raw _ rfl

theorem abortAndQuarantine_raw (reason : String) (hsw : sw = host.switch.raw) :
    sw.abortAndQuarantine text cfg r reason =
      .ok (raw (host.abortAndQuarantine cfg r reason)) := by
  subst hsw
  unfold RawSwitch.abortAndQuarantine abortAndQuarantine
  rw [show host.switch.raw.target = host.switch.target from rfl]
  cases host.switch.target with
  | none => exact abort_raw
  | some target =>
    refine ite_raw abort_raw ?_
    rw [ServerSwitch.quarantineLocked_raw]
    exact persist_return_raw _ rfl

theorem startWarming_raw :
    host.switch.raw.startWarming text cfg r = .ok (raw (host.startWarming cfg r)) :=
  persist_return_raw _ rfl

theorem complete_raw : host.switch.raw.complete text cfg r = .ok (raw (host.complete cfg r)) := by
  refine persist_return_raw _ ?_
  unfold SwitchState.released
  rw [show host.switch.raw.target = host.switch.target from rfl]
  cases host.switch.target with
  | none => rfl
  | some target =>
    dsimp only
    split
    · rfl
    · simp only [ServerSwitch.raw, SwitchState.cleared, mapValues_erase]

theorem tickDraining_raw (obs : Observations) :
    host.switch.raw.tickDraining text cfg r obs = .ok (raw (host.tickDraining cfg r obs)) :=
  ite_raw (ite_raw abort_raw rfl) (ite_raw startWarming_raw rfl)

theorem tickSwitching_raw (obs : Observations) :
    host.switch.raw.tickSwitching text cfg r obs = .ok (raw (host.tickSwitching cfg r obs)) :=
  ite_raw (ite_raw abort_raw (ite_raw rfl rfl)) startWarming_raw

theorem tickWarming_raw (obs : Observations) :
    host.switch.raw.tickWarming text cfg r obs = .ok (raw (host.tickWarming cfg r obs)) :=
  ite_raw complete_raw (ite_raw (abortAndQuarantine_raw _ rfl)
    (ite_raw (abortAndQuarantine_raw _ rfl) (ite_raw rfl (ite_raw rfl rfl))))

theorem tick_raw (obs : Observations) :
    host.switch.raw.tick text cfg r obs = .ok (raw (host.tick cfg r obs)) := by
  refine ite_raw rfl (ite_raw abort_raw ?_)
  rw [show host.switch.raw.state = host.switch.state from rfl]
  cases host.switch.state with
  | idle => rfl
  | draining => exact tickDraining_raw obs
  | switching => exact tickSwitching_raw obs
  | warming => exact tickWarming_raw obs

theorem request_raw (target : String) (contextLength : Option ℤ) (resize : Bool) :
    host.switch.raw.request text cfg r target contextLength resize =
      .ok (raw (host.request cfg r target contextLength resize)) := by
  refine ite_raw rfl (ite_raw rfl ?_)
  rw [ServerSwitch.prune_raw]
  change (RawSwitch.quarantinedLocked _ _ (ServerSwitch.raw _) _ >>= _) = _
  rw [ServerSwitch.quarantinedLocked_raw]
  refine ite_raw ?_ (persist_return_raw _ rfl)
  rw [ServerSwitch.failures_raw, ServerSwitch.get?_raw]
  cases OrdDict.get? _ (holdKey resize target) with
  | none => rfl
  | some hold =>
    rw [Option.map_some, Option.getD_some, hold.untilWall_raw]
    rfl

theorem reportStartOutcome_raw (value : LeverReturn) :
    host.switch.raw.reportStartOutcome text cfg r value =
      .ok (raw (host.reportStartOutcome cfg r value)) := by
  refine ite_raw rfl (ite_raw (abortAndQuarantine_raw _ rfl) (persist_return_raw _ ?_))
  unfold SwitchState.acknowledge
  rw [apply_ite ServerSwitch.raw, apply_ite ServerSwitch.raw]
  rfl

theorem blocksClaims_raw :
    host.switch.raw.blocksClaims text cfg r = .ok (raw (host.blocksClaims cfg r)) :=
  ite_raw rfl (ite_raw (persist_return_raw _ rfl) (ite_raw (persist_return_raw _ rfl) rfl))

theorem abandon_raw :
    host.switch.raw.abandon text cfg r = .ok (host.abandon cfg r).switch.raw := by
  unfold RawSwitch.abandon abandon
  rw [show host.switch.raw.state = host.switch.state from rfl]
  split
  · rfl
  · exact persist_raw rfl

theorem clearQuarantine_raw (kind : String) : host.switch.raw.clearQuarantine text cfg r kind =
    .ok (host.clearQuarantine cfg r kind).switch.raw := by
  unfold RawSwitch.clearQuarantine clearQuarantine
  rw [ServerSwitch.get?_raw]
  cases host.switch.quarantine.get? kind with
  | none => rfl
  | some hold =>
    refine persist_raw ?_
    simp only [ServerSwitch.raw, mapValues_erase]

end SwitchHost

/-- What the call does to the switch of `ServerSwitch`. Two of the calls only look. -/
def RawCall.after (cfg : SwitchConfig) (r : Readings) (host : SwitchHost) : RawCall → SwitchHost
  | .request target contextLength resize => host.step cfg ⟨.request target contextLength resize, r⟩
  | .tick obs => host.step cfg ⟨.tick obs, r⟩
  | .blocksClaims => host.step cfg ⟨.blocksClaims, r⟩
  | .reportStartOutcome value => host.step cfg ⟨.reportStartOutcome value, r⟩
  | .abandon reason => host.step cfg ⟨.abandon reason, r⟩
  | .quarantined _ | .resizeQuarantined _ => host
  | .clearQuarantine kind => host.step cfg ⟨.clearQuarantine kind, r⟩

namespace RawSwitch

theorem step_raw (call : RawCall) :
    host.switch.raw.step text cfg call r = .ok (call.after cfg r host).switch.raw := by
  cases call with
  | request target contextLength resize =>
    exact congrArg (Functor.map Prod.fst) (SwitchHost.request_raw target contextLength resize)
  | tick obs => exact congrArg (Functor.map Prod.fst) (SwitchHost.tick_raw obs)
  | blocksClaims => exact congrArg (Functor.map Prod.fst) SwitchHost.blocksClaims_raw
  | reportStartOutcome value =>
    exact congrArg (Functor.map Prod.fst) (SwitchHost.reportStartOutcome_raw value)
  | abandon reason => exact SwitchHost.abandon_raw
  | quarantined kind =>
    exact congrArg (Functor.map fun _ => _) (ServerSwitch.quarantinedLocked_raw _ kind)
  | resizeQuarantined kind =>
    exact congrArg (Functor.map fun _ => _) (ServerSwitch.quarantinedLocked_raw _ (resizeKey kind))
  | clearQuarantine kind => exact SwitchHost.clearQuarantine_raw kind

/-- **The models agree** along every sequence of calls. -/
theorem run_raw (history : List (RawCall × Readings)) :
    host.switch.raw.run text cfg history =
      .ok (history.foldl (fun host event => event.1.after cfg event.2 host) host).switch.raw := by
  induction history generalizing host with
  | nil => rfl
  | cons event rest ih =>
    unfold run
    rw [step_raw]
    exact ih

end RawSwitch

end BrokerParrot
