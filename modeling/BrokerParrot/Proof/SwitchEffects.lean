import BrokerParrot.ServerSwitch

/-!
# What a call does to a switch

The record on disk remembers two things: the switch in progress and the holds on the kinds that
failed to start. A call either leaves the file alone, and then it changes at most which old holds
are remembered, or it makes one edit and hands the result to `persist`. A restart is a `persist` of
what was read back.
-/

namespace BrokerParrot

structure ActiveSwitch where
  target : String
  named : target ≠ ""
  context : Option ℤ
  resize : Bool
  requested : ℚ

variable {cfg : SwitchConfig} {entry : Hold} {sw : ServerSwitch} {active : Option ActiveSwitch}
  {r : Readings} {host : SwitchHost} {obs : Observations}

def ActiveSwitch.key (active : ActiveSwitch) : String := holdKey active.resize active.target

def ServerSwitch.Carries (sw : ServerSwitch) : Option ActiveSwitch → Prop
  | none => sw.state = .idle
  | some active =>
    sw.state ≠ .idle ∧ sw.target = some active.target ∧ sw.targetContext = active.context ∧
      sw.resize = active.resize ∧ sw.requestedWall = some active.requested

/-! ### Holds -/

def heldAt (wall : ℚ) (holds : OrdDict String Hold) (key : String) : Bool :=
  match holds.get? key with
  | some entry => decide (wall < entry.untilWall)
  | none => false

def Hold.remembered (cfg : SwitchConfig) (wall : ℚ) (entry : Hold) : Bool :=
  ! decide (entry.untilWall ≤ wall - cfg.quarantineMaxS)

def prunedAt (cfg : SwitchConfig) (wall : ℚ) (holds : OrdDict String Hold) :
    OrdDict String Hold :=
  holds.filter fun _ entry => entry.remembered cfg wall

theorem get?_prunedAt (cfg : SwitchConfig) (wall : ℚ) (holds : OrdDict String Hold)
    (key : String) :
    (prunedAt cfg wall holds).get? key = (holds.get? key).filter (Hold.remembered cfg wall) :=
  holds.get?_filter _ key

theorem Hold.remembered_iff {wall : ℚ} :
    entry.remembered cfg wall = true ↔ wall < entry.untilWall + cfg.quarantineMaxS := by
  rw [Hold.remembered, Bool.not_eq_true', decide_eq_false_iff_not, not_le, sub_lt_iff_lt_add]

theorem Hold.remembered_anti {early late : ℚ} (hle : early ≤ late)
    (hkept : entry.remembered cfg late = true) : entry.remembered cfg early = true := by
  rw [Hold.remembered_iff] at hkept ⊢
  exact lt_of_le_of_lt hle hkept

def SwitchConfig.holdAfter (cfg : SwitchConfig) (failures : ℕ) : ℚ :=
  min (cfg.quarantineS * 2 ^ min failures 8) cfg.quarantineMaxS

def failuresOf (holds : OrdDict String Hold) (key : String) : ℕ :=
  match holds.get? key with
  | some entry => entry.failures
  | none => 0

theorem get?_quarantineLocked_self (cfg : SwitchConfig) (wall : ℚ) (key reason : String)
    (sw : ServerSwitch) :
    (sw.quarantineLocked cfg wall key reason).quarantine.get? key =
      some ⟨wall + cfg.holdAfter (failuresOf sw.quarantine key),
        failuresOf sw.quarantine key + 1, (reason.take 300).toString, wall⟩ := by
  rw [ServerSwitch.quarantineLocked, OrdDict.get?_insert_self]
  rfl

theorem get?_quarantineLocked_of_ne (cfg : SwitchConfig) (wall : ℚ) {key other : String}
    (reason : String) (sw : ServerSwitch) (hne : other ≠ key) :
    (sw.quarantineLocked cfg wall key reason).quarantine.get? other =
      sw.quarantine.get? other := by
  rw [ServerSwitch.quarantineLocked, OrdDict.get?_insert_of_ne _ _ hne]

/-! ### The file -/

namespace ServerSwitch

variable {other : ServerSwitch}

theorem Carries.of_fields (hcarries : sw.Carries active) (hstate : other.state = sw.state)
    (htarget : other.target = sw.target) (hcontext : other.targetContext = sw.targetContext)
    (hresize : other.resize = sw.resize) (hwall : other.requestedWall = sw.requestedWall) :
    other.Carries active := by
  cases active with
  | none => exact hstate.trans hcarries
  | some =>
    obtain ⟨hbusy, hfields⟩ := hcarries
    refine ⟨hstate ▸ hbusy, ?_⟩
    rwa [htarget, hcontext, hresize, hwall]

theorem Carries.advance {active : ActiveSwitch} (hcarries : sw.Carries (some active))
    (hstate : other.state ≠ .idle) (htarget : other.target = sw.target)
    (hcontext : other.targetContext = sw.targetContext) (hresize : other.resize = sw.resize)
    (hwall : other.requestedWall = sw.requestedWall) : other.Carries (some active) := by
  refine ⟨hstate, ?_⟩
  rw [htarget, hcontext, hresize, hwall]
  exact hcarries.2

theorem Carries.exists_of_busy (hcarries : sw.Carries active) (hbusy : sw.state ≠ .idle) :
    ∃ switch, active = some switch := by
  cases active with
  | none => exact absurd hcarries hbusy
  | some switch => exact ⟨switch, rfl⟩

theorem Carries.idle_iff (hcarries : sw.Carries active) : sw.state = .idle ↔ active = none := by
  cases active with
  | none => exact ⟨fun _ => rfl, fun _ => hcarries⟩
  | some => exact ⟨fun hidle => absurd hidle hcarries.1, nofun⟩

def persisted (r : Readings) (sw : ServerSwitch) : Option PersistFile :=
  if sw.state = .idle ∧ sw.quarantine.isEmpty then
    none
  else
    some (.v2 sw.quarantine (if sw.state = .idle then none else some (sw.record r)))

end ServerSwitch

def ActiveSwitch.ofRecord (target : String) (requested : Option ℚ) (context : Option ℤ)
    (resize : Bool) : Option ActiveSwitch :=
  match requested with
  | none => none
  | some requested =>
    if named : target ≠ "" then some ⟨target, named, context, resize, requested⟩ else none

/-- A process that starts now takes the recorded switch up again: its kind is not held back and its
budget, counted from the request, is not used up. -/
def ActiveSwitch.inTime (cfg : SwitchConfig) (r : Readings) (holds : OrdDict String Hold)
    (active : ActiveSwitch) : Bool :=
  ! heldAt (r.wall .quarantined) holds active.key &&
    decide (0 ≤ r.wall .age - active.requested) &&
    decide (r.wall .age - active.requested < cfg.budgetTotal)

namespace PersistFile

def recorded : Option PersistFile → Option ActiveSwitch
  | some (.v1 target wall) => ActiveSwitch.ofRecord target wall none false
  | some (.v2 _ (some rec)) =>
    ActiveSwitch.ofRecord (rec.target.getD "") rec.requestedWall rec.contextLength rec.resize
  | _ => none

def holds : Option PersistFile → OrdDict String Hold
  | some (.v2 quarantine _) => quarantine
  | _ => OrdDict.empty

def resumable (cfg : SwitchConfig) (r : Readings) (file : Option PersistFile) :
    Option ActiveSwitch :=
  (recorded file).filter (ActiveSwitch.inTime cfg r (prunedAt cfg (r.wall .prune) (holds file)))

theorem recorded_persisted (r : Readings) (hcarries : sw.Carries active) :
    recorded (sw.persisted r) = active := by
  unfold ServerSwitch.persisted
  cases active with
  | none =>
    have hidle : sw.state = .idle := hcarries
    by_cases hempty : sw.quarantine.isEmpty = true
    · rw [if_pos ⟨hidle, hempty⟩]
      rfl
    · rw [if_neg (fun hboth => hempty hboth.2), if_pos hidle]
      rfl
  | some active =>
    obtain ⟨hbusy, htarget, hcontext, hresize, hwall⟩ := hcarries
    rw [if_neg (fun hboth => hbusy hboth.1), if_neg hbusy]
    simp only [recorded, ServerSwitch.record, htarget, hcontext, hresize, hwall,
      Option.getD_some, ActiveSwitch.ofRecord, dif_pos active.named]

theorem holds_persisted (sw : ServerSwitch) (r : Readings) :
    holds (sw.persisted r) = sw.quarantine := by
  unfold ServerSwitch.persisted
  split
  · rename_i hboth
    exact (OrdDict.eq_empty_of_isEmpty hboth.2).symm
  · rfl

end PersistFile

namespace SwitchHost

theorem persist_eq (cfg : SwitchConfig) (r : Readings) (host : SwitchHost) :
    host.persist cfg r =
      if cfg.persistPath then
        { switch := host.switch.pruneQuarantine cfg (r.wall .persist)
          file :=
            if r.writeOk then (host.switch.pruneQuarantine cfg (r.wall .persist)).persisted r
            else host.file }
      else host := by
  unfold persist ServerSwitch.persisted unpersist
  cases cfg.persistPath with
  | false => rfl
  | true =>
    cases r.writeOk <;> simp only [if_true, Bool.true_and] <;> split <;> rfl

theorem persist_switch (cfg : SwitchConfig) (r : Readings) (host : SwitchHost) :
    ∃ quarantine, (host.persist cfg r).switch = { host.switch with quarantine := quarantine } := by
  rw [persist_eq]
  split
  · exact ⟨_, rfl⟩
  · exact ⟨host.switch.quarantine, rfl⟩

theorem persist_carries (hcarries : host.switch.Carries active) :
    (host.persist cfg r).switch.Carries active := by
  obtain ⟨quarantine, heq⟩ := host.persist_switch cfg r
  rw [heq]
  exact hcarries.of_fields rfl rfl rfl rfl rfl

theorem persist_quarantine (cfg : SwitchConfig) (r : Readings) (host : SwitchHost) :
    (host.persist cfg r).switch.quarantine =
      if cfg.persistPath then prunedAt cfg (r.wall .persist) host.switch.quarantine
      else host.switch.quarantine := by
  rw [persist_eq]
  split <;> rfl

theorem persist_file (cfg : SwitchConfig) (r : Readings) (host : SwitchHost) :
    (host.persist cfg r).file = host.file ∨
      (host.persist cfg r).file = (host.persist cfg r).switch.persisted r := by
  rw [persist_eq]
  split
  · split
    · exact Or.inr rfl
    · exact Or.inl rfl
  · exact Or.inl rfl

theorem persist_file_of_writeOk (hpath : cfg.persistPath = true) (hwrite : r.writeOk = true)
    (host : SwitchHost) : (host.persist cfg r).file = (host.persist cfg r).switch.persisted r := by
  rw [persist_eq, if_pos hpath]
  rw [if_pos hwrite]

/-! ### Restarts -/

theorem resume_carries (hidle : sw.state = .idle) (target : String) (requested : Option ℚ)
    (context : Option ℤ) (resize : Bool) :
    (sw.resume cfg r target requested context resize).Carries
      ((ActiveSwitch.ofRecord target requested context resize).filter
        (ActiveSwitch.inTime cfg r sw.quarantine)) := by
  unfold ServerSwitch.resume
  cases requested with
  | none =>
    split
    · exact hidle
    · exact hidle
  | some requested =>
    by_cases hnamed : target = ""
    · rw [if_neg (fun hboth => hboth.1 hnamed)]
      dsimp only
      rwa [if_neg (fun hall => hall.1 hnamed), ActiveSwitch.ofRecord,
        dif_neg (not_not_intro hnamed)]
    · rw [ActiveSwitch.ofRecord, dif_pos hnamed, Option.filter_some]
      by_cases hheld : heldAt (r.wall .quarantined) sw.quarantine (holdKey resize target) = true
      · rwa [if_pos ⟨hnamed, hheld⟩,
          if_neg (by simp [ActiveSwitch.inTime, ActiveSwitch.key, hheld])]
      · rw [if_neg (fun hboth => hheld hboth.2)]
        dsimp only
        by_cases htime : 0 ≤ r.wall .age - requested ∧ r.wall .age - requested < cfg.budgetTotal
        · have hin : ActiveSwitch.inTime cfg r sw.quarantine
              ⟨target, hnamed, context, resize, requested⟩ = true := by
            simp only [ActiveSwitch.inTime, ActiveSwitch.key, hheld, htime, decide_true,
              Bool.not_false, Bool.and_self]
          rw [if_pos ⟨hnamed, htime⟩, if_pos hin]
          exact ⟨nofun, rfl, rfl, rfl, rfl⟩
        · have hin : ¬ ActiveSwitch.inTime cfg r sw.quarantine
              ⟨target, hnamed, context, resize, requested⟩ = true := by
            intro hin
            simp only [ActiveSwitch.inTime, Bool.and_eq_true, decide_eq_true_eq] at hin
            exact htime ⟨hin.1.2, hin.2⟩
          rwa [if_neg (fun hall => htime hall.2), if_neg hin]

theorem resume_quarantine (cfg : SwitchConfig) (r : Readings) (sw : ServerSwitch) (target : String)
    (requested : Option ℚ) (context : Option ℤ) (resize : Bool) :
    (sw.resume cfg r target requested context resize).quarantine = sw.quarantine := by
  unfold ServerSwitch.resume
  split
  · rfl
  · cases requested with
    | none => rfl
    | some =>
      dsimp only
      split <;> rfl

theorem resumePersisted_spec (hpath : cfg.persistPath = true) (r : Readings)
    (file : Option PersistFile) :
    ∃ sw, resumePersisted cfg r file = persist cfg r ⟨sw, file⟩ ∧
      sw.quarantine = prunedAt cfg (r.wall .prune) (PersistFile.holds file) ∧
      sw.Carries (PersistFile.resumable cfg r file) := by
  -- Without a readable file `persist` of the fresh object removes what is there.
  have hfresh : ∀ file, persist cfg r ⟨SwitchState.fresh, file⟩ =
      unpersist cfg r ⟨SwitchState.fresh, file⟩ := by
    intro file
    simp only [persist, hpath, if_true]
    rfl
  unfold resumePersisted
  rw [if_pos hpath]
  match file with
  | none =>
    refine ⟨SwitchState.fresh, ?_, rfl, rfl⟩
    rw [hfresh, unpersist, ite_self]
  | some .unreadable => exact ⟨SwitchState.fresh, (hfresh _).symm, rfl, rfl⟩
  | some (.v1 target wall) =>
    exact ⟨_, rfl, resume_quarantine _ _ _ _ _ _ _, resume_carries rfl _ _ _ _⟩
  | some (.v2 quarantine none) =>
    refine ⟨_, rfl, resume_quarantine _ _ _ _ _ _ _, ?_⟩
    exact resume_carries rfl "" none none false
  | some (.v2 quarantine (some rec)) =>
    exact ⟨_, rfl, resume_quarantine _ _ _ _ _ _ _, resume_carries rfl _ _ _ _⟩

theorem resumePersisted_of_no_path (hpath : cfg.persistPath = false) (r : Readings)
    (file : Option PersistFile) : resumePersisted cfg r file = ⟨SwitchState.fresh, file⟩ := by
  unfold resumePersisted
  rw [hpath]
  rfl

/-! ### The other calls -/

/-- The call shows that the incoming server cannot come up: its lever said so for good, its start
was never acknowledged in time, or it did not answer while it had time left to. -/
def startFails (cfg : SwitchConfig) (host : SwitchHost) (event : SwitchEvent) : Bool :=
  match event.call with
  | .reportStartOutcome value =>
    decide (host.switch.state ≠ .idle) && (StartOutcome.coerce value).fatal
  | .tick obs =>
    decide (host.switch.state = .warming) &&
      decide (0 < host.switch.remaining cfg (event.readings.wall .remaining)) &&
      ! obs.incomingReady &&
      (decide (cfg.warmTimeoutS ≤ event.readings.now - host.switch.since) ||
        host.switch.ackExpired cfg event.readings)
  | _ => false

def startSucceeds (cfg : SwitchConfig) (host : SwitchHost) (event : SwitchEvent) : Bool :=
  match event.call with
  | .tick obs =>
    decide (host.switch.state = .warming) &&
      decide (0 < host.switch.remaining cfg (event.readings.wall .remaining)) &&
      obs.incomingReady
  | _ => false

/-- The call says nothing about any kind: no start failed or succeeded, and a kind it declares
healthy had no hold. -/
structure Uneventful (cfg : SwitchConfig) (host : SwitchHost) (event : SwitchEvent) : Prop where
  noFailure : host.startFails cfg event = false
  noSuccess : host.startSucceeds cfg event = false
  noClear : ∀ kind, event.call = .clearQuarantine kind → host.switch.quarantine.get? kind = none

inductive Edit (cfg : SwitchConfig) (host : SwitchHost) (event : SwitchEvent) :
    Option ActiveSwitch → Option ActiveSwitch → OrdDict String Hold → Prop where
  | requested {target : String} {context : Option ℤ} {resize : Bool} (named : target ≠ "")
      (hcall : event.call = .request target context resize)
      (hfree : heldAt (event.readings.wall .quarantined)
        (prunedAt cfg (event.readings.wall .prune) host.switch.quarantine)
        (holdKey resize target) = false) :
      Edit cfg host event none
        (some ⟨target, named, context, resize, event.readings.wall .requested⟩)
        (prunedAt cfg (event.readings.wall .prune) host.switch.quarantine)
  | kept (active : ActiveSwitch) (hcalm : host.Uneventful cfg event) :
      Edit cfg host event (some active) (some active) host.switch.quarantine
  | ended (active : ActiveSwitch) (hcalm : host.Uneventful cfg event) :
      Edit cfg host event (some active) none host.switch.quarantine
  | failed (active : ActiveSwitch) (reason : String) (hfails : host.startFails cfg event = true) :
      Edit cfg host event (some active) none
        (host.switch.quarantineLocked cfg (event.readings.wall .hold) active.key reason).quarantine
  | succeeded (active : ActiveSwitch) (hsucceeds : host.startSucceeds cfg event = true) :
      Edit cfg host event (some active) none (host.switch.quarantine.erase active.key)
  | cleared (active : Option ActiveSwitch) {kind : String}
      (hcall : event.call = .clearQuarantine kind) :
      Edit cfg host event active active (host.switch.quarantine.erase kind)

/-- All that a call other than a restart can do, to a host that carries `active`. -/
inductive Effect (cfg : SwitchConfig) (host : SwitchHost) (event : SwitchEvent)
    (active : Option ActiveSwitch) : SwitchHost → Prop where
  | quiet (sw : ServerSwitch) (hcarries : sw.Carries active)
      (hholds : sw.quarantine = host.switch.quarantine) (hcalm : host.Uneventful cfg event) :
      Effect cfg host event active { host with switch := sw }
  | pruned (sw : ServerSwitch) (hcarries : sw.Carries active)
      (hholds : sw.quarantine =
        prunedAt cfg (event.readings.wall .prune) host.switch.quarantine)
      (hcalm : host.Uneventful cfg event) :
      Effect cfg host event active { host with switch := sw }
  | wrote (sw : ServerSwitch) (next : Option ActiveSwitch) (hcarries : sw.Carries next)
      (hedit : Edit cfg host event active next sw.quarantine) :
      Effect cfg host event active (persist cfg event.readings { host with switch := sw })

section

theorem uneventful_tick_of_state (hstate : host.switch.state ≠ .warming) :
    host.Uneventful cfg ⟨.tick obs, r⟩ := by
  refine ⟨?_, ?_, nofun⟩
  · simp [startFails, hstate]
  · simp [startSucceeds, hstate]

variable {event : SwitchEvent}

theorem Effect.reset (hedit : Edit cfg host event active none sw.quarantine) :
    Effect cfg host event active
      (SwitchHost.reset cfg event.readings { host with switch := sw }) :=
  Effect.wrote _ none rfl hedit

theorem abortAndQuarantine_effect {active : ActiveSwitch} (hcarries : sw.Carries (some active))
    (hholds : sw.quarantine = host.switch.quarantine) (hfails : host.startFails cfg event = true)
    (reason : String) :
    Effect cfg host event (some active)
      (abortAndQuarantine cfg event.readings reason { host with switch := sw }).1 := by
  obtain ⟨-, htarget, -, hresize, -⟩ := hcarries
  unfold abortAndQuarantine
  rw [htarget]
  dsimp only
  rw [if_neg active.named, hresize]
  apply Effect.reset
  have hlocked : (sw.quarantineLocked cfg (event.readings.wall .hold)
      (holdKey active.resize active.target) reason).quarantine =
        (host.switch.quarantineLocked cfg (event.readings.wall .hold) active.key
          reason).quarantine := by
    simp only [ServerSwitch.quarantineLocked, hholds, ActiveSwitch.key]
  rw [hlocked]
  exact Edit.failed active reason hfails

section

variable {active : ActiveSwitch} (hcarries : host.switch.Carries (some active))

include hcarries

theorem complete_effect (hsucceeds : host.startSucceeds cfg event = true) :
    Effect cfg host event (some active) (host.complete cfg event.readings).1 := by
  obtain ⟨-, htarget, -, hresize, -⟩ := hcarries
  unfold complete SwitchState.released
  rw [htarget]
  dsimp only
  rw [if_neg active.named, hresize]
  exact Effect.reset (Edit.succeeded active hsucceeds)

theorem startWarming_effect (hcalm : host.Uneventful cfg event) :
    Effect cfg host event (some active) (host.startWarming cfg event.readings).1 :=
  Effect.wrote _ (some active) (hcarries.advance nofun rfl rfl rfl rfl) (Edit.kept active hcalm)

theorem tickDraining_effect (hcalm : host.Uneventful cfg ⟨.tick obs, r⟩) :
    Effect cfg host ⟨.tick obs, r⟩ (some active) (host.tickDraining cfg r obs).1 := by
  unfold tickDraining
  split
  · split
    · exact Effect.reset (Edit.ended active hcalm)
    · exact Effect.quiet host.switch hcarries rfl hcalm
  · split
    · exact startWarming_effect hcarries hcalm
    · exact Effect.quiet _ (hcarries.advance nofun rfl rfl rfl rfl) rfl hcalm

theorem tickSwitching_effect (hcalm : host.Uneventful cfg ⟨.tick obs, r⟩) :
    Effect cfg host ⟨.tick obs, r⟩ (some active) (host.tickSwitching cfg r obs).1 := by
  unfold tickSwitching
  split
  · split
    · exact Effect.reset (Edit.ended active hcalm)
    · split
      · exact Effect.quiet _ (hcarries.of_fields rfl rfl rfl rfl rfl) rfl hcalm
      · exact Effect.quiet host.switch hcarries rfl hcalm
  · exact startWarming_effect hcarries hcalm

theorem tickWarming_effect (hstate : host.switch.state = .warming)
    (htime : 0 < host.switch.remaining cfg (r.wall .remaining)) :
    Effect cfg host ⟨.tick obs, r⟩ (some active) (host.tickWarming cfg r obs).1 := by
  unfold tickWarming
  by_cases hready : obs.incomingReady = true
  · rw [if_pos hready]
    exact complete_effect hcarries (by simp [startSucceeds, hstate, htime, hready])
  rw [if_neg hready]
  by_cases hslow : cfg.warmTimeoutS ≤ r.now - host.switch.since
  · rw [if_pos hslow]
    exact abortAndQuarantine_effect hcarries rfl
      (by simp [startFails, hstate, htime, hready, hslow]) _
  rw [if_neg hslow]
  by_cases hunack : host.switch.ackExpired cfg r = true
  · rw [if_pos hunack]
    exact abortAndQuarantine_effect hcarries rfl
      (by simp [startFails, hstate, htime, hready, hunack]) _
  rw [if_neg hunack]
  have hcalm : host.Uneventful cfg ⟨.tick obs, r⟩ := by
    refine ⟨?_, ?_, nofun⟩
    · simp [startFails, hslow, hunack]
    · simp [startSucceeds, hready]
  split
  · exact Effect.quiet host.switch hcarries rfl hcalm
  · split
    · exact Effect.quiet _ (hcarries.of_fields rfl rfl rfl rfl rfl) rfl hcalm
    · exact Effect.quiet host.switch hcarries rfl hcalm

end

variable (hcarries : host.switch.Carries active)

include hcarries

theorem request_effect (target : String) (context : Option ℤ) (resize : Bool) :
    Effect cfg host ⟨.request target context resize, r⟩ active
      (host.request cfg r target context resize).1 := by
  have hcalm : host.Uneventful cfg ⟨.request target context resize, r⟩ :=
    ⟨rfl, rfl, nofun⟩
  unfold request
  by_cases hnamed : target = ""
  · rw [if_pos hnamed]
    exact Effect.quiet host.switch hcarries rfl hcalm
  rw [if_neg hnamed]
  by_cases hidle : host.switch.state = .idle
  · rw [if_neg (not_not_intro hidle)]
    have hnone : active = none := hcarries.idle_iff.mp hidle
    subst hnone
    dsimp only
    split
    · exact Effect.pruned _ (hcarries.of_fields rfl rfl rfl rfl rfl) rfl hcalm
    · rename_i hheld
      have hfree : heldAt (r.wall .quarantined)
          (prunedAt cfg (r.wall .prune) host.switch.quarantine) (holdKey resize target) = false :=
        Bool.eq_false_of_not_eq_true hheld
      exact Effect.wrote _ (some ⟨target, hnamed, context, resize, r.wall .requested⟩)
        ⟨nofun, rfl, rfl, rfl, rfl⟩ (Edit.requested hnamed rfl hfree)
  · rw [if_pos hidle]
    exact Effect.quiet host.switch hcarries rfl hcalm

theorem tick_effect (obs : Observations) :
    Effect cfg host ⟨.tick obs, r⟩ active (host.tick cfg r obs).1 := by
  unfold tick
  by_cases hidle : host.switch.state = .idle
  · rw [if_pos hidle]
    exact Effect.quiet host.switch hcarries rfl (uneventful_tick_of_state (by simp [hidle]))
  rw [if_neg hidle]
  obtain ⟨active, rfl⟩ := hcarries.exists_of_busy hidle
  by_cases htime : host.switch.remaining cfg (r.wall .remaining) ≤ 0
  · -- Past the whole budget the switch is given up without blaming its kind.
    rw [if_pos htime]
    refine Effect.reset (Edit.ended active ⟨?_, ?_, nofun⟩)
    · simp [startFails, not_lt.mpr htime]
    · simp [startSucceeds, not_lt.mpr htime]
  rw [if_neg htime]
  cases hstate : host.switch.state with
  | idle => exact absurd hstate hidle
  | draining => exact tickDraining_effect hcarries (uneventful_tick_of_state (by simp [hstate]))
  | switching => exact tickSwitching_effect hcarries (uneventful_tick_of_state (by simp [hstate]))
  | warming => exact tickWarming_effect hcarries hstate (not_le.mp htime)

theorem reportStartOutcome_effect (value : LeverReturn) :
    Effect cfg host ⟨.reportStartOutcome value, r⟩ active
      (host.reportStartOutcome cfg r value).1 := by
  unfold reportStartOutcome
  by_cases hidle : host.switch.state = .idle
  · rw [if_pos hidle]
    exact Effect.quiet host.switch hcarries rfl ⟨by simp [startFails, hidle], rfl, nofun⟩
  rw [if_neg hidle]
  obtain ⟨active, rfl⟩ := hcarries.exists_of_busy hidle
  by_cases hfatal : (StartOutcome.coerce value).fatal = true
  · rw [if_pos hfatal]
    have hfails : host.startFails cfg ⟨.reportStartOutcome value, r⟩ = true := by
      simp [startFails, hidle, hfatal]
    have hreported : ServerSwitch.Carries (host.switch.reported r (StartOutcome.coerce value))
        (some active) := hcarries.of_fields rfl rfl rfl rfl rfl
    exact abortAndQuarantine_effect hreported rfl hfails _
  · rw [if_neg hfatal]
    have hcalm : host.Uneventful cfg ⟨.reportStartOutcome value, r⟩ :=
      ⟨by simp [startFails, hfatal], rfl, nofun⟩
    obtain ⟨ack, since, heq⟩ := SwitchState.acknowledge_eq r (StartOutcome.coerce value)
      (host.switch.reported r (StartOutcome.coerce value))
    rw [heq]
    exact Effect.wrote _ (some active) (hcarries.of_fields rfl rfl rfl rfl rfl)
      (Edit.kept active hcalm)

theorem reset_effect (hbusy : host.switch.state ≠ .idle) (hcalm : host.Uneventful cfg event) :
    Effect cfg host event active (host.reset cfg event.readings) := by
  obtain ⟨active, rfl⟩ := hcarries.exists_of_busy hbusy
  exact Effect.reset (Edit.ended active hcalm)

theorem abandon_effect (reason : String) :
    Effect cfg host ⟨.abandon reason, r⟩ active (host.abandon cfg r) := by
  have hcalm : host.Uneventful cfg ⟨.abandon reason, r⟩ := ⟨rfl, rfl, nofun⟩
  unfold abandon
  split
  · exact Effect.quiet host.switch hcarries rfl hcalm
  · rename_i hbusy
    exact reset_effect hcarries hbusy hcalm

theorem blocksClaims_effect :
    Effect cfg host ⟨.blocksClaims, r⟩ active (host.blocksClaims cfg r).1 := by
  have hcalm : host.Uneventful cfg ⟨.blocksClaims, r⟩ := ⟨rfl, rfl, nofun⟩
  unfold blocksClaims
  split
  · exact Effect.quiet host.switch hcarries rfl hcalm
  · rename_i hbusy
    split
    · exact reset_effect hcarries hbusy hcalm
    · split
      · exact reset_effect hcarries hbusy hcalm
      · exact Effect.quiet host.switch hcarries rfl hcalm

theorem clearQuarantine_effect (kind : String) :
    Effect cfg host ⟨.clearQuarantine kind, r⟩ active (host.clearQuarantine cfg r kind) := by
  unfold clearQuarantine
  split
  · rename_i habsent
    refine Effect.quiet host.switch hcarries rfl ⟨rfl, rfl, ?_⟩
    rintro other ⟨rfl⟩
    exact habsent
  · exact Effect.wrote _ active (hcarries.of_fields rfl rfl rfl rfl rfl) (Edit.cleared active rfl)

theorem step_effect (hcall : event.call ≠ .restart) :
    Effect cfg host event active (host.step cfg event) := by
  obtain ⟨call, r⟩ := event
  cases call with
  | request target context resize => exact request_effect hcarries target context resize
  | tick obs => exact tick_effect hcarries obs
  | reportStartOutcome value => exact reportStartOutcome_effect hcarries value
  | abandon reason => exact abandon_effect hcarries reason
  | clearQuarantine kind => exact clearQuarantine_effect hcarries kind
  | blocksClaims => exact blocksClaims_effect hcarries
  | quarantineRemaining =>
    exact Effect.pruned _ (hcarries.of_fields rfl rfl rfl rfl rfl) rfl ⟨rfl, rfl, nofun⟩
  | restart => exact absurd rfl hcall

end

end SwitchHost

end BrokerParrot
