import Mathlib.Data.List.Induction
import BrokerParrot.Proof.SwitchEffects

/-!
# No start on top of the outgoing server

Two copies of the weights are never on the card: a start is only ever returned by a tick that
observed the outgoing server gone, and nothing is freed or started before a tick of the same switch,
in the same process, saw the box empty.
-/

namespace BrokerParrot

open List

variable {cfg : SwitchConfig} {r : Readings} {host : SwitchHost} {sw : ServerSwitch}
  {obs : Observations} {event : SwitchEvent}

def Phase.PastDrain (phase : Phase) : Prop := phase = .switching ∨ phase = .warming

def PersistFile.Plain : Option PersistFile → Prop
  | some (.v2 _ (some rec)) => rec.resize = false
  | _ => True

theorem PersistFile.Plain.resize_recorded {file : Option PersistFile} {active : ActiveSwitch}
    (hfile : PersistFile.Plain file) (hrecorded : recorded file = some active) :
    active.resize = false := by
  have hresize {target requested context resize}
      (hactive : ActiveSwitch.ofRecord target requested context resize = some active) :
      active.resize = resize := by
    unfold ActiveSwitch.ofRecord at hactive
    split at hactive
    · cases hactive
    · split at hactive <;> cases hactive
      rfl
  rcases file with _ | _ | ⟨target, wall⟩ | ⟨quarantine, _ | rec⟩
  · cases hrecorded
  · cases hrecorded
  · exact hresize hrecorded
  · cases hrecorded
  · exact (hresize hrecorded).trans hfile

namespace SwitchHost

/-- Neither the switch in progress nor the one on disk is a resize. -/
structure Plain (host : SwitchHost) : Prop where
  memory : ∃ active, host.switch.Carries active ∧ ∀ switch ∈ active, switch.resize = false
  disk : ∀ switch ∈ PersistFile.recorded host.file, switch.resize = false

@[simp]
theorem unpersist_switch (cfg : SwitchConfig) (r : Readings) (host : SwitchHost) :
    (host.unpersist cfg r).switch = host.switch := by
  unfold unpersist
  split <;> rfl

@[simp]
theorem persist_state (cfg : SwitchConfig) (r : Readings) (host : SwitchHost) :
    (host.persist cfg r).switch.state = host.switch.state := by
  obtain ⟨quarantine, heq⟩ := host.persist_switch cfg r
  rw [heq]

section

@[simp]
theorem reset_state : (host.reset cfg r).switch.state = .idle := by
  unfold reset
  rw [persist_state]
  rfl

@[simp]
theorem abort_actions : (host.abort cfg r).2 = [.abort] := rfl

@[simp]
theorem abort_state : (host.abort cfg r).1.switch.state = .idle := reset_state

theorem abortAndQuarantine_eq (cfg : SwitchConfig) (r : Readings) (reason : String)
    (host : SwitchHost) :
    ∃ quarantine, host.abortAndQuarantine cfg r reason =
      abort cfg r { host with switch := { host.switch with quarantine := quarantine } } := by
  unfold abortAndQuarantine
  split
  · split
    · exact ⟨host.switch.quarantine, rfl⟩
    · exact ⟨_, rfl⟩
  · exact ⟨host.switch.quarantine, rfl⟩

@[simp]
theorem abortAndQuarantine_actions (reason : String) :
    (host.abortAndQuarantine cfg r reason).2 = [.abort] := by
  obtain ⟨quarantine, heq⟩ := abortAndQuarantine_eq cfg r reason host
  rw [heq, abort_actions]

@[simp]
theorem abortAndQuarantine_state (reason : String) :
    (host.abortAndQuarantine cfg r reason).1.switch.state = .idle := by
  obtain ⟨quarantine, heq⟩ := abortAndQuarantine_eq cfg r reason host
  rw [heq, abort_state]

end

/-! ### One tick -/

section

theorem tick_cases (cfg : SwitchConfig) (r : Readings) (obs : Observations) (host : SwitchHost) :
    host.tick cfg r obs = (host, []) ∨
    host.tick cfg r obs = host.abort cfg r ∨
    (host.switch.state = .draining ∧ host.tick cfg r obs = host.tickDraining cfg r obs) ∨
    (host.switch.state = .switching ∧ host.tick cfg r obs = host.tickSwitching cfg r obs) ∨
    (host.switch.state = .warming ∧ host.tick cfg r obs = host.tickWarming cfg r obs) := by
  unfold tick
  split
  · exact Or.inl rfl
  · split
    · exact Or.inr (Or.inl rfl)
    · cases hstate : host.switch.state with
      | idle => exact Or.inl rfl
      | draining => exact Or.inr (Or.inr (Or.inl ⟨rfl, rfl⟩))
      | switching => exact Or.inr (Or.inr (Or.inr (Or.inl ⟨rfl, rfl⟩)))
      | warming => exact Or.inr (Or.inr (Or.inr (Or.inr ⟨rfl, rfl⟩)))

theorem not_pastDrain_idle : ¬ Phase.PastDrain .idle := by
  rintro (hphase | hphase) <;> cases hphase

theorem not_pastDrain_draining : ¬ Phase.PastDrain .draining := by
  rintro (hphase | hphase) <;> cases hphase

theorem PastDrain.ne_idle {phase : Phase} (hpast : phase.PastDrain) : phase ≠ .idle := by
  rintro rfl
  exact not_pastDrain_idle hpast

theorem tickDraining_busy (cfg : SwitchConfig) (r : Readings) (host : SwitchHost)
    (hbusy : 0 < obs.inFlight) :
    host.tickDraining cfg r obs = host.abort cfg r ∨
      host.tickDraining cfg r obs = (host, []) := by
  unfold tickDraining
  rw [if_pos hbusy]
  split
  · exact Or.inl rfl
  · exact Or.inr rfl

theorem startIncoming_not_mem_tickDraining (hresize : host.switch.resize = false) :
    .startIncoming ∉ (host.tickDraining cfg r obs).2 := by
  by_cases hbusy : 0 < obs.inFlight
  · rcases host.tickDraining_busy cfg r hbusy with heq | heq <;>
      simp [heq]
  · unfold tickDraining
    rw [if_neg hbusy, hresize]
    cases obs.outgoingLoaded <;> simp

theorem startIncoming_mem_tickSwitching
    (hmem : .startIncoming ∈ (host.tickSwitching cfg r obs).2) : obs.outgoingLoaded = false := by
  cases hloaded : obs.outgoingLoaded with
  | false => rfl
  | true =>
    unfold tickSwitching at hmem
    rw [if_pos hloaded] at hmem
    split at hmem
    · simp at hmem
    · split at hmem <;> simp at hmem

theorem startIncoming_mem_tickWarming (hresize : host.switch.resize = false)
    (hmem : .startIncoming ∈ (host.tickWarming cfg r obs).2) : obs.outgoingLoaded = false := by
  cases hloaded : obs.outgoingLoaded with
  | false => rfl
  | true =>
    unfold tickWarming at hmem
    split at hmem
    · simp [complete] at hmem
    · split at hmem
      · simp at hmem
      · split at hmem
        · simp at hmem
        · rw [if_pos (by simp [hloaded, hresize])] at hmem
          simp at hmem

theorem outgoing_gone_of_startIncoming (hresize : host.switch.resize = false)
    (hmem : .startIncoming ∈ (host.tick cfg r obs).2) : obs.outgoingLoaded = false := by
  rcases host.tick_cases cfg r obs with
    heq | heq | ⟨-, heq⟩ | ⟨-, heq⟩ | ⟨-, heq⟩
  · simp [heq] at hmem
  · simp [heq] at hmem
  · rw [heq] at hmem
    exact absurd hmem (startIncoming_not_mem_tickDraining hresize)
  · rw [heq] at hmem
    exact startIncoming_mem_tickSwitching hmem
  · rw [heq] at hmem
    exact startIncoming_mem_tickWarming hresize hmem

theorem drained_of_free_or_start
    (hmem : .unloadOutgoing ∈ (host.tick cfg r obs).2 ∨
      .startIncoming ∈ (host.tick cfg r obs).2) :
    obs.inFlight ≤ 0 ∨ host.switch.state.PastDrain := by
  rcases host.tick_cases cfg r obs with
    heq | heq | ⟨-, heq⟩ | ⟨hstate, -⟩ | ⟨hstate, -⟩
  · simp [heq] at hmem
  · simp [heq] at hmem
  · by_cases hbusy : 0 < obs.inFlight
    · rcases host.tickDraining_busy cfg r hbusy with hbusyEq | hbusyEq <;>
        simp [heq, hbusyEq] at hmem
    · exact Or.inl (by omega)
  · exact Or.inr (Or.inl hstate)
  · exact Or.inr (Or.inr hstate)

theorem tick_pastDrain (hpast : (host.tick cfg r obs).1.switch.state.PastDrain) :
    host.switch.state.PastDrain ∨ obs.inFlight ≤ 0 := by
  rcases host.tick_cases cfg r obs with
    heq | heq | ⟨-, heq⟩ | ⟨hstate, -⟩ | ⟨hstate, -⟩
  · rw [heq] at hpast
    exact Or.inl hpast
  · rw [heq, abort_state] at hpast
    exact absurd hpast not_pastDrain_idle
  · by_cases hbusy : 0 < obs.inFlight
    · rcases host.tickDraining_busy cfg r hbusy with hbusyEq | hbusyEq
      · rw [heq, hbusyEq, abort_state] at hpast
        exact absurd hpast not_pastDrain_idle
      · rw [heq, hbusyEq] at hpast
        exact Or.inl hpast
    · exact Or.inr (by omega)
  · exact Or.inl (Or.inl hstate)
  · exact Or.inl (Or.inr hstate)

end

/-! ### One call -/

section

variable {resize : Bool}

theorem resume_not_pastDrain (hidle : sw.state = .idle) (target : String) (requestedWall : Option ℚ)
    (contextLength : Option ℤ) (resize : Bool) :
    ¬ (sw.resume cfg r target requestedWall contextLength resize).state.PastDrain := by
  have hsame : ¬ sw.state.PastDrain := by
    rw [hidle]
    exact not_pastDrain_idle
  unfold ServerSwitch.resume
  split
  · exact hsame
  · cases requestedWall with
    | none => exact hsame
    | some =>
      dsimp only
      split
      · exact not_pastDrain_draining
      · exact hsame

theorem resumePersisted_not_pastDrain (cfg : SwitchConfig) (r : Readings)
    (file : Option PersistFile) : ¬ (resumePersisted cfg r file).switch.state.PastDrain := by
  unfold resumePersisted
  split
  · split
    · exact not_pastDrain_idle
    · rw [unpersist_switch]
      exact not_pastDrain_idle
    · rw [persist_state]
      exact resume_not_pastDrain rfl _ _ _ _
    · split
      · rw [persist_state]
        exact resume_not_pastDrain rfl _ _ _ _
      · rw [persist_state]
        exact resume_not_pastDrain rfl _ _ _ _
  · exact not_pastDrain_idle

def PlainCall (event : SwitchEvent) : Prop :=
  ∀ target contextLength, event.call ≠ .request target contextLength true

theorem request_pastDrain {target : String} {contextLength : Option ℤ}
    (hpast : (host.request cfg r target contextLength resize).1.switch.state.PastDrain) :
    host.switch.state.PastDrain := by
  unfold request at hpast
  split at hpast
  · exact hpast
  split at hpast
  · exact hpast
  dsimp only at hpast
  split at hpast
  · exact hpast
  · rw [persist_state] at hpast
    exact absurd hpast not_pastDrain_draining

theorem reportStartOutcome_pastDrain {value : LeverReturn}
    (hpast : (host.reportStartOutcome cfg r value).1.switch.state.PastDrain) :
    host.switch.state.PastDrain := by
  unfold reportStartOutcome at hpast
  dsimp only at hpast
  split at hpast
  · exact hpast
  split at hpast
  · rw [abortAndQuarantine_state] at hpast
    exact absurd hpast not_pastDrain_idle
  · obtain ⟨ack, since, heq⟩ := SwitchState.acknowledge_eq r (StartOutcome.coerce value)
      (host.switch.reported r (StartOutcome.coerce value))
    rw [persist_state, heq] at hpast
    exact hpast

theorem abandon_eq (cfg : SwitchConfig) (r : Readings) (host : SwitchHost) :
    host.abandon cfg r = host ∨ host.abandon cfg r = host.reset cfg r := by
  unfold abandon
  split
  · exact Or.inl rfl
  · exact Or.inr rfl

theorem blocksClaims_eq (cfg : SwitchConfig) (r : Readings) (host : SwitchHost) :
    (host.blocksClaims cfg r).1 = host ∨ (host.blocksClaims cfg r).1 = host.reset cfg r := by
  unfold blocksClaims
  split
  · exact Or.inl rfl
  split
  · exact Or.inr rfl
  split
  · exact Or.inr rfl
  · exact Or.inl rfl

theorem clearQuarantine_state (kind : String) :
    (host.clearQuarantine cfg r kind).switch.state = host.switch.state := by
  unfold clearQuarantine
  split
  · rfl
  · rw [persist_state]

theorem step_pastDrain (hpast : (host.step cfg event).switch.state.PastDrain) :
    (host.switch.state.PastDrain ∧ event.call ≠ .restart) ∨
      ∃ obs, event.call = .tick obs ∧ obs.inFlight ≤ 0 := by
  obtain ⟨call, r⟩ := event
  cases call with
  | request => exact Or.inl ⟨request_pastDrain hpast, by simp⟩
  | tick obs =>
    rcases tick_pastDrain hpast with hbefore | hempty
    · exact Or.inl ⟨hbefore, by simp⟩
    · exact Or.inr ⟨obs, rfl, hempty⟩
  | reportStartOutcome => exact Or.inl ⟨reportStartOutcome_pastDrain hpast, by simp⟩
  | abandon =>
    change (host.abandon cfg r).switch.state.PastDrain at hpast
    rcases host.abandon_eq cfg r with heq | heq <;> rw [heq] at hpast
    · exact Or.inl ⟨hpast, by simp⟩
    · rw [reset_state] at hpast
      exact absurd hpast not_pastDrain_idle
  | clearQuarantine kind =>
    change (host.clearQuarantine cfg r kind).switch.state.PastDrain at hpast
    rw [clearQuarantine_state] at hpast
    exact Or.inl ⟨hpast, by simp⟩
  | blocksClaims =>
    change (host.blocksClaims cfg r).1.switch.state.PastDrain at hpast
    rcases host.blocksClaims_eq cfg r with heq | heq <;> rw [heq] at hpast
    · exact Or.inl ⟨hpast, by simp⟩
    · rw [reset_state] at hpast
      exact absurd hpast not_pastDrain_idle
  | quarantineRemaining => exact Or.inl ⟨hpast, by simp⟩
  | restart => exact absurd hpast (resumePersisted_not_pastDrain cfg r host.file)

theorem Plain.of_persist {mid : SwitchHost} {next : Option ActiveSwitch}
    (hdisk : ∀ switch ∈ PersistFile.recorded mid.file, switch.resize = false)
    (hcarries : mid.switch.Carries next) (hnext : ∀ switch ∈ next, switch.resize = false) :
    (mid.persist cfg r).Plain := by
  refine ⟨⟨next, persist_carries hcarries, hnext⟩, ?_⟩
  rcases mid.persist_file cfg r with hfile | hfile
  · rwa [hfile]
  · rwa [hfile, PersistFile.recorded_persisted r (persist_carries hcarries)]

theorem plain_resumePersisted (cfg : SwitchConfig) (r : Readings) {file : Option PersistFile}
    (hdisk : ∀ switch ∈ PersistFile.recorded file, switch.resize = false) :
    (resumePersisted cfg r file).Plain := by
  by_cases hpath : cfg.persistPath = true
  · obtain ⟨sw, heq, -, hcarries⟩ := resumePersisted_spec hpath r file
    rw [heq]
    exact Plain.of_persist hdisk hcarries fun switch hmem =>
      hdisk switch (Option.filter_eq_some_iff.mp hmem).1
  · rw [resumePersisted_of_no_path (Bool.eq_false_of_not_eq_true hpath)]
    exact ⟨⟨none, rfl, nofun⟩, hdisk⟩

theorem Edit.plain {active next : Option ActiveSwitch} {holds : OrdDict String Hold}
    (hedit : Edit cfg host event active next holds) (hcall : PlainCall event)
    (hactive : ∀ switch ∈ active, switch.resize = false) :
    ∀ switch ∈ next, switch.resize = false := by
  cases hedit with
  | @requested _ _ resize named hrequest =>
    intro switch hmem
    obtain rfl := Option.some.inj hmem
    cases resize with
    | false => rfl
    | true => exact absurd hrequest (hcall _ _)
  | kept | cleared => exact hactive
  | ended | failed | succeeded => exact nofun

theorem Plain.step (hplain : host.Plain) (hcall : PlainCall event) :
    (host.step cfg event).Plain := by
  obtain ⟨active, hcarries, hactive⟩ := hplain.memory
  by_cases hrestart : event.call = .restart
  · unfold SwitchHost.step
    rw [hrestart]
    exact plain_resumePersisted cfg _ hplain.disk
  · have heffect : Effect cfg host event active (host.step cfg event) :=
      step_effect hcarries hrestart
    generalize host.step cfg event = after at heffect ⊢
    cases heffect with
    | quiet sw hkept | pruned sw hkept => exact ⟨⟨active, hkept, hactive⟩, hplain.disk⟩
    | wrote sw next hnext hedit =>
      exact Plain.of_persist hplain.disk hnext (hedit.plain hcall hactive)

end

/-! ### Whole histories -/

section

variable {history : List SwitchEvent}

theorem run_concat (cfg : SwitchConfig) (host : SwitchHost) (history : List SwitchEvent)
    (event : SwitchEvent) :
    run cfg host (history ++ [event]) = (run cfg host history).step cfg event := by
  simp [run]

theorem Plain.run (hplain : host.Plain) (hcalls : ∀ event ∈ history, PlainCall event) :
    (SwitchHost.run cfg host history).Plain :=
  List.foldlRecOn history (SwitchHost.step cfg) hplain fun _ hbefore event hmem =>
    hbefore.step (hcalls event hmem)

/-- Some tick of the history saw the box empty, and from it to the last call the process did not
restart and the same switch was in progress. -/
def DrainSeen (cfg : SwitchConfig) (host : SwitchHost) (history : List SwitchEvent) : Prop :=
  ∃ before obs r later, history = before ++ ⟨.tick obs, r⟩ :: later ∧ obs.inFlight ≤ 0 ∧
    (∀ event ∈ later, event.call ≠ .restart) ∧
    ∀ between after, later = between ++ after → after ≠ [] →
      (run cfg host (before ++ ⟨.tick obs, r⟩ :: between)).switch.state ≠ .idle

theorem drainSeen_of_tick (hempty : obs.inFlight ≤ 0) :
    DrainSeen cfg host (history ++ [⟨.tick obs, r⟩]) := by
  refine ⟨history, obs, r, [], rfl, hempty, by simp, ?_⟩
  intro between after hsplit hafter
  exact absurd (append_eq_nil_iff.mp hsplit.symm).2 hafter

theorem DrainSeen.concat (hseen : DrainSeen cfg host history)
    (hactive : (run cfg host history).switch.state ≠ .idle) (hcall : event.call ≠ .restart) :
    DrainSeen cfg host (history ++ [event]) := by
  obtain ⟨before, obs, r, later, hhistory, hempty, hprocess, hswitch⟩ := hseen
  refine ⟨before, obs, r, later ++ [event], by simp [hhistory], hempty, ?_, ?_⟩
  · intro other hmem
    rcases mem_append.mp hmem with hold | hnew
    · exact hprocess other hold
    · rwa [mem_singleton.mp hnew]
  · intro between after hsplit hafter
    obtain ⟨rest, last, rfl⟩ := eq_nil_or_concat after |>.resolve_left hafter
    rw [concat_eq_append, ← append_assoc] at hsplit
    obtain ⟨hlater, -⟩ := append_inj' hsplit rfl
    -- Right before the new call the switch is active by assumption, before the others by `hseen`.
    by_cases hrest : rest = []
    · subst hrest
      rw [append_nil] at hlater
      rwa [← hlater, ← hhistory]
    · exact hswitch between rest hlater hrest

theorem drainSeen_of_pastDrain (hstart : ¬ host.switch.state.PastDrain)
    (hpast : (run cfg host history).switch.state.PastDrain) : DrainSeen cfg host history := by
  -- From the end: the last call either moved past the drain or found the switch there.
  induction history using List.reverseRecOn with
  | nil => exact absurd hpast hstart
  | append_singleton history event ih =>
    rw [run_concat] at hpast
    rcases step_pastDrain hpast with ⟨hbefore, hcall⟩ | ⟨obs, htick, hempty⟩
    · exact (ih hbefore).concat (PastDrain.ne_idle hbefore) hcall
    · obtain ⟨call, r⟩ := event
      cases htick
      exact drainSeen_of_tick hempty

/-- **Never two copies.** A tick returns a start only if it saw the outgoing server gone, and frees
or starts a server only after a tick of the same switch in the same process saw no job in flight. -/
theorem tick_actions_after_drain (cfg : SwitchConfig) (r₀ : Readings) (file : Option PersistFile)
    (hfile : PersistFile.Plain file) (history : List SwitchEvent)
    (hcalls : ∀ event ∈ history, PlainCall event) (r : Readings) (obs : Observations) :
    let start := resumePersisted cfg r₀ file
    let actions := ((run cfg start history).tick cfg r obs).2
    (.startIncoming ∈ actions → obs.outgoingLoaded = false) ∧
      (.unloadOutgoing ∈ actions ∨ .startIncoming ∈ actions →
        DrainSeen cfg start (history ++ [⟨.tick obs, r⟩])) := by
  intro start actions
  have hplain : (run cfg start history).Plain :=
    (plain_resumePersisted cfg r₀ fun _ hmem => hfile.resize_recorded hmem).run hcalls
  obtain ⟨active, hcarries, hactive⟩ := hplain.memory
  refine ⟨fun hmem => ?_, fun hmem => ?_⟩
  · cases active with
    | none =>
      have hnone : actions = [] := congrArg Prod.snd (if_pos hcarries)
      rw [hnone] at hmem
      cases hmem
    | some switch =>
      exact outgoing_gone_of_startIncoming (hcarries.2.2.2.1.trans (hactive switch rfl)) hmem
  rcases drained_of_free_or_start hmem with hempty | hpast
  · exact drainSeen_of_tick hempty
  · have hseen : DrainSeen cfg start history :=
      drainSeen_of_pastDrain (resumePersisted_not_pastDrain cfg r₀ file) hpast
    exact hseen.concat (PastDrain.ne_idle hpast) (by simp)

/-- One switch from request to start: drained, freed, observed gone, started. -/
theorem tick_actions_after_drain_start :
    let cfg : SwitchConfig := {}
    let r (now : ℚ) : Readings := ⟨now, fun _ => now, true⟩
    let history : List SwitchEvent :=
      [⟨.request "vllm" none false, r 0⟩, ⟨.tick ⟨0, true, false⟩, r 1⟩]
    let start := resumePersisted cfg (r 0) none
    let actions := ((run cfg start history).tick cfg (r 2) ⟨0, false, false⟩).2
    .startIncoming ∈ actions ∧
      DrainSeen cfg start (history ++ [⟨.tick ⟨0, false, false⟩, r 2⟩]) := by
  intro cfg r history start actions
  have hstarts : .startIncoming ∈ actions := by decide +kernel
  have hplain : ∀ event ∈ history, PlainCall event := by
    simp [history, PlainCall]
  exact ⟨hstarts, (tick_actions_after_drain cfg (r 0) none trivial history hplain (r 2)
    ⟨0, false, false⟩).2 (Or.inr hstarts)⟩

end

end SwitchHost

end BrokerParrot
