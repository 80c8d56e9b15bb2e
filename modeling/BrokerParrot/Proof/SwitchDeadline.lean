import Mathlib.Tactic.Linarith
import BrokerParrot.Proof.SwitchEffects

/-!
# The absolute deadline of a switch

A switch takes its box out of service, so it may last as long as its three phases together and no
longer, and the clock runs from the request.

When a switch was first requested is followed beside the machine, without looking at the field the
machine itself goes by: the request sets it, a record that reaches the disk takes it along, and a
new process takes over what was recorded.
-/

namespace BrokerParrot

/-- A line of processes over one persist file. `origin` is the wall time the switch in memory was
first requested at, `recorded` the same for the switch on disk. -/
structure SwitchLineage where
  host : SwitchHost
  origin : Option ℚ
  recorded : Option ℚ

namespace SwitchLineage

def originAfter (line : SwitchLineage) (event : SwitchEvent) (after : SwitchHost) : Option ℚ :=
  if after.switch.state = .idle then
    none
  else
    match event.call with
    | .request .. =>
      if line.host.switch.state = .idle then some (event.readings.wall .requested)
      else line.origin
    | .restart => line.recorded
    | _ => line.origin

def step (cfg : SwitchConfig) (line : SwitchLineage) (event : SwitchEvent) : SwitchLineage :=
  let host := line.host.step cfg event
  let origin := line.originAfter event host
  { host := host
    origin := origin
    -- A file that changed was written by this call and holds the switch now in memory.
    recorded := if host.file = line.host.file then line.recorded else origin }

def run (cfg : SwitchConfig) (line : SwitchLineage) (history : List SwitchEvent) : SwitchLineage :=
  history.foldl (step cfg) line

def start (cfg : SwitchConfig) (r : Readings) (file : Option PersistFile) : SwitchLineage :=
  step cfg
    { host := ⟨SwitchState.fresh, file⟩
      origin := none
      recorded := (PersistFile.recorded file).map ActiveSwitch.requested }
    ⟨.restart, r⟩

structure Faithful (line : SwitchLineage) : Prop where
  memory : ∃ active, line.host.switch.Carries active ∧
    line.origin = active.map ActiveSwitch.requested
  disk : line.recorded = (PersistFile.recorded line.host.file).map ActiveSwitch.requested

section

variable {cfg : SwitchConfig} {line : SwitchLineage} {event : SwitchEvent}
  {active : Option ActiveSwitch} {after mid : SwitchHost} {r : Readings}

theorem originAfter_of_idle (hidle : after.switch.Carries none) :
    line.originAfter event after = none :=
  if_pos hidle

theorem originAfter_of_kept {active : ActiveSwitch} (hbefore : line.host.switch.state ≠ .idle)
    (hafter : after.switch.Carries (some active)) (hcall : event.call ≠ .restart) :
    line.originAfter event after = line.origin := by
  unfold originAfter
  rw [if_neg hafter.1]
  split
  · exact if_neg hbefore
  · rename_i hrestart
    exact absurd hrestart hcall
  · rfl

theorem recorded_after_persist {recorded : Option ℚ} (hcarries : mid.switch.Carries active)
    (hdisk : recorded = (PersistFile.recorded mid.file).map ActiveSwitch.requested) :
    (if (mid.persist cfg r).file = mid.file then recorded
      else active.map ActiveSwitch.requested) =
        (PersistFile.recorded (mid.persist cfg r).file).map ActiveSwitch.requested := by
  by_cases hsame : (mid.persist cfg r).file = mid.file
  · rw [if_pos hsame, hsame, hdisk]
  · have hwritten := (mid.persist_file cfg r).resolve_left hsame
    rw [if_neg hsame, hwritten,
      PersistFile.recorded_persisted r (SwitchHost.persist_carries hcarries)]

theorem Faithful.of_step {next : Option ActiveSwitch} (hstep : line.host.step cfg event = after)
    (hcarries : after.switch.Carries next)
    (horigin : line.originAfter event after = next.map ActiveSwitch.requested)
    (hdisk : (if after.file = line.host.file then line.recorded
      else next.map ActiveSwitch.requested) =
        (PersistFile.recorded after.file).map ActiveSwitch.requested) :
    (line.step cfg event).Faithful := by
  subst hstep
  rw [← horigin] at hdisk
  exact ⟨⟨next, hcarries, horigin⟩, hdisk⟩

theorem Faithful.of_persist {next : Option ActiveSwitch} (hline : line.Faithful)
    (hstep : line.host.step cfg event = mid.persist cfg event.readings)
    (hfile : mid.file = line.host.file) (hcarries : mid.switch.Carries next)
    (horigin : line.originAfter event (mid.persist cfg event.readings) =
      next.map ActiveSwitch.requested) : (line.step cfg event).Faithful := by
  refine Faithful.of_step hstep (SwitchHost.persist_carries hcarries) horigin ?_
  rw [← hfile]
  apply recorded_after_persist hcarries
  rw [hfile]
  exact hline.disk

theorem Faithful.of_memory {sw : ServerSwitch} (hline : line.Faithful)
    (hstep : line.host.step cfg event = { line.host with switch := sw })
    (hbefore : line.host.switch.Carries active)
    (horigin : line.origin = active.map ActiveSwitch.requested) (hcarries : sw.Carries active)
    (hcall : event.call ≠ .restart) : (line.step cfg event).Faithful := by
  refine Faithful.of_step hstep hcarries ?_ ((if_pos rfl).trans hline.disk)
  cases active with
  | none => exact originAfter_of_idle hcarries
  | some => rw [originAfter_of_kept hbefore.1 hcarries hcall, horigin]

theorem requested_of_resumable {file : Option PersistFile} {active : ActiveSwitch}
    (hresumed : PersistFile.resumable cfg r file = some active) :
    (PersistFile.recorded file).map ActiveSwitch.requested = some active.requested := by
  obtain ⟨hrecorded, -⟩ := Option.filter_eq_some_iff.mp hresumed
  rw [hrecorded]
  rfl

theorem Faithful.restart (hline : line.Faithful) (hcall : event.call = .restart) :
    (line.step cfg event).Faithful := by
  obtain ⟨call, r⟩ := event
  obtain rfl : call = .restart := hcall
  by_cases hpath : cfg.persistPath = true
  · obtain ⟨sw, heq, -, hcarries⟩ := SwitchHost.resumePersisted_spec hpath r line.host.file
    refine hline.of_persist heq rfl hcarries ?_
    have hafter : (SwitchHost.persist cfg r ⟨sw, line.host.file⟩).switch.Carries
        (PersistFile.resumable cfg r line.host.file) := SwitchHost.persist_carries hcarries
    cases hresumed : PersistFile.resumable cfg r line.host.file with
    | none =>
      rw [hresumed] at hafter
      exact originAfter_of_idle hafter
    | some active =>
      rw [hresumed] at hafter
      calc line.originAfter ⟨.restart, r⟩ (SwitchHost.persist cfg r ⟨sw, line.host.file⟩)
          = line.recorded := if_neg hafter.1
        _ = (PersistFile.recorded line.host.file).map ActiveSwitch.requested := hline.disk
        _ = some active.requested := requested_of_resumable hresumed
  · have heq : line.host.step cfg ⟨.restart, r⟩ = ⟨SwitchState.fresh, line.host.file⟩ :=
      SwitchHost.resumePersisted_of_no_path (Bool.eq_false_of_not_eq_true hpath) r line.host.file
    have hidle : ServerSwitch.Carries SwitchState.fresh none := rfl
    exact Faithful.of_step heq hidle (originAfter_of_idle hidle) ((if_pos rfl).trans hline.disk)

theorem originAfter_of_edit {after : SwitchHost} {active next : Option ActiveSwitch}
    {holds : OrdDict String Hold} (hbefore : line.host.switch.Carries active)
    (horigin : line.origin = active.map ActiveSwitch.requested)
    (hafter : after.switch.Carries next) (hcall : event.call ≠ .restart)
    (hedit : SwitchHost.Edit cfg line.host event active next holds) :
    line.originAfter event after = next.map ActiveSwitch.requested := by
  cases hedit with
  | requested named hrequest =>
    unfold originAfter
    rw [if_neg hafter.1, hrequest]
    exact if_pos hbefore
  | kept => rw [originAfter_of_kept hbefore.1 hafter hcall, horigin]
  | ended | failed | succeeded => exact originAfter_of_idle hafter
  | cleared active =>
    cases active with
    | none => exact originAfter_of_idle hafter
    | some => rw [originAfter_of_kept hbefore.1 hafter hcall, horigin]

theorem Faithful.step (hline : line.Faithful) (event : SwitchEvent) :
    (line.step cfg event).Faithful := by
  by_cases hcall : event.call = .restart
  · exact hline.restart hcall
  · obtain ⟨active, hbefore, horigin⟩ := hline.memory
    generalize hstep : line.host.step cfg event = after
    have heffect : SwitchHost.Effect cfg line.host event active after :=
      hstep ▸ SwitchHost.step_effect hbefore hcall
    cases heffect with
    | quiet sw hcarries | pruned sw hcarries =>
      exact hline.of_memory hstep hbefore horigin hcarries hcall
    | wrote sw next hcarries hedit =>
      refine hline.of_persist hstep rfl hcarries ?_
      exact originAfter_of_edit hbefore horigin (SwitchHost.persist_carries hcarries) hcall hedit

theorem faithful_start (cfg : SwitchConfig) (r : Readings) (file : Option PersistFile) :
    (start cfg r file).Faithful := by
  apply Faithful.step
  exact ⟨⟨none, rfl, rfl⟩, rfl⟩

theorem faithful_run (hline : line.Faithful) (history : List SwitchEvent) :
    (line.run cfg history).Faithful :=
  List.foldlRecOn history (SwitchLineage.step cfg) hline fun _ hbefore event _ =>
    hbefore.step event

end

/-! ### Past the deadline -/

section

variable {cfg : SwitchConfig} {r : Readings} {host : SwitchHost} {active : ActiveSwitch}

variable (hcarries : host.switch.Carries (some active))
  (hlate : active.requested + cfg.budgetTotal ≤ r.wall .remaining)

include hcarries hlate

theorem remaining_nonpos : host.switch.remaining cfg (r.wall .remaining) ≤ 0 := by
  have hwall : host.switch.requestedWall = some active.requested := hcarries.2.2.2.2
  unfold SwitchState.remaining
  rw [hwall]
  linarith

theorem blocksClaims_of_late : (host.blocksClaims cfg r).2 = false := by
  unfold SwitchHost.blocksClaims
  rw [if_neg hcarries.1, if_pos (remaining_nonpos hcarries hlate)]

theorem tick_of_late (obs : Observations) : (host.tick cfg r obs).2 = [.abort] := by
  unfold SwitchHost.tick
  rw [if_neg hcarries.1, if_pos (remaining_nonpos hcarries hlate)]
  rfl

end

/-- **The absolute deadline.** A switch in progress was first requested at some time, and from that
time plus the three phase budgets on the box takes claims and a tick only gives the switch up. -/
theorem switch_deadline (cfg : SwitchConfig) (r₀ : Readings) (file : Option PersistFile)
    (history : List SwitchEvent) :
    let line := (start cfg r₀ file).run cfg history
    (line.host.switch.state ≠ .idle ↔ line.origin.isSome) ∧
      ∀ t₀, line.origin = some t₀ → ∀ r : Readings,
        t₀ + cfg.drainTimeoutS + cfg.unloadTimeoutS + cfg.warmTimeoutS ≤ r.wall .remaining →
          (line.host.blocksClaims cfg r).2 = false ∧
            ∀ obs, ∀ action ∈ (line.host.tick cfg r obs).2, action = .abort := by
  intro line
  have hline : line.Faithful := faithful_run (faithful_start cfg r₀ file) history
  obtain ⟨active, hcarries, horigin⟩ := hline.memory
  constructor
  · rw [horigin, Option.isSome_map, ne_eq, hcarries.idle_iff, Option.isSome_iff_ne_none]
  · intro t₀ ht₀ r hlate
    rw [horigin, Option.map_eq_some_iff] at ht₀
    obtain ⟨active, rfl, rfl⟩ := ht₀
    have hdeadline : active.requested + cfg.budgetTotal ≤ r.wall .remaining := by
      unfold SwitchConfig.budgetTotal
      linarith
    refine ⟨blocksClaims_of_late hcarries hdeadline, ?_⟩
    intro obs action hmem
    rw [tick_of_late hcarries hdeadline obs] at hmem
    exact List.mem_singleton.mp hmem

/-- A switch requested at 100 whose abort never reached the disk: the next process takes the stale
record up at 2000, and its deadline is still 5800. -/
theorem switch_deadline_stale :
    let cfg : SwitchConfig := { persistPath := true }
    let r (wall : ℚ) (writeOk : Bool) : Readings := ⟨wall, fun _ => wall, writeOk⟩
    let history : List SwitchEvent :=
      [⟨.request "vllm" none false, r 100 true⟩, ⟨.abandon "", r 200 false⟩,
        ⟨.restart, r 2000 true⟩]
    let line := (start cfg (r 0 true) none).run cfg history
    line.origin = some 100 ∧ (line.host.blocksClaims cfg (r 5799 true)).2 = true ∧
      (line.host.blocksClaims cfg (r 5800 true)).2 = false := by
  intro cfg r history line
  have horigin : line.origin = some 100 := by decide +kernel
  have hblocked : (line.host.blocksClaims cfg (r 5799 true)).2 = true := by decide +kernel
  have hlate : (100 : ℚ) + cfg.drainTimeoutS + cfg.unloadTimeoutS + cfg.warmTimeoutS ≤
      (r 5800 true).wall .remaining := by decide +kernel
  exact ⟨horigin, hblocked,
    ((switch_deadline cfg (r 0 true) none history).2 100 horigin (r 5800 true) hlate).1⟩

end SwitchLineage

end BrokerParrot
