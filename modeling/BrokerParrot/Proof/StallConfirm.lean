import BrokerParrot.Watchdog
import BrokerParrot.Lib.History

/-!
# The confirmation of a stall

The confirmation remembers the highest reading of the card, but of the memory only the first reading
and the last, and it does not look at the deadline again. So a move of the memory that is over by
the last sample, one after a first sample that failed, and a beat all go unnoticed.
-/

namespace BrokerParrot

variable {cfg : StallConfig}

namespace StallRound

variable {round : StallRound}

theorem window_of_stopped {more index : ℕ} (hlt : index < more) (hstopped : round.stopped index) :
    round.window more = none := by
  induction more with
  | zero => omega
  | succ more ih =>
    rcases Nat.lt_succ_iff_lt_or_eq.mp hlt with hearlier | rfl
    · simp [window, ih hearlier]
    · cases hwindow : round.window index <;> simp [window, hwindow, hstopped]

theorem window_of_running {more : ℕ} (hrunning : ∀ index < more, round.stopped index = false) :
    ∃ maxUtil, round.window more = some (maxUtil, sampleRam (round.ram more)) ∧
      ∀ bound, maxUtil ≤ bound ↔ ∀ index ≤ more, sampleGpu (round.gpu index) ≤ bound := by
  induction more with
  | zero => exact ⟨_, rfl, fun bound => by simp⟩
  | succ more ih =>
    obtain ⟨maxUtil, hwindow, hmax⟩ := ih fun index hlt => hrunning index (by omega)
    refine ⟨max maxUtil (sampleGpu (round.gpu (more + 1))), ?_, fun bound => ?_⟩
    · simp [window, hwindow, hrunning more (by omega)]
    · simp only [max_le_iff, hmax, Nat.le_succ_iff, or_imp, forall_and, forall_eq]

def RestsToEnd (cfg : StallConfig) (round : StallRound) : Prop :=
  (∀ index < cfg.moreSamples, round.stopped index = false) ∧
    ∀ index ≤ cfg.moreSamples, sampleGpu (round.gpu index) ≤ cfg.idlePct

def RamStatic (cfg : StallConfig) (round : StallRound) : Prop :=
  ∀ first ≤ cfg.moreSamples, ∀ anchor ∈ sampleRam (round.ram first),
    (∀ index < first, sampleRam (round.ram index) = none) →
      ∀ index ≤ cfg.moreSamples, ∀ value ∈ sampleRam (round.ram index),
        |value - anchor| ≤ cfg.ramDelta

def EndsApart (cfg : StallConfig) (round : StallRound) : Prop :=
  ∃ anchor ∈ sampleRam (round.ram 0), ∃ last ∈ sampleRam (round.ram cfg.moreSamples),
    cfg.ramDelta < |last - anchor|

theorem ramMoved_iff {anchor now : Option ℤ} :
    ramMoved cfg anchor now ↔ ∃ a ∈ anchor, ∃ b ∈ now, cfg.ramDelta < |b - a| := by
  cases anchor <;> cases now <;> simp [ramMoved]

theorem confirmWedged_iff :
    round.confirmWedged cfg ↔ round.RestsToEnd cfg ∧ ¬ round.EndsApart cfg := by
  unfold confirmWedged RestsToEnd EndsApart
  by_cases hrunning : ∀ index < cfg.moreSamples, round.stopped index = false
  · obtain ⟨maxUtil, hwindow, hmax⟩ := window_of_running hrunning
    rw [hwindow, ← ramMoved_iff, ← hmax]
    simp only [decide_eq_true_eq]
    tauto
  · push Not at hrunning
    obtain ⟨index, hlt, hstopped⟩ := hrunning
    rw [window_of_stopped hlt (by simpa using hstopped)]
    simpa using fun hall => absurd (hall index hlt) hstopped

end StallRound

namespace StallWatchdog

def NoLateBeat (cfg : StallConfig) (dog : StallWatchdog) (round : StallRound) : Prop :=
  ∀ deadline ∈ (dog.beaten cfg round.beats).deadline, ∀ clock ∈ round.lateBeats, clock < deadline

def Lawful (cfg : StallConfig) (dog : StallWatchdog) (round : StallRound) : Prop :=
  dog.tripped = false → (dog.step cfg round).tripped →
    (∀ index ≤ cfg.moreSamples, sampleGpu (round.gpu index) ≤ cfg.idlePct) ∧
      round.RamStatic cfg ∧ dog.NoLateBeat cfg round

/-- If the deadline has passed and the card rests to the end of the confirmation, then a move of the
memory or a beat shows in the first and the last sample of the memory. -/
def Telling (cfg : StallConfig) (dog : StallWatchdog) (round : StallRound) : Prop :=
  dog.tripped = false → (dog.beaten cfg round.beats).expired round.clock →
    round.RestsToEnd cfg → ¬ (round.RamStatic cfg ∧ dog.NoLateBeat cfg round) →
      round.EndsApart cfg

theorem tripped_beaten (dog : StallWatchdog) (clocks : List ℚ) :
    (dog.beaten cfg clocks).tripped = dog.tripped := by
  induction clocks generalizing dog with
  | nil => rfl
  | cons clock rest ih => exact ih (dog.beat cfg clock)

theorem tripped_step_iff (hconfirm : cfg.confirmIdle = true) {dog : StallWatchdog}
    (hrunning : dog.tripped = false) (round : StallRound) :
    (dog.step cfg round).tripped ↔
      (dog.beaten cfg round.beats).expired round.clock ∧ round.confirmWedged cfg := by
  unfold step
  rw [if_neg (by simp [hrunning]), hconfirm]
  dsimp only
  split
  · split <;> simp_all [beat, tripped_beaten]
  · simp_all [tripped_beaten]

theorem lawful_iff_telling (hconfirm : cfg.confirmIdle = true) (dog : StallWatchdog)
    (round : StallRound) : dog.Lawful cfg round ↔ dog.Telling cfg round := by
  refine forall_congr' fun hrunning => ?_
  rw [tripped_step_iff hconfirm hrunning, StallRound.confirmWedged_iff]
  constructor
  · intro hlawful hexpired hrests hunseen
    by_contra happart
    exact hunseen (hlawful ⟨hexpired, hrests, happart⟩).2
  · rintro htelling ⟨hexpired, hrests, happart⟩
    by_contra hunseen
    exact happart (htelling hexpired hrests fun hcalm => hunseen ⟨hrests.2, hcalm⟩)

/-- **The confirmation of a stall.** The watchdog trips only on a card and a memory at rest and
without a late beat, if and only if in every round a move of the memory or a late beat shows in the
first and the last sample of the memory. -/
theorem stall_trip_confirmed_iff (cfg : StallConfig) (hconfirm : cfg.confirmIdle = true)
    (rounds : List StallRound) :
    History.Throughout (step cfg) (Lawful cfg) {} rounds ↔
      History.Throughout (step cfg) (Telling cfg) {} rounds := by
  have hkept : ∀ (dog : StallWatchdog) (round : StallRound), True → Lawful cfg dog round → True :=
    fun _ _ _ _ => trivial
  exact History.throughout_iff hkept (fun dog round _ => lawful_iff_telling hconfirm dog round)
    trivial rounds

def stallConfig : StallConfig := ⟨120, 5, 5120, 3, true⟩

def quietRound (ram : ℕ → Reading) (lateBeats : List ℚ) : StallRound where
  beats := [0]
  clock := 125
  gpu := fun _ => .ok (some 0)
  ram := ram
  lateBeats := lateBeats
  rearmClock := 127

/-- A load that is under way at the last sample is noticed. -/
theorem stall_trip_confirmed_iff_loading :
    History.Throughout (step stallConfig) (Lawful stallConfig) {}
      [quietRound (fun index => .ok (some (9000 * index))) []] := by
  refine (stall_trip_confirmed_iff stallConfig rfl _).mpr ?_
  rw [History.throughout_cons]
  refine ⟨fun _ _ _ _ => ?_, History.throughout_nil⟩
  exact ⟨0, rfl, 18000, rfl, by decide⟩

/-- A load that is over by the last sample, a load whose first sample failed, and a beat. -/
theorem active_worker_tripped :
    ¬ History.Throughout (step stallConfig) (Lawful stallConfig) {}
        [quietRound (fun index => .ok (some (if index = 1 then 9000 else 0))) []] ∧
      ¬ History.Throughout (step stallConfig) (Lawful stallConfig) {}
        [quietRound (fun index => .ok (if index = 0 then none else some (9000 * index))) []] ∧
      ¬ History.Throughout (step stallConfig) (Lawful stallConfig) {}
        [quietRound (fun _ => .ok (some 0)) [126]] := by
  simp only [History.throughout_cons]
  refine ⟨fun hall => ?_, fun hall => ?_, fun hall => ?_⟩
  · obtain ⟨-, hstatic, -⟩ := hall.1 rfl (by decide +kernel)
    cases hstatic 0 (by decide) 0 rfl (by simp) 1 (by decide) 9000 rfl
  · obtain ⟨-, hstatic, -⟩ := hall.1 rfl (by decide +kernel)
    exact absurd (hstatic 1 (by decide) 9000 rfl (by simp +contextual [sampleRam, quietRound]) 2
      (by decide) 18000 rfl) (by decide)
  · obtain ⟨-, -, hbeat⟩ := hall.1 rfl (by decide +kernel)
    exact absurd (hbeat 120 (by decide +kernel) 126 (by simp [quietRound])) (by norm_num)

end StallWatchdog

end BrokerParrot
