import Mathlib.Data.List.Count
import BrokerParrot.Lib.History
import BrokerParrot.Scheduler

/-!
# Which instants the ticker fires

A cycle fires for one instant only, and the next one starts from the clock as it is then. So an
instant is lost when it passes between the one that was fired and the next look at the clock, be it
in a sleep that lasts too long or while rows are enqueued. And entries without an hour of the day
fire a day later once nothing else is left.
-/

namespace BrokerParrot

variable {entry : ScheduleEntry} {now : ℤ}

namespace ScheduleEntry

variable {time : ℤ}

def At (entry : ScheduleEntry) (time : ℤ) : Prop :=
  time % hourLength = entry.minute * 60000000 ∧ ∀ hours ∈ entry.hours, hourOf time ∈ hours

instance (entry : ScheduleEntry) (time : ℤ) : Decidable (entry.At time) :=
  inferInstanceAs (Decidable (_ ∧ ∀ hours ∈ entry.hours, _))

def Satisfiable (entry : ScheduleEntry) : Prop :=
  ∀ hours ∈ entry.hours, ∃ hour ∈ hours, hour < 24

theorem At.satisfiable (hat : entry.At time) : entry.Satisfiable :=
  fun hours hhours => ⟨_, hat.2 hours hhours, by unfold hourOf; omega⟩

theorem candidate_spec (entry : ScheduleEntry) (now : ℤ) :
    now < entry.candidate now ∧ entry.candidate now ≤ now + hourLength ∧
      entry.candidate now % hourLength = entry.minute * 60000000 := by
  have hminute := entry.minute_le
  unfold candidate hourLength
  dsimp only
  split <;> omega

theorem exists_candidate_add (htime : time % hourLength = entry.minute * 60000000)
    (hlater : now < time) : ∃ hours : ℕ, time = entry.candidate now + hours * hourLength := by
  obtain ⟨hafter, hsoon, hmod⟩ := entry.candidate_spec now
  unfold hourLength at *
  exact ⟨((time - entry.candidate now) / 3600000000).toNat, by omega⟩

theorem walk_spec (hours : List ℕ) (steps : ℕ) (time : ℤ) :
    ∃ count ≤ steps, walk hours steps time = time + count * hourLength ∧
      (∀ earlier < count, hourOf (time + earlier * hourLength) ∉ hours) ∧
      (count < steps → hourOf (time + count * hourLength) ∈ hours) := by
  induction steps generalizing time with
  | zero => exact ⟨0, le_rfl, by simp [walk], by simp, by simp⟩
  | succ steps ih =>
    by_cases hallowed : hourOf time ∈ hours
    · exact ⟨0, by omega, by simp [walk, hallowed], by simp, fun _ => by simpa using hallowed⟩
    obtain ⟨count, hle, hwalk, hearlier, hfound⟩ := ih (time + hourLength)
    have hshift (step : ℕ) :
        time + (step + 1 : ℕ) * hourLength = time + hourLength + step * hourLength := by
      unfold hourLength
      omega
    refine ⟨count + 1, by omega, ?_, fun earlier hlt => ?_, fun hlt => ?_⟩
    · rw [walk, if_neg hallowed, hwalk, hshift]
    · rcases earlier with _ | earlier
      · simpa using hallowed
      · rw [hshift]
        exact hearlier earlier (by omega)
    · rw [hshift]
      exact hfound (by omega)

theorem exists_hour (time : ℤ) {hour : ℕ} (hlt : hour < 24) :
    ∃ count : ℕ, count < 24 ∧ hourOf (time + count * hourLength) = hour := by
  unfold hourOf hourLength
  exact ⟨((hour - time / 3600000000) % 24).toNat, by omega, by omega⟩

theorem nextFireAt_spec (entry : ScheduleEntry) (now : ℤ) :
    now < entry.nextFireAt now ∧
      (∀ time, entry.At time → now < time → entry.nextFireAt now ≤ time) ∧
      (entry.Satisfiable →
        entry.At (entry.nextFireAt now) ∧ entry.nextFireAt now ≤ now + 24 * hourLength) ∧
      (¬ entry.Satisfiable → now + 24 * hourLength < entry.nextFireAt now) := by
  obtain ⟨hafter, hsoon, hmod⟩ := entry.candidate_spec now
  unfold nextFireAt
  cases hhours : entry.hours with
  | none =>
    dsimp only
    refine ⟨hafter, fun time hat hlater => ?_, fun _ => ⟨⟨hmod, by simp [hhours]⟩, ?_⟩, ?_⟩
    · obtain ⟨count, rfl⟩ := exists_candidate_add hat.1 hlater
      unfold hourLength
      omega
    · omega
    · simp [Satisfiable, hhours]
  | some hours =>
    dsimp only
    obtain ⟨count, hle, hwalk, hearlier, hfound⟩ := walk_spec hours 24 (entry.candidate now)
    have hbefore {steps : ℕ} (hin : hourOf (entry.candidate now + steps * hourLength) ∈ hours) :
        count ≤ steps := by
      by_contra hlt
      exact hearlier steps (by omega) hin
    rw [hwalk]
    refine ⟨by unfold hourLength; omega, fun time hat hlater => ?_, fun hsat => ?_,
      fun hnone => ?_⟩
    · obtain ⟨steps, rfl⟩ := exists_candidate_add hat.1 hlater
      have := hbefore (hat.2 hours hhours)
      unfold hourLength
      omega
    · obtain ⟨hour, hhour, hlt⟩ := hsat hours hhours
      obtain ⟨steps, hsteps, heq⟩ := exists_hour (entry.candidate now) hlt
      have hcount := hbefore (heq ▸ hhour)
      refine ⟨⟨?_, fun allowed hallowed => ?_⟩, ?_⟩
      · unfold hourLength at *
        omega
      · obtain rfl := Option.mem_unique hhours hallowed
        exact hfound (by omega)
      · unfold hourLength at *
        omega
    · -- No hour of the day is in the list, so the walk goes all the way round.
      have hfull : count = 24 := by
        by_contra hshort
        refine hnone fun allowed hallowed => ?_
        obtain rfl := Option.mem_unique hhours hallowed
        exact ⟨_, hfound (by omega), by unfold hourOf; omega⟩
      unfold hourLength
      omega

end ScheduleEntry

open ScheduleEntry List

variable {schedule : List ScheduleEntry}

theorem soonest_spec (hne : schedule ≠ []) (now : ℤ) :
    (∃ entry ∈ schedule, entry.nextFireAt now = (soonest schedule now).1) ∧
      ∀ entry ∈ schedule, (soonest schedule now).1 ≤ entry.nextFireAt now := by
  have hsome : ((schedule.map fun entry => entry.nextFireAt now).min?).isSome := by
    simpa [isSome_min?_iff] using hne
  obtain ⟨least, hleast⟩ := Option.isSome_iff_exists.mp hsome
  have hfirst : (soonest schedule now).1 = least := by simp [soonest, hleast]
  obtain ⟨hmem, hmin⟩ := min?_eq_some_iff.mp hleast
  rw [hfirst]
  exact ⟨mem_map.mp hmem, fun entry hentry => hmin _ (mem_map_of_mem hentry)⟩

namespace Ticker

variable {ticker : Ticker}

/-- Every instant that has passed was fired once for each time its entry is in the schedule, and
nothing else was. -/
def Exact (schedule : List ScheduleEntry) (ticker : Ticker) : Prop :=
  ∀ entry time, ticker.fired.count (time, entry) =
    if entry.At time ∧ ticker.first < time ∧ time ≤ ticker.last then schedule.count entry else 0

def Lawful (schedule : List ScheduleEntry) (ticker : Ticker) (elapsed : ℕ) : Prop :=
  (ticker.step schedule elapsed).Exact schedule

/-- No instant passes from the last reading, or the instant that is due, to the next reading, and
what is due is not only what can never fire. -/
def Fair (schedule : List ScheduleEntry) (ticker : Ticker) (elapsed : ℕ) : Prop :=
  match ticker.pending with
  | none => ∀ entry ∈ schedule, ∀ time, entry.At time → ticker.last < time →
      ticker.last + elapsed < time
  | some (instant, _) => instant ≤ ticker.last + elapsed →
      (∃ entry ∈ schedule, entry.Satisfiable) ∧
        ∀ entry ∈ schedule, ∀ time, entry.At time → instant < time →
          ticker.last + elapsed < time

def Sound (schedule : List ScheduleEntry) (ticker : Ticker) : Prop :=
  ticker.first ≤ ticker.last ∧ ∀ pending ∈ ticker.pending, ∃ looked ≤ ticker.last,
    ticker.last < pending.1 ∧ pending = soonest schedule looked

theorem sound_start (hne : schedule ≠ []) (now : ℤ) : (start schedule now).Sound schedule := by
  refine ⟨le_rfl, fun pending hpending => ⟨now, le_rfl, ?_, (Option.some.inj hpending).symm⟩⟩
  cases hpending
  obtain ⟨⟨entry, -, hentry⟩, -⟩ := soonest_spec hne now
  exact hentry ▸ (entry.nextFireAt_spec now).1

theorem exact_iff_new (after : Ticker) {new : List (ℤ × ScheduleEntry)}
    (hexact : ticker.Exact schedule) (hfirst : ticker.first ≤ ticker.last)
    (hlast : ticker.last ≤ after.last) (hsame : after.first = ticker.first)
    (hfired : after.fired = ticker.fired ++ new) :
    after.Exact schedule ↔ ∀ entry time, new.count (time, entry) =
      if entry.At time ∧ ticker.last < time ∧ time ≤ after.last then schedule.count entry
      else 0 := by
  refine forall_congr' fun entry => forall_congr' fun time => ?_
  rw [hfired, count_append, hexact entry time, hsame]
  by_cases hat : entry.At time
  · simp only [hat, true_and]
    split_ifs <;> omega
  · simp [hat]

theorem none_new_iff :
    (∀ entry time, ([] : List (ℤ × ScheduleEntry)).count (time, entry) =
        if entry.At time ∧ ticker.last < time ∧ time ≤ now then schedule.count entry else 0) ↔
      ∀ entry ∈ schedule, ∀ time, entry.At time → ticker.last < time → now < time := by
  constructor
  · intro hnone entry hentry time hat hlater
    by_contra hpassed
    have hcount := hnone entry time
    rw [if_pos ⟨hat, hlater, not_lt.mp hpassed⟩] at hcount
    exact absurd (count_pos_iff.mpr hentry) (by simp [← hcount])
  · intro hfair entry time
    split
    · next hpassed =>
      refine (count_eq_zero.mpr fun hentry => ?_).symm
      exact absurd (hfair entry hentry time hpassed.1 hpassed.2.1) (not_lt.mpr hpassed.2.2)
    · rfl

theorem count_due (looked : ℤ) (entry : ScheduleEntry) (time : ℤ) :
    ((soonest schedule looked).2.map fun entry => ((soonest schedule looked).1, entry)).count
        (time, entry) =
      if time = (soonest schedule looked).1 ∧ entry.nextFireAt looked = time then
        schedule.count entry
      else 0 := by
  split
  · next hdue =>
    rw [hdue.1, count_map_of_injective _ _ (Prod.mk_right_injective _)]
    exact count_filter (decide_eq_true (hdue.2.trans hdue.1))
  · next hnot =>
    refine count_eq_zero.mpr fun hmem => hnot ?_
    obtain ⟨found, hfound, heq⟩ := mem_map.mp hmem
    cases heq
    exact ⟨rfl, of_decide_eq_true (mem_filter.mp hfound).2⟩

section

variable (hne : schedule ≠ [])

include hne

theorem soonest_le (hentry : entry ∈ schedule) {looked time : ℤ} (hat : entry.At time)
    (hlater : looked < time) : (soonest schedule looked).1 ≤ time :=
  ((soonest_spec hne looked).2 entry hentry).trans
    ((entry.nextFireAt_spec looked).2.1 time hat hlater)

theorem at_soonest_iff (hsat : ∃ entry ∈ schedule, entry.Satisfiable) (hentry : entry ∈ schedule)
    (looked : ℤ) :
    entry.nextFireAt looked = (soonest schedule looked).1 ↔
      entry.At (soonest schedule looked).1 := by
  obtain ⟨hlater, hleast, hat, hnever⟩ := entry.nextFireAt_spec looked
  have hmin := (soonest_spec hne looked).2
  constructor
  · intro hdue
    by_cases hentrySat : entry.Satisfiable
    · rw [← hdue]
      exact (hat hentrySat).1
    · -- What cannot fire comes after what can.
      obtain ⟨other, hother, hotherSat⟩ := hsat
      have hsoon := ((other.nextFireAt_spec looked).2.2.1 hotherSat).2
      exact absurd ((hmin other hother).trans hsoon) (not_le.mpr (hdue ▸ hnever hentrySat))
  · intro hinstant
    obtain ⟨⟨other, -, hother⟩, -⟩ := soonest_spec hne looked
    have hlooked := (other.nextFireAt_spec looked).1
    exact le_antisymm (hleast _ hinstant (hother ▸ hlooked)) (hmin entry hentry)

theorem exact_step_iff (hsound : ticker.Sound schedule) (hexact : ticker.Exact schedule)
    (elapsed : ℕ) :
    (ticker.step schedule elapsed).Exact schedule ↔ ticker.Fair schedule elapsed := by
  obtain ⟨hfirst, hpending⟩ := hsound
  have hlast : ticker.last ≤ ticker.last + elapsed := by omega
  unfold step Fair
  cases hcase : ticker.pending with
  | none =>
    refine (exact_iff_new ⟨_, _, _, _⟩ hexact hfirst hlast rfl (append_nil _).symm).trans ?_
    exact none_new_iff
  | some pending =>
    obtain ⟨looked, hlooked, hsleeps, rfl⟩ := hpending pending hcase
    dsimp only
    split
    · next hdue =>
      refine (exact_iff_new ⟨_, _, _, _⟩ hexact hfirst hlast rfl rfl).trans ?_
      simp only [count_due, hdue, true_implies]
      constructor
      · intro hnew
        obtain ⟨⟨found, hfound, hsoon⟩, -⟩ := soonest_spec hne looked
        refine ⟨⟨found, hfound, ?_⟩, fun entry hentry time hat hlater => ?_⟩
        · have hcount := hnew found (soonest schedule looked).1
          rw [if_pos ⟨rfl, hsoon⟩] at hcount
          by_contra hnever
          rw [if_neg fun hpassed => hnever hpassed.1.satisfiable] at hcount
          exact absurd (count_pos_iff.mpr hfound) (by simp [hcount])
        · by_contra hpassed
          have hcount := hnew entry time
          rw [if_neg fun heq => hlater.ne' heq.1, if_pos ⟨hat, by omega, by omega⟩] at hcount
          exact absurd (count_pos_iff.mpr hentry) (by simp [← hcount])
      · rintro ⟨hsat, hfair⟩ entry time
        by_cases hentry : entry ∈ schedule
        · refine if_congr ⟨?_, ?_⟩ rfl rfl
          · rintro ⟨rfl, hnext⟩
            exact ⟨(at_soonest_iff hne hsat hentry looked).mp hnext, hsleeps, hdue⟩
          · rintro ⟨hat, hlater, hpassed⟩
            have hsoon := soonest_le hne hentry hat (hlooked.trans_lt hlater)
            obtain rfl : time = (soonest schedule looked).1 := by
              by_contra hother
              have := hfair entry hentry time hat (by omega)
              omega
            exact ⟨rfl, (at_soonest_iff hne hsat hentry looked).mpr hat⟩
        · simp [count_eq_zero.mpr hentry]
    · next hsleep =>
      refine (exact_iff_new ⟨_, _, _, _⟩ hexact hfirst hlast rfl
        (append_nil _).symm).trans ?_
      refine iff_of_true (none_new_iff.mpr fun entry hentry time hat hlater => ?_)
        fun hdue => absurd hdue hsleep
      exact (not_le.mp hsleep).trans_le (soonest_le hne hentry hat (hlooked.trans_lt hlater))

theorem sound_step (hsound : ticker.Sound schedule) (elapsed : ℕ) :
    (ticker.step schedule elapsed).Sound schedule := by
  obtain ⟨hfirst, hpending⟩ := hsound
  unfold step
  cases hcase : ticker.pending with
  | none =>
    obtain ⟨-, hstart⟩ := sound_start hne (ticker.last + elapsed)
    exact ⟨by dsimp only; omega, hstart⟩
  | some pending =>
    obtain ⟨looked, hlooked, hsleeps, hsoonest⟩ := hpending pending hcase
    dsimp only
    split
    · exact ⟨by dsimp only; omega, nofun⟩
    · next hsleep =>
      refine ⟨by dsimp only; omega, fun found hfound => ?_⟩
      cases hfound
      exact ⟨looked, by dsimp only; omega, by dsimp only; omega, hsoonest⟩

end

/-- **Every instant once.** Exactly the instants that have passed are fired, if and only if none
passes between one that is fired and the next look at the clock, and some entry can fire at all. -/
theorem instants_fired_once_iff (schedule : List ScheduleEntry) (hne : schedule ≠ []) (now : ℤ)
    (clock : List ℕ) :
    History.Throughout (step schedule) (Lawful schedule) (start schedule now) clock ↔
      History.Throughout (step schedule) (Fair schedule) (start schedule now) clock := by
  have hstart : (start schedule now).Exact schedule := by
    intro entry time
    rw [if_neg (by simp only [start]; omega)]
    rfl
  have hkept (ticker : Ticker) (elapsed : ℕ) (hinv : ticker.Sound schedule ∧ ticker.Exact schedule)
      (hexact : ticker.Lawful schedule elapsed) :
      (ticker.step schedule elapsed).Sound schedule ∧ ticker.Lawful schedule elapsed :=
    ⟨sound_step hne hinv.1 elapsed, hexact⟩
  exact History.throughout_iff hkept
    (fun ticker elapsed hinv => exact_step_iff hne hinv.1 hinv.2 elapsed)
    ⟨sound_start hne now, hstart⟩ clock

def hourly (minute : ℕ) (hminute : minute ≤ 59) : ScheduleEntry :=
  { name := "", minute := minute, taskName := "fetch", queue := "fetch", minute_le := hminute }

/-- The ticker wakes too early, then fires the first entry, looks at the clock in time for the
second one and fires it. -/
theorem instants_fired_once_iff_pair :
    let schedule := [hourly 1 (by decide), { hourly 2 (by decide) with hours := some [0] }]
    History.Throughout (step schedule) (Lawful schedule) (start schedule 0)
      [45000000, 20000000, 5000000, 50000000] := by
  intro schedule
  refine (instants_fired_once_iff schedule (cons_ne_nil _ _) 0 _).mpr ?_
  have hfirst : soonest schedule 0 = (60000000, schedule.take 1) := by decide +kernel
  have hsecond : soonest schedule 70000000 = (120000000, schedule.drop 1) := by decide +kernel
  have hgap (early late : ℤ) (hearly : 60000000 ≤ early) (hlate : late < 120000000) :
      ∀ entry ∈ schedule, ∀ time, entry.At time → early < time → late < time := by
    intro entry hmem time hat hlater
    have hminute : time % 3600000000 = 60000000 ∨ time % 3600000000 = 120000000 := by
      rcases mem_cons.mp hmem with rfl | hmem
      · exact Or.inl hat.1
      · obtain rfl := mem_singleton.mp hmem
        exact Or.inr hat.1
    omega
  have hsatisfiable : ∃ entry ∈ schedule, entry.Satisfiable := ⟨_, mem_cons_self, nofun⟩
  have hfires := hgap 60000000 65000000 (by decide) (by decide)
  have hlooks := hgap 65000000 70000000 (by decide) (by decide)
  simpa [History.throughout_cons, History.throughout_nil, Fair, start, step, hfirst,
    hsecond] using And.intro ⟨hsatisfiable, hfires⟩ ⟨hlooks, hsatisfiable⟩

/-- To enqueue the first entry takes half a minute longer than the second one allows. And an entry
without hours fires after a day. -/
theorem late_look_loses_instant :
    let schedule := [hourly 0 (by decide), hourly 1 (by decide)]
    let never := [{ hourly 0 (by decide) with hours := some [] }]
    ¬ History.Throughout (step schedule) (Lawful schedule) (start schedule (-1)) [1, 90000000] ∧
      ¬ History.Throughout (step never) (Lawful never) (start never (-1)) [86400000001] := by
  intro schedule never
  simp only [History.throughout_cons]
  refine ⟨fun hall => ?_, fun hall => ?_⟩
  · exact absurd (hall.2.1 (hourly 1 (by decide)) 60000000) (by decide +kernel)
  · exact absurd (hall.1 { hourly 0 (by decide) with hours := some [] } 86400000000)
      (by decide +kernel)

end Ticker

end BrokerParrot
