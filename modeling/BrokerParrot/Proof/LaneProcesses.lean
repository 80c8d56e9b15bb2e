import BrokerParrot.Lib.History
import BrokerParrot.Proof.LaneControls

/-!
# Processes of a lane

Seen from one lane, a tick of the agent is a small machine on the handle that the agent holds and
the processes that are alive. A process that is alive without being held is an orphan: the handle of
a lane leaves the agent's map before the kill, so a kill that raises makes one.
-/

namespace BrokerParrot

open OrdDict List Function

namespace BoxAgent

variable {key : String} {lanes : List Lane} {lane : Lane} {state : State}

/-! ### A tick seen from one lane -/

def view (key : String) (state : State) : Option ℕ × List ℕ :=
  (state.procs.get? key, state.live key)

def laneStart (raises : Bool) (fresh : ℕ) (lane : Option ℕ × List ℕ) : Option ℕ × List ℕ :=
  if raises then lane else (some fresh, lane.2 ++ [fresh])

def laneStop (raises : Bool) : Option ℕ × List ℕ → Option ℕ × List ℕ
  | (none, live) => (none, live)
  | (some pid, live) => (none, if raises then live else live.erase pid)

def laneTick (wanted spawnRaises killRaises : Bool) (fresh : ℕ) (lane : Option ℕ × List ℕ) :
    Option ℕ × List ℕ :=
  if wanted then
    if lane.1.isSome then lane else laneStart spawnRaises fresh lane
  else
    laneStop killRaises lane

def Tidy (lane : Option ℕ × List ℕ) : Prop := lane = (none, []) ∨ ∃ pid, lane = (some pid, [pid])

section

variable (faults : Faults) (state : State) (lane : Lane)

theorem view_prune (key : String) :
    view key state.prune =
      ((state.procs.get? key).filter fun pid => (state.live key).contains pid, state.live key) :=
  Prod.ext (get?_filter _ _ _) rfl

theorem view_start :
    view lane.key (state.start faults lane) =
      laneStart (faults.spawn lane.key) state.next (view lane.key state) := by
  unfold State.start laneStart
  split
  · rfl
  · exact Prod.ext (get?_insert_self _ _ _) (update_self _ _ _)

theorem view_start_of_ne (hne : lane.key ≠ key) :
    view key (state.start faults lane) = view key state := by
  unfold State.start
  split
  · rfl
  · exact Prod.ext (get?_insert_of_ne _ _ (Ne.symm hne))
      (update_of_ne (Ne.symm hne) _ _)

theorem view_stop :
    view lane.key (state.stop faults lane) =
      laneStop (faults.kill lane.key) (view lane.key state) := by
  unfold State.stop view
  cases hheld : state.procs.get? lane.key with
  | none => exact Prod.ext hheld rfl
  | some =>
    refine Prod.ext (get?_erase_self _ _) ?_
    dsimp only [laneStop]
    split
    · rfl
    · exact update_self _ _ _

theorem view_stop_of_ne (hne : lane.key ≠ key) :
    view key (state.stop faults lane) = view key state := by
  unfold State.stop
  split
  · rfl
  · refine Prod.ext (get?_erase_of_ne _ (Ne.symm hne)) ?_
    split
    · rfl
    · exact update_of_ne (Ne.symm hne) _ _

end

section

def SomeCallRaises (lanes : List Lane) (desired : OrdDict String Bool) (faults : Faults)
    (state : State) : Prop :=
  let plan := reconcile lanes desired fun key => (state.prune.procs.get? key).isSome
  (∃ lane ∈ plan.1, faults.spawn lane.key = true) ∨ ∃ lane ∈ plan.2, faults.kill lane.key = true

variable (hnodup : (lanes.map Lane.key).Nodup) (hmem : lane ∈ lanes)
  (desired : OrdDict String Bool) (faults : Faults)

include hnodup hmem

theorem view_starts (keep : Lane → Bool) (state : State) :
    ∃ fresh, view lane.key ((lanes.filter keep).foldl (State.start faults) state) =
      if keep lane then laneStart (faults.spawn lane.key) fresh (view lane.key state)
      else view lane.key state := by
  obtain ⟨before, hbefore, hview⟩ := KeyedFold.view_filter (State.start faults) Lane.key view
    (fun state lane _ hne => view_start_of_ne faults state lane hne) hnodup hmem keep state
  exact ⟨before.next, by rw [hview, view_start, hbefore]⟩

theorem view_stops (keep : Lane → Bool) (state : State) :
    view lane.key ((lanes.filter keep).foldl (State.stop faults) state) =
      if keep lane then laneStop (faults.kill lane.key) (view lane.key state)
      else view lane.key state := by
  obtain ⟨before, hbefore, hview⟩ := KeyedFold.view_filter (State.stop faults) Lane.key view
    (fun state lane _ hne => view_stop_of_ne faults state lane hne) hnodup hmem keep state
  rw [hview, view_stop, hbefore]

theorem view_tick (state : State) :
    ∃ fresh, view lane.key (tick lanes desired faults state) =
      laneTick (wantsOn desired lane) (faults.spawn lane.key) (faults.kill lane.key) fresh
        (view lane.key state.prune) := by
  obtain ⟨fresh, hstart⟩ := view_starts hnodup hmem faults
    (fun lane => wantsOn desired lane && !(state.prune.procs.get? lane.key).isSome) state.prune
  refine ⟨fresh, ?_⟩
  unfold tick reconcile laneTick
  rw [view_stops hnodup hmem, hstart]
  -- the lane is on at most one of the two lists of the plan
  cases wantsOn desired lane with
  | true => cases hheld : state.prune.procs.get? lane.key <;> simp [view, hheld]
  | false => cases hheld : state.prune.procs.get? lane.key <;> simp [view, hheld, laneStop]

end

/-! ### Orphans -/

def Orphan (state : State) (key : String) (pid : ℕ) : Prop :=
  pid ∈ state.live key ∧ state.procs.get? key ≠ some pid

theorem view_prune_cases (hone : (state.live key).length ≤ 1) :
    (∃ pid, Orphan state key pid ∧ view key state.prune = (none, [pid])) ∨
      (∀ pid, ¬ Orphan state key pid) ∧ Tidy (view key state.prune) := by
  rw [view_prune]
  have hlive : state.live key = [] ∨ ∃ pid, state.live key = [pid] := by
    rcases Nat.le_one_iff_eq_zero_or_eq_one.mp hone with hzero | hsingle
    · exact Or.inl (length_eq_zero_iff.mp hzero)
    · exact Or.inr (length_eq_one_iff.mp hsingle)
  rcases hlive with hlive | ⟨pid, hlive⟩
  · refine Or.inr ⟨fun pid horphan => ?_, Or.inl ?_⟩
    · exact absurd (hlive ▸ horphan.1) not_mem_nil
    · rw [hlive]
      cases state.procs.get? key <;> rfl
  · by_cases hheld : state.procs.get? key = some pid
    · refine Or.inr ⟨fun other horphan => ?_, Or.inr ⟨pid, ?_⟩⟩
      · have hother : other = pid := mem_singleton.mp (hlive ▸ horphan.1)
        exact horphan.2 (hother ▸ hheld)
      · simp [hlive, hheld]
    · refine Or.inl ⟨pid, ⟨hlive ▸ mem_singleton_self pid, hheld⟩, ?_⟩
      rw [hlive]
      cases hother : state.procs.get? key with
      | none => rfl
      | some other =>
        have hne : other ≠ pid := fun heq => hheld (hother.trans (congrArg some heq))
        simp [hne]

section

variable (hnodup : (lanes.map Lane.key).Nodup) (hmem : lane ∈ lanes)
  {desired : OrdDict String Bool} {faults : Faults}

include hnodup hmem in
theorem live_tick : ∃ fresh, (tick lanes desired faults state).live lane.key =
    (laneTick (wantsOn desired lane) (faults.spawn lane.key) (faults.kill lane.key) fresh
      (view lane.key state.prune)).2 := by
  obtain ⟨fresh, hview⟩ := view_tick hnodup hmem desired faults state
  exact ⟨fresh, congrArg Prod.snd hview⟩

include hmem in
theorem start_succeeds (hclean : ¬ SomeCallRaises lanes desired faults state)
    (hwanted : wantsOn desired lane = true) (hheld : (view lane.key state.prune).1 = none) :
    faults.spawn lane.key = false := by
  dsimp only [view] at hheld
  rw [← Bool.not_eq_true]
  intro hraises
  refine hclean (Or.inl ⟨lane, mem_filter.mpr ⟨hmem, ?_⟩, hraises⟩)
  simp [hwanted, hheld]

include hmem in
theorem stop_succeeds {pid : ℕ} (hclean : ¬ SomeCallRaises lanes desired faults state)
    (hwanted : wantsOn desired lane = false) (hheld : (view lane.key state.prune).1 = some pid) :
    faults.kill lane.key = false := by
  dsimp only [view] at hheld
  rw [← Bool.not_eq_true]
  intro hraises
  refine hclean (Or.inr ⟨lane, mem_filter.mpr ⟨hmem, ?_⟩, hraises⟩)
  simp [hwanted, hheld]

variable (hone : (state.live lane.key).length ≤ 1)

include hnodup hmem hone

theorem tick_length_le_iff :
    ((tick lanes desired faults state).live lane.key).length ≤ 1 ↔
      ∀ pid, Orphan state lane.key pid → wantsOn desired lane = true →
        faults.spawn lane.key = true := by
  obtain ⟨fresh, hlive⟩ := live_tick hnodup hmem
  rw [hlive]
  rcases view_prune_cases hone with ⟨pid, horphan, hpruned⟩ | ⟨hnone, hpruned⟩
  · rw [hpruned]
    constructor
    · intro hlength _ _ hwanted
      by_contra hstarts
      simp [laneTick, laneStart, hwanted, hstarts] at hlength
    · intro hraises
      cases hwanted : wantsOn desired lane with
      | true => simp [laneTick, laneStart, hraises pid horphan hwanted]
      | false => simp [laneTick, laneStop]
  · refine iff_of_true ?_ fun pid horphan => absurd horphan (hnone pid)
    rcases hpruned with hpruned | ⟨pid, hpruned⟩
    all_goals
      rw [hpruned]
      cases wantsOn desired lane <;> cases faults.spawn lane.key <;> cases faults.kill lane.key <;>
        simp [laneTick, laneStart, laneStop]

theorem tick_live_iff_wanted_iff (hclean : ¬ SomeCallRaises lanes desired faults state) :
    ((tick lanes desired faults state).live lane.key ≠ [] ↔ wantsOn desired lane = true) ↔
      ∀ pid, Orphan state lane.key pid → wantsOn desired lane = true := by
  obtain ⟨fresh, hlive⟩ := live_tick hnodup hmem
  rw [hlive]
  rcases view_prune_cases hone with ⟨pid, horphan, hpruned⟩ | ⟨hnone, hpruned⟩
  · have hstays : (laneTick (wantsOn desired lane) (faults.spawn lane.key) (faults.kill lane.key)
        fresh (view lane.key state.prune)).2 ≠ [] := by
      rw [hpruned]
      cases wantsOn desired lane <;> cases faults.spawn lane.key <;>
        simp [laneTick, laneStart, laneStop]
    exact ⟨fun hiff _ _ => hiff.mp hstays, fun hwanted => iff_of_true hstays (hwanted pid horphan)⟩
  · refine iff_of_true ?_ fun pid horphan => absurd horphan (hnone pid)
    cases hwanted : wantsOn desired lane with
    | true =>
      rcases hpruned with hpruned | ⟨pid, hpruned⟩
      · have hspawn := start_succeeds hmem hclean hwanted (by rw [hpruned])
        simp [hpruned, laneTick, laneStart, hspawn]
      · simp [hpruned, laneTick]
    | false =>
      rcases hpruned with hpruned | ⟨pid, hpruned⟩
      · simp [hpruned, laneTick, laneStop]
      · have hkill := stop_succeeds hmem hclean hwanted (by rw [hpruned])
        simp [hpruned, laneTick, laneStop, hkill]

end

/-! ### One process per lane -/

section

variable (box : String) (manifest : Manifest)

def OnePerLane (state : State) : Prop :=
  ∀ lane ∈ manifest.lanes, (state.live lane.key).length ≤ 1

def LiveAsWanted (desired : OrdDict String Bool) (state : State) : Prop :=
  ∀ lane ∈ manifest.lanes, state.live lane.key ≠ [] ↔ wantsOn desired lane = true

/-- After the event no lane has two live processes, and after a tick in which no call raises the
live lanes are those that the rows want on. -/
def Lawful (state : State) (event : Event) : Prop :=
  OnePerLane manifest (step box manifest state event) ∧
    ∀ rows faults, event = .tick rows faults →
      ¬ SomeCallRaises manifest.lanes (desiredFromControls rows box manifest.lanes) faults state →
      LiveAsWanted manifest (desiredFromControls rows box manifest.lanes)
        (step box manifest state event)

/-- A tick that meets an orphan wants its lane on and fails to start it, or wants it off and has
a call that raises. -/
def Fair (state : State) (event : Event) : Prop :=
  ∀ rows faults, event = .tick rows faults → ∀ lane ∈ manifest.lanes, ∀ pid,
    Orphan state lane.key pid →
      if wantsOn (desiredFromControls rows box manifest.lanes) lane then
        faults.spawn lane.key = true
      else
        SomeCallRaises manifest.lanes (desiredFromControls rows box manifest.lanes) faults state

variable {box manifest}

theorem live_dies_sublist (box : String) (manifest : Manifest) (state : State)
    (key other : String) (pid : ℕ) :
    ((step box manifest state (.dies key pid)).live other).Sublist (state.live other) := by
  dsimp only [step]
  by_cases hother : other = key
  · subst hother
    rw [update_self]
    exact erase_sublist
  · rw [update_of_ne hother]

theorem lawful_iff_fair (hone : OnePerLane manifest state) (event : Event) :
    Lawful box manifest state event ↔ Fair box manifest state event := by
  cases event with
  | dies key pid =>
    refine iff_of_true ⟨fun lane hlane => ?_, fun _ _ htick => nomatch htick⟩
      fun _ _ htick => nomatch htick
    have hlive := live_dies_sublist box manifest state key lane.key pid
    exact hlive.length_le.trans (hone lane hlane)
  | tick rows faults =>
    constructor
    · rintro ⟨hlength, hwanted⟩ _ _ ⟨⟩ lane hlane pid horphan
      split
      next hon =>
        exact (tick_length_le_iff nodup_lanes hlane (hone lane hlane)).mp (hlength lane hlane)
          pid horphan hon
      next hoff =>
        by_contra hclean
        exact hoff ((tick_live_iff_wanted_iff nodup_lanes hlane (hone lane hlane) hclean).mp
          (hwanted rows faults rfl hclean lane hlane) pid horphan)
    · intro hfair
      refine ⟨fun lane hlane => ?_, ?_⟩
      · refine (tick_length_le_iff nodup_lanes hlane (hone lane hlane)).mpr ?_
        intro pid horphan hon
        simpa [hon] using hfair rows faults rfl lane hlane pid horphan
      · rintro _ _ ⟨⟩ hclean lane hlane
        refine (tick_live_iff_wanted_iff nodup_lanes hlane (hone lane hlane) hclean).mpr ?_
        intro pid horphan
        by_contra hoff
        have hraises := hfair rows faults rfl lane hlane pid horphan
        rw [if_neg hoff] at hraises
        exact hclean hraises

theorem onePerLane_init (manifest : Manifest) : OnePerLane manifest {} :=
  fun _ _ => Nat.zero_le 1

/-! ### Kills that succeed -/

def KillsSucceed (event : Event) : Prop :=
  ∀ rows faults, event = .tick rows faults → ∀ key, faults.kill key = false

def Held (manifest : Manifest) (state : State) : Prop :=
  ∀ lane ∈ manifest.lanes,
    (state.live lane.key).length ≤ 1 ∧ ∀ pid, ¬ Orphan state lane.key pid

theorem Tidy.laneTick {lane : Option ℕ × List ℕ} (htidy : Tidy lane) (wanted raises : Bool)
    (fresh : ℕ) : Tidy (laneTick wanted raises false fresh lane) := by
  rcases htidy with rfl | ⟨pid, rfl⟩
  · cases wanted <;> cases raises <;>
      simp [BoxAgent.laneTick, BoxAgent.laneStart, BoxAgent.laneStop, Tidy]
  · cases wanted <;> simp [BoxAgent.laneTick, BoxAgent.laneStop, Tidy]

theorem Tidy.held (htidy : Tidy (view key state)) :
    (state.live key).length ≤ 1 ∧ ∀ pid, ¬ Orphan state key pid := by
  have hview : view key state = (state.procs.get? key, state.live key) := rfl
  rcases htidy with hempty | ⟨own, hown⟩
  · obtain ⟨-, hlive⟩ := Prod.mk.inj (hview.symm.trans hempty)
    unfold Orphan
    simp [hlive]
  · obtain ⟨hheld, hlive⟩ := Prod.mk.inj (hview.symm.trans hown)
    unfold Orphan
    simp [hheld, hlive, eq_comm]

theorem held_step (hheld : Held manifest state) {event : Event} (hkills : KillsSucceed event) :
    Held manifest (step box manifest state event) := by
  intro lane hlane
  obtain ⟨hone, hnone⟩ := hheld lane hlane
  cases event with
  | dies key pid =>
    have hlive := live_dies_sublist box manifest state key lane.key pid
    exact ⟨hlive.length_le.trans hone,
      fun other horphan => hnone other ⟨hlive.subset horphan.1, horphan.2⟩⟩
  | tick rows faults =>
    have htidy : Tidy (view lane.key state.prune) := by
      rcases view_prune_cases hone with ⟨pid, horphan, -⟩ | ⟨-, htidy⟩
      · exact absurd horphan (hnone pid)
      · exact htidy
    obtain ⟨fresh, hview⟩ := view_tick nodup_lanes hlane
      (desiredFromControls rows box manifest.lanes) faults state
    rw [hkills rows faults rfl] at hview
    exact Tidy.held (hview ▸ htidy.laneTick _ _ fresh)

theorem fair_of_held (hheld : Held manifest state) (event : Event) :
    Fair box manifest state event :=
  fun _ _ _ lane hlane pid horphan => absurd horphan ((hheld lane hlane).2 pid)

theorem lawful_of_kills_succeed {history : List Event}
    (hkills : ∀ event ∈ history, KillsSucceed event) :
    History.Throughout (step box manifest) (Lawful box manifest) {} history := by
  have hinit : Held manifest {} :=
    fun _ _ => ⟨Nat.zero_le 1, fun _ horphan => absurd horphan.1 not_mem_nil⟩
  have hstep : ∀ state event, Held manifest state → KillsSucceed event →
      Held manifest (step box manifest state event) := fun _ _ hheld => held_step hheld
  refine History.throughout_of_invariant hstep (fun _ event hheld _ => ?_) hinit hkills
  exact (lawful_iff_fair (fun lane hlane => (hheld lane hlane).1) event).mpr
    (fair_of_held hheld event)

/-- **One process per lane.** Along every history the law holds if and only if every tick is fair in
the state that it meets. -/
theorem processes_lawful_iff (box : String) (manifest : Manifest) (history : List Event) :
    History.Throughout (step box manifest) (Lawful box manifest) {} history ↔
      History.Throughout (step box manifest) (Fair box manifest) {} history := by
  have hstep : ∀ state event, OnePerLane manifest state → Lawful box manifest state event →
      OnePerLane manifest (step box manifest state event) := fun _ _ _ hlawful => hlawful.1
  exact History.throughout_iff hstep (fun _ event hone => lawful_iff_fair hone event)
    (onePerLane_init manifest) history

/-- A history with an orphan: a kill raises, and the lane is wanted on again or stays unwanted. -/
theorem raised_kill_doubles_lane :
    ((run "box-a" twoLanes
        [.tick [] {}, .tick [gpuOff "box-a"] { kill := fun _ => true }, .tick [] {}]).live
          "studio-gpu").length = 2 ∧
      (run "box-a" twoLanes
        [.tick [] {}, .tick [gpuOff "box-a"] { kill := fun _ => true },
          .tick [gpuOff "box-a"] {}]).live "studio-gpu" ≠ [] := by
  decide

end

end BoxAgent

end BrokerParrot
