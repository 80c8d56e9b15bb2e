import BrokerParrot.Proof.Unassignable

/-!
# Two sweeps on one flag

The capacity sweep and the server sweep write the same two columns. Each clears only flags of its
own wording and raises only where no flag stands, so of two reasons a row carries one. When the
later sweep lifts that reason, the earlier one has passed already.
-/

namespace BrokerParrot

structure FlagRule where
  own : RedFlag → Prop
  clears : NodeJob → RedFlag → Prop
  raises : NodeJob → RedFlag → Prop
  flag : NodeJob → RedFlag
  raised_of_clears : ∀ {row flag}, clears row flag → flag.raisedAt ≠ none
  own_of_clears : ∀ {row flag}, clears row flag → own flag
  none_of_raises : ∀ {row flag}, raises row flag → flag.raisedAt = none
  apart : ∀ {row flag other}, clears row flag → ¬ raises row other
  raised : ∀ row, (flag row).raisedAt ≠ none
  own_flag : ∀ {row other}, raises row other → own (flag row)

variable {first second : FlagRule} {row : NodeJob} {fleet : Fleet}
  {clears raises : Fleet → JobId → NodeJob → Prop}

namespace FlagRule

def Quiet (rule : FlagRule) (row : NodeJob) (flag : RedFlag) : Prop :=
  ¬ rule.clears row flag ∧ ¬ rule.raises row flag

def Step (rule : FlagRule) (row : NodeJob) (flag after : RedFlag) : Prop :=
  (rule.clears row flag ∧ after = {}) ∨ (rule.raises row flag ∧ after = rule.flag row) ∨
    (rule.Quiet row flag ∧ after = flag)

variable {flag middle after : RedFlag}

theorem Step.quiet (hstep : first.Step row flag after) : first.Quiet row after := by
  rcases hstep with ⟨hclears, rfl⟩ | ⟨hraises, rfl⟩ | ⟨hquiet, rfl⟩
  · exact ⟨fun h => first.raised_of_clears h rfl, first.apart hclears⟩
  · exact ⟨fun h => first.apart h hraises, fun h => first.raised row (first.none_of_raises h)⟩
  · exact hquiet

/-- After both sweeps, the first has a row to write only if the second has just cleared it. -/
theorem quiet_iff (hown : ∀ flag, first.own flag → ¬ second.own flag)
    (hfirst : first.Step row flag middle) (hsecond : second.Step row middle after) :
    first.Quiet row after ↔ ¬ (second.clears row flag ∧ first.raises row {}) := by
  have hsame (hclears : second.clears row flag) : middle = flag := by
    rcases hfirst with ⟨h, -⟩ | ⟨h, -⟩ | ⟨-, rfl⟩
    · exact absurd (second.own_of_clears hclears) (hown _ (first.own_of_clears h))
    · exact absurd (first.none_of_raises h) (second.raised_of_clears hclears)
    · rfl
  rcases hsecond with ⟨hclears, rfl⟩ | ⟨hraises, rfl⟩ | ⟨hquiet, rfl⟩
  · have hflag : second.clears row flag := by
      rcases hfirst with ⟨-, rfl⟩ | ⟨h, rfl⟩ | ⟨-, rfl⟩
      · exact absurd rfl (second.raised_of_clears hclears)
      · exact absurd (second.own_of_clears hclears) (hown _ (first.own_flag h))
      · exact hclears
    exact ⟨fun hquiet h => hquiet.2 h.2,
      fun hnot => ⟨fun h => first.raised_of_clears h rfl, fun h => hnot ⟨hflag, h⟩⟩⟩
  · refine iff_of_true ⟨fun h => ?_, fun h => ?_⟩ fun h => second.apart h.1 hraises
    · exact hown _ (first.own_of_clears h) (second.own_flag hraises)
    · exact second.raised row (first.none_of_raises h)
  · exact iff_of_true hfirst.quiet fun h => hquiet.1 (hsame h.1 ▸ h.1)

end FlagRule

def Fleet.Settled (fleet : Fleet) (sweep : Fleet → Fleet × List Flagged) : Prop :=
  sweep fleet = (fleet, [])

def Fleet.SettlesAfter (fleet : Fleet) (first second : Fleet → Fleet × List Flagged) : Prop :=
  (second (first fleet).1).1.Settled first ∧ (second (first fleet).1).1.Settled second

structure FlagRule.Rules (rule : FlagRule) (fleet : Fleet)
    (sweep : Fleet → Fleet × List Flagged) : Prop where
  step : ∀ flags, ∃ after, (sweep { fleet with flags }).1 = { fleet with flags := after } ∧
    ∀ id row, fleet.db.jobs.get? id = some row → rule.Step row (flags id) (after id)
  settled : ∀ flags, { fleet with flags }.Settled sweep ↔
    ∀ id row, fleet.db.jobs.get? id = some row → rule.Quiet row (flags id)

theorem FlagRule.Rules.pair {sweep₁ sweep₂ : Fleet → Fleet × List Flagged}
    (hown : ∀ flag, first.own flag → ¬ second.own flag) (hfirst : first.Rules fleet sweep₁)
    (hsecond : second.Rules fleet sweep₂) :
    fleet.SettlesAfter sweep₁ sweep₂ ↔ ∀ id row, fleet.db.jobs.get? id = some row →
      ¬ (second.clears row (fleet.flags id) ∧ first.raises row {}) := by
  obtain ⟨one, hone, hstep₁⟩ := hfirst.step fleet.flags
  obtain ⟨two, htwo, hstep₂⟩ := hsecond.step one
  have hboth : (sweep₂ (sweep₁ fleet).1).1 = { fleet with flags := two } := by
    rw [← htwo, ← hone]
  unfold Fleet.SettlesAfter
  rw [hboth, hfirst.settled, hsecond.settled,
    and_iff_left fun id row hget => (hstep₂ id row hget).quiet]
  exact forall₃_congr fun id row hget =>
    FlagRule.quiet_iff hown (hstep₁ id row hget) (hstep₂ id row hget)

namespace Fleet

section

variable {selects : JobId → NodeJob → Prop} [∀ id row, Decidable (selects id row)]
  {flag : NodeJob → RedFlag}

theorem flags_setFlags {id : JobId} (hget : fleet.db.jobs.get? id = some row) :
    (fleet.setFlags selects flag).flags id =
      if selects id row then flag row else fleet.flags id := by
  simp [setFlags, hget]

variable (hnone : ∀ id row, fleet.db.jobs.get? id = some row → ¬ selects id row)

include hnone

theorem setFlags_eq_self : fleet.setFlags selects flag = fleet := by
  have hflags (id : JobId) : (fleet.setFlags selects flag).flags id = fleet.flags id := by
    cases hget : fleet.db.jobs.get? id with
    | none => simp [setFlags, hget]
    | some row => rw [flags_setFlags hget, if_neg (hnone id row hget)]
  exact congrArg (fun flags => { fleet with flags }) (funext hflags)

theorem flagged_eq_nil : fleet.flagged selects flag = [] := by
  refine List.eq_nil_iff_forall_not_mem.mpr fun item hmem => ?_
  obtain ⟨id, hseen⟩ := Table.mem_collect.mp hmem
  obtain ⟨row, hget, hview⟩ := Option.bind_eq_some_iff.mp hseen
  simp [hnone id row hget] at hview

end

theorem sweep_eq_self [∀ fleet id row, Decidable (clears fleet id row)]
    [∀ fleet id row, Decidable (raises fleet id row)] {reason : NodeJob → Option String}
    (hclears : ∀ id row, fleet.db.jobs.get? id = some row → ¬ clears fleet id row)
    (hraises : ∀ id row, fleet.db.jobs.get? id = some row → ¬ raises fleet id row) :
    fleet.sweep clears raises reason = (fleet, []) := by
  simp only [sweep, setFlags_eq_self hclears, setFlags_eq_self hraises, flagged_eq_nil hraises]

end Fleet

theorem FlagRule.rules_sweep {rule : FlagRule} [∀ fleet id row, Decidable (clears fleet id row)]
    [∀ fleet id row, Decidable (raises fleet id row)] (reason : Fleet → NodeJob → Option String)
    (hclears : ∀ flags id row, clears { fleet with flags } id row ↔ rule.clears row (flags id))
    (hraises : ∀ flags id row, raises { fleet with flags } id row ↔ rule.raises row (flags id))
    (hflag : ∀ flags row, rule.flag row = ⟨some fleet.db.now, reason { fleet with flags } row⟩) :
    rule.Rules fleet fun fleet => fleet.sweep clears raises (reason fleet) := by
  let sweep : Fleet → Fleet × List Flagged := fun fleet => fleet.sweep clears raises (reason fleet)
  have hstep (flags : JobId → RedFlag) {id : JobId} {row : NodeJob}
      (hget : fleet.db.jobs.get? id = some row) :
      rule.Step row (flags id) ((sweep { fleet with flags }).1.flags id) := by
    let before := { fleet with flags }
    let cleared := before.setFlags (clears before) fun _ => {}
    have hfirst : cleared.flags id = _ := before.flags_setFlags hget
    have hlast : (sweep before).1.flags id = _ := cleared.flags_setFlags hget
    have hraise : raises cleared id row ↔ _ := hraises cleared.flags id row
    rw [hlast]
    by_cases hlift : rule.clears row (flags id)
    · rw [if_pos ((hclears flags id row).mpr hlift)] at hfirst
      have hdown : ¬ raises cleared id row := fun h => rule.apart hlift (hraise.mp h)
      exact Or.inl ⟨hlift, (if_neg hdown).trans hfirst⟩
    · rw [if_neg (mt (hclears flags id row).mp hlift)] at hfirst
      rw [hfirst] at hraise ⊢
      split_ifs with hnew
      · exact Or.inr (Or.inl ⟨hraise.mp hnew, (hflag flags row).symm⟩)
      · exact Or.inr (Or.inr ⟨⟨hlift, mt hraise.mpr hnew⟩, rfl⟩)
  refine ⟨fun flags => ⟨_, rfl, fun id row => hstep flags⟩, fun flags => ⟨?_, fun hquiet => ?_⟩⟩
  · intro (hsettled : sweep { fleet with flags } = _) id row hget
    have hlast := (hstep flags hget).quiet
    rwa [hsettled] at hlast
  · exact Fleet.sweep_eq_self
      (fun id row hget h => (hquiet id row hget).1 ((hclears flags id row).mp h))
      fun id row hget h => (hquiet id row hget).2 ((hraises flags id row).mp h)

/-! ### The two sweeps -/

theorem Dialect.likeStart_append (d : Dialect) {start text : String} (rest : String)
    (hle : start.toList.length ≤ text.toList.length) :
    d.likeStart start (some (text ++ rest)) = d.likeStart start (some text) := by
  have hstart {start text rest : List Char} (hle : start.length ≤ text.length) :
      start.isPrefixOf (text ++ rest) = start.isPrefixOf text := by
    rw [Bool.eq_iff_iff, List.isPrefixOf_iff_prefix, List.isPrefixOf_iff_prefix]
    exact ⟨fun h => List.prefix_of_prefix_length_le h (List.prefix_append _ _) hle,
      fun h => h.trans (List.prefix_append _ _)⟩
  unfold Dialect.likeStart
  simp only [Option.map_some, String.toList_append, List.map_append]
  cases d with
  | pg => exact congrArg some (hstart hle)
  | sqlite => exact congrArg some (hstart (by simpa using hle))

namespace Fleet

variable (d : Dialect) (project : String) (windowS : ℚ) (fleet : Fleet)

theorem not_likeStart_unassignable {text : String}
    (htext : fleet.unassignableReason d project windowS row = some text) :
    d.likeStart strandedStart (some text) = some false := by
  have hother {start : String} (rest : String)
      (hle : strandedStart.toList.length ≤ start.toList.length)
      (hno : d.likeStart strandedStart (some start) = some false) :
      d.likeStart strandedStart (some (start ++ rest)) = some false :=
    (d.likeStart_append rest hle).trans hno
  unfold unassignableReason at htext
  simp only [String.append_assoc] at htext
  split_ifs at htext
  on_goal 4 =>
    obtain ⟨_, -, hrest⟩ := Option.bind_eq_some_iff.mp htext
    obtain ⟨_, -, hrest⟩ := Option.bind_eq_some_iff.mp hrest
    cases hrest
    exact hother _ (by decide) (by cases d <;> decide +kernel)
  all_goals
    obtain ⟨_, -, rfl⟩ := Option.map_eq_some_iff.mp htext
    exact hother _ (by decide) (by cases d <;> decide +kernel)

def unassignableRule : FlagRule where
  own flag := ((Tri.isNull flag.reason).or (d.likeStart strandedStart flag.reason).not).Holds
  clears row flag :=
    ClearsUnassignable d project windowS { fleet with flags := fun _ => flag } 0 row
  raises row flag :=
    RaisesUnassignable d project windowS { fleet with flags := fun _ => flag } 0 row
  flag row := ⟨some fleet.db.now, fleet.unassignableReason d project windowS row⟩
  raised_of_clears h := h.1
  own_of_clears h := h.2.1
  none_of_raises h := h.2.2.2.2.1
  apart h hraises := h.2.2.2.elim (fun hleft => hleft hraises.2.2.1) hraises.2.2.2.2.2.2
  raised _ := Option.some_ne_none _
  own_flag {row _} _ := by
    cases htext : fleet.unassignableReason d project windowS row with
    | none => rfl
    | some text => rw [fleet.not_likeStart_unassignable d project windowS htext]; rfl

def strandedRule : FlagRule where
  own flag := (d.likeStart strandedStart flag.reason).Holds
  clears row flag := ClearsStranded d project windowS { fleet with flags := fun _ => flag } 0 row
  raises row flag := RaisesStranded d project windowS { fleet with flags := fun _ => flag } 0 row
  flag row := ⟨some fleet.db.now, strandedReason d row⟩
  raised_of_clears h := h.1
  own_of_clears h := h.2.1
  none_of_raises h := h.2.2.2.2.1
  apart h hraises := h.2.2.2.2.elim (fun hleft => hleft hraises.1)
    (Or.rec hraises.2.2.2.2.2.2.2 (Tri.not_holds hraises.2.2.2.2.2.1))
  raised _ := Option.some_ne_none _
  own_flag hraises := by
    obtain ⟨kinds, hkinds⟩ := Option.ne_none_iff_exists'.mp hraises.2.2.2.1
    rw [strandedReason, hkinds, Option.map_some, d.likeStart_append _ (by decide)]
    cases d <;> decide +kernel

end Fleet

theorem sweeps_settle_iff (d : Dialect) (project : String) (windowU windowS : ℚ) (fleet : Fleet) :
    let capacity := Fleet.flagUnassignableGpuJobs d project windowU
    let servers := Fleet.flagServerStrandedJobs d project windowS
    let unflagged := { fleet with flags := fun _ => {} }
    (fleet.SettlesAfter capacity servers ↔ ∀ id row, fleet.db.jobs.get? id = some row →
      ¬ (fleet.ClearsStranded d project windowS id row ∧
        unflagged.RaisesUnassignable d project windowU id row)) ∧
    (fleet.SettlesAfter servers capacity ↔ ∀ id row, fleet.db.jobs.get? id = some row →
      ¬ (fleet.ClearsUnassignable d project windowU id row ∧
        unflagged.RaisesStranded d project windowS id row)) := by
  have hown (flag : RedFlag) (hours : (fleet.unassignableRule d project windowU).own flag) :
      ¬ (fleet.strandedRule d project windowS).own flag := by
    rcases Tri.holds_or.mp hours with hnull | hother
    · rintro (hlike : d.likeStart _ flag.reason = some true)
      rw [Tri.holds_isNull.mp hnull] at hlike
      cases hlike
    · exact Tri.not_holds hother
  have hcapacity : (fleet.unassignableRule d project windowU).Rules fleet
      (Fleet.flagUnassignableGpuJobs d project windowU) :=
    FlagRule.rules_sweep _ (fun _ _ _ => Iff.rfl) (fun _ _ _ => Iff.rfl) fun _ _ => rfl
  have hservers : (fleet.strandedRule d project windowS).Rules fleet
      (Fleet.flagServerStrandedJobs d project windowS) :=
    FlagRule.rules_sweep (fun _ => Fleet.strandedReason d) (fun _ _ _ => Iff.rfl)
      (fun _ _ _ => Iff.rfl) fun _ _ => rfl
  exact ⟨hcapacity.pair hown hservers,
    hservers.pair (fun flag htheirs hours => hown flag hours htheirs) hcapacity⟩

/-- The machine serves ollama again and does not have the model. The tick lifts the old flag, and
the next one finds the row unassignable. -/
theorem lifted_flag_raised_again :
    let row := { eitherRow with serverTypes := some ["ollama"] }
    let fleet := { oneMachine ["small"] ["small"] row with
      flags := fun _ => ⟨some 0, some "no live worker serves any of: ollama"⟩ }
    let capacity := Fleet.flagUnassignableGpuJobs .pg "" 30
    let both := (Fleet.flagServerStrandedJobs .pg "" 30 (capacity fleet).1).1
    (capacity both).2.map Flagged.id = [0] ∧ ¬ both.Settled capacity := by
  intro row fleet capacity both
  have hnew : (capacity both).2.map Flagged.id = [0] := by decide +kernel
  refine ⟨hnew, fun (hsettled : capacity both = (both, [])) => ?_⟩
  rw [hsettled] at hnew
  cases hnew

end BrokerParrot
