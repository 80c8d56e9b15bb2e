import Mathlib.Tactic.Linarith
import BrokerParrot.Proof.ServerSwitchDrain

/-!
# A restart is invisible

While writes go through and the wall clock does not run backwards, what a new process rebuilds is
the old object as far as anybody can ask: the same switch, unless its budget ran out meanwhile, and
the same answers about which kinds are held back.

The file is not always what is in memory. Some calls forget old holds and do not write, so the two
agree up to holds that are old enough to be forgotten (`HoldsAgree`).
-/

namespace BrokerParrot

open Option

variable {r : Readings} {wall : ℚ} {cfg : SwitchConfig} {host : SwitchHost} {event : SwitchEvent}
  {key : String} {entry : Hold} {holds : OrdDict String Hold}

def Readings.Within (r : Readings) (lo hi : ℚ) : Prop :=
  ∀ site, lo ≤ r.wall site ∧ r.wall site ≤ hi

def Clocked : ℚ → List SwitchEvent → ℚ → Prop
  | lo, [], hi => lo ≤ hi
  | lo, event :: rest, hi => ∃ mid, event.readings.Within lo mid ∧ Clocked mid rest hi

variable {lo hi : ℚ} {history : List SwitchEvent}

theorem Readings.Within.le (hwithin : r.Within lo hi) : lo ≤ hi :=
  le_trans (hwithin .prune).1 (hwithin .prune).2

theorem within_of_le {now : ℚ} {writeOk : Bool} (hlo : lo ≤ wall) (hhi : wall ≤ hi) :
    Readings.Within ⟨now, fun _ => wall, writeOk⟩ lo hi :=
  fun _ => ⟨hlo, hhi⟩

theorem Clocked.run (kept : ℚ → SwitchHost → Prop) {ok : SwitchEvent → Prop}
    (hlater : ∀ {lo hi host}, lo ≤ hi → kept lo host → kept hi host)
    (hstep : ∀ {lo hi host event}, ok event → event.readings.Within lo hi → kept lo host →
      kept hi (host.step cfg event)) (hclock : Clocked lo history hi)
    (hok : ∀ event ∈ history, ok event) (hhost : kept lo host) :
    kept hi (host.run cfg history) := by
  induction history generalizing lo host with
  | nil => exact hlater hclock hhost
  | cons event rest ih =>
    obtain ⟨mid, hwithin, hrest⟩ := hclock
    apply ih hrest
    · intro later hmem
      exact hok later (List.mem_cons_of_mem _ hmem)
    · exact hstep (hok event List.mem_cons_self) hwithin hhost

theorem Clocked.split {before later : List SwitchEvent}
    (hclock : Clocked lo (before ++ event :: later) hi) :
    ∃ start stop, Clocked lo before start ∧ event.readings.Within start stop ∧
      Clocked stop later hi := by
  induction before generalizing lo with
  | nil =>
    obtain ⟨stop, hwithin, hrest⟩ := hclock
    exact ⟨lo, stop, le_rfl, hwithin, hrest⟩
  | cons first rest ih =>
    obtain ⟨mid, hwithin, hrest⟩ := hclock
    obtain ⟨start, stop, hbefore, hevent, hlater⟩ := ih hrest
    exact ⟨start, stop, ⟨mid, hwithin, hbefore⟩, hevent, hlater⟩

theorem Clocked.le (hclock : Clocked lo history hi) : lo ≤ hi := by
  induction history generalizing lo with
  | nil => exact hclock
  | cons event rest ih =>
    obtain ⟨mid, hwithin, hrest⟩ := hclock
    exact le_trans hwithin.le (ih hrest)

/-! ### Holds that agree -/

section

variable {early late : ℚ} {left middle right : OrdDict String Hold}

def HoldsAgree (cfg : SwitchConfig) (wall : ℚ) (left right : OrdDict String Hold) : Prop :=
  ∀ key, (left.get? key).filter (Hold.remembered cfg wall) =
    (right.get? key).filter (Hold.remembered cfg wall)

theorem filter_remembered_filter (hle : early ≤ late) (entry : Option Hold) :
    (entry.filter (Hold.remembered cfg early)).filter (Hold.remembered cfg late) =
      entry.filter (Hold.remembered cfg late) := by
  cases entry with
  | none => rfl
  | some entry =>
    by_cases hlate : entry.remembered cfg late = true
    · have hearly : entry.remembered cfg early = true := Hold.remembered_anti hle hlate
      rw [filter_some, if_pos hearly]
    · by_cases hearly : entry.remembered cfg early = true
      · rw [filter_some, if_pos hearly]
      · rw [filter_some, if_neg hearly, filter_some, if_neg hlate]
        rfl

theorem HoldsAgree.mono (hagree : HoldsAgree cfg early left right) (hle : early ≤ late) :
    HoldsAgree cfg late left right := by
  intro key
  rw [← filter_remembered_filter hle, hagree key, filter_remembered_filter hle]

theorem HoldsAgree.trans (hleft : HoldsAgree cfg wall left middle)
    (hright : HoldsAgree cfg wall middle right) : HoldsAgree cfg wall left right :=
  fun key => (hleft key).trans (hright key)

theorem holdsAgree_prunedAt (hle : early ≤ late) (holds : OrdDict String Hold) :
    HoldsAgree cfg late (prunedAt cfg early holds) holds := by
  intro key
  rw [get?_prunedAt, filter_remembered_filter hle]

theorem HoldsAgree.get?_prunedAt (hagree : HoldsAgree cfg wall left right) (hle : wall ≤ late)
    (key : String) : (prunedAt cfg late left).get? key = (prunedAt cfg late right).get? key := by
  rw [BrokerParrot.get?_prunedAt, BrokerParrot.get?_prunedAt]
  exact hagree.mono hle key

theorem get?_of_prunedAt (hget : (prunedAt cfg wall left).get? key = some entry) :
    left.get? key = some entry := by
  rw [get?_prunedAt] at hget
  exact (filter_eq_some_iff.mp hget).1

theorem heldAt_iff : heldAt wall holds key = true ↔
      ∃ entry, holds.get? key = some entry ∧ wall < entry.untilWall := by
  unfold heldAt
  cases holds.get? key with
  | none | some => simp

theorem heldAt_false_of_sub
    (hsub : ∀ entry, right.get? key = some entry → left.get? key = some entry) (hle : early ≤ late)
    (hfree : heldAt early left key = false) : heldAt late right key = false := by
  rw [Bool.eq_false_iff, ne_eq, heldAt_iff] at hfree ⊢
  rintro ⟨entry, hget, huntil⟩
  exact hfree ⟨entry, hsub entry hget, lt_of_le_of_lt hle huntil⟩

def Orderly (cfg : SwitchConfig) (wall : ℚ) (holds : OrdDict String Hold) : Prop :=
  0 ≤ cfg.quarantineMaxS ∨ ∀ key entry, holds.get? key = some entry → entry.untilWall ≤ wall

theorem Orderly.mono (horderly : Orderly cfg early left) (hle : early ≤ late) :
    Orderly cfg late left :=
  horderly.imp_right fun hlapsed key entry hget => le_trans (hlapsed key entry hget) hle

theorem Orderly.of_sub (horderly : Orderly cfg wall left)
    (hsub : ∀ key entry, right.get? key = some entry → left.get? key = some entry) :
    Orderly cfg wall right :=
  horderly.imp_right fun hlapsed key entry hget => hlapsed key entry (hsub key entry hget)

theorem Orderly.remembered (horderly : Orderly cfg wall left) (hget : left.get? key = some entry)
    (hle : wall ≤ late) (huntil : late < entry.untilWall) : entry.remembered cfg wall = true := by
  rw [Hold.remembered_iff]
  rcases horderly with hmax | hlapsed
  · linarith
  · have := hlapsed key entry hget
    linarith

theorem HoldsAgree.heldAt_imp (hagree : HoldsAgree cfg wall left right)
    (horderly : Orderly cfg wall left) (hle : wall ≤ late) (hheld : heldAt late left key = true) :
    heldAt late right key = true := by
  rw [heldAt_iff] at hheld ⊢
  obtain ⟨entry, hget, huntil⟩ := hheld
  have hkept : entry.remembered cfg wall = true := horderly.remembered hget hle huntil
  have hright : (right.get? key).filter (Hold.remembered cfg wall) = some entry := by
    rw [← hagree key, hget, filter_some, if_pos hkept]
  exact ⟨entry, (filter_eq_some_iff.mp hright).1, huntil⟩

theorem HoldsAgree.heldAt_eq (hagree : HoldsAgree cfg wall left right)
    (hleft : Orderly cfg wall left) (hright : Orderly cfg wall right) (hle : wall ≤ late)
    (key : String) : heldAt late left key = heldAt late right key := by
  have hsymm : HoldsAgree cfg wall right left := fun other => (hagree other).symm
  rw [Bool.eq_iff_iff]
  exact ⟨hagree.heldAt_imp hleft hle, hsymm.heldAt_imp hright hle⟩

end

/-! ### What every call keeps -/

namespace SwitchHost

variable {lo hi : ℚ}

def Proper (wall : ℚ) (sw : ServerSwitch) (active : Option ActiveSwitch) : Prop :=
  sw.Carries active ∧
    ∀ switch, active = some switch →
      switch.requested ≤ wall ∧ heldAt wall sw.quarantine switch.key = false

structure Mirrored (cfg : SwitchConfig) (wall : ℚ) (host : SwitchHost) : Prop where
  proper : Proper wall host.switch (PersistFile.recorded host.file)
  holds : HoldsAgree cfg wall host.switch.quarantine (PersistFile.holds host.file)

variable {sw : ServerSwitch} {active next : Option ActiveSwitch} {file : Option PersistFile}

theorem Proper.mono (hproper : Proper lo sw active) (hle : lo ≤ hi) : Proper hi sw active := by
  refine ⟨hproper.1, ?_⟩
  intro switch hswitch
  obtain ⟨hrequested, hfree⟩ := hproper.2 switch hswitch
  exact ⟨le_trans hrequested hle, heldAt_false_of_sub (fun _ hget => hget) hle hfree⟩

theorem Proper.of_sub {other : ServerSwitch}
    (hproper : Proper lo sw active) (hle : lo ≤ hi) (hcarries : other.Carries active)
    (hsub : ∀ key entry, other.quarantine.get? key = some entry →
      sw.quarantine.get? key = some entry) : Proper hi other active := by
  refine ⟨hcarries, ?_⟩
  intro switch hswitch
  obtain ⟨hrequested, hfree⟩ := hproper.2 switch hswitch
  exact ⟨le_trans hrequested hle, heldAt_false_of_sub (hsub switch.key) hle hfree⟩

theorem proper_of_idle (hidle : sw.Carries none) : Proper wall sw none :=
  ⟨hidle, nofun⟩

theorem Mirrored.mono (hmirrored : host.Mirrored cfg lo) (hle : lo ≤ hi) : host.Mirrored cfg hi :=
  ⟨hmirrored.proper.mono hle, hmirrored.holds.mono hle⟩

theorem get?_of_persist (hget : (host.persist cfg r).switch.quarantine.get? key = some entry) :
    host.switch.quarantine.get? key = some entry := by
  rw [persist_quarantine] at hget
  split at hget
  · exact get?_of_prunedAt hget
  · exact hget

theorem Proper.persist (hproper : Proper wall host.switch active) :
    Proper wall (host.persist cfg r).switch active :=
  hproper.of_sub le_rfl (persist_carries hproper.1) fun _ _ => get?_of_persist

theorem mirrored_persist (hpath : cfg.persistPath = true) (hwrite : r.writeOk = true)
    (hproper : Proper wall host.switch active) : (host.persist cfg r).Mirrored cfg wall := by
  have hafter : Proper wall (host.persist cfg r).switch active := hproper.persist
  have hfile := persist_file_of_writeOk hpath hwrite host
  constructor
  · rwa [hfile, PersistFile.recorded_persisted r hafter.1]
  · rw [hfile, PersistFile.holds_persisted]
    exact fun key => rfl

theorem Edit.proper (hedit : Edit cfg host event active next sw.quarantine)
    (hcarries : sw.Carries next) (hwithin : event.readings.Within lo hi)
    (hproper : Proper lo host.switch active) : Proper hi sw next := by
  generalize hholds : sw.quarantine = holds at hedit
  cases hedit with
  | requested named hcall hfree =>
    refine ⟨hcarries, ?_⟩
    rintro switch ⟨rfl⟩
    refine ⟨(hwithin .requested).2, ?_⟩
    rw [hholds]
    exact heldAt_false_of_sub (fun _ hget => hget) (hwithin .quarantined).2 hfree
  | kept => exact hproper.of_sub hwithin.le hcarries fun key entry hget => hholds ▸ hget
  | ended | failed | succeeded => exact proper_of_idle hcarries
  | cleared =>
    refine hproper.of_sub hwithin.le hcarries ?_
    intro key entry hget
    rw [hholds] at hget
    exact OrdDict.get?_of_erase hget

theorem Proper.step (hproper : Proper lo host.switch active)
    (hwithin : event.readings.Within lo hi) (hcall : event.call ≠ .restart) :
    ∃ next, Proper hi (host.step cfg event).switch next := by
  generalize hstep : host.step cfg event = after
  have heffect : Effect cfg host event active after := hstep ▸ step_effect hproper.1 hcall
  cases heffect with
  | quiet sw hcarries hholds =>
    exact ⟨active, hproper.of_sub hwithin.le hcarries fun key entry hget => hholds ▸ hget⟩
  | pruned sw hcarries hholds =>
    refine ⟨active, hproper.of_sub hwithin.le hcarries ?_⟩
    intro key entry hget
    rw [hholds] at hget
    exact get?_of_prunedAt hget
  | wrote sw next hcarries hedit =>
    exact ⟨next, (hedit.proper hcarries hwithin hproper).persist⟩

theorem proper_resumed
    (hholds : sw.quarantine = prunedAt cfg (r.wall .prune) (PersistFile.holds file))
    (hcarries : sw.Carries (PersistFile.resumable cfg r file)) (hwithin : r.Within lo hi) :
    Proper hi sw (PersistFile.resumable cfg r file) := by
  refine ⟨hcarries, ?_⟩
  intro switch hresumed
  obtain ⟨-, htime⟩ := filter_eq_some_iff.mp hresumed
  simp only [ActiveSwitch.inTime, Bool.and_eq_true, Bool.not_eq_true', decide_eq_true_eq] at htime
  obtain ⟨⟨hfree, hage⟩, -⟩ := htime
  constructor
  · linarith [(hwithin .age).2]
  · rw [hholds]
    exact heldAt_false_of_sub (fun _ hget => hget) (hwithin .quarantined).2 hfree

theorem mirrored_resumePersisted (hpath : cfg.persistPath = true)
    (hwrite : r.writeOk = true) (hwithin : r.Within lo hi) (file : Option PersistFile) :
    (resumePersisted cfg r file).Mirrored cfg hi := by
  obtain ⟨sw, heq, hholds, hcarries⟩ := resumePersisted_spec hpath r file
  rw [heq]
  exact mirrored_persist hpath hwrite (proper_resumed hholds hcarries hwithin)

theorem Mirrored.step (hpath : cfg.persistPath = true) (hwrite : event.readings.writeOk = true)
    (hwithin : event.readings.Within lo hi) (hmirrored : host.Mirrored cfg lo) :
    (host.step cfg event).Mirrored cfg hi := by
  by_cases hcall : event.call = .restart
  · obtain ⟨call, r⟩ := event
    obtain rfl : call = .restart := hcall
    exact mirrored_resumePersisted hpath hwrite hwithin host.file
  · generalize hstep : host.step cfg event = after
    have heffect : Effect cfg host event (PersistFile.recorded host.file) after :=
      hstep ▸ step_effect hmirrored.proper.1 hcall
    cases heffect with
    | quiet sw hcarries hholds =>
      constructor
      · exact hmirrored.proper.of_sub hwithin.le hcarries fun key entry hget => hholds ▸ hget
      · rw [hholds]
        exact hmirrored.holds.mono hwithin.le
    | pruned sw hcarries hholds =>
      constructor
      · refine hmirrored.proper.of_sub hwithin.le hcarries ?_
        intro key entry hget
        rw [hholds] at hget
        exact get?_of_prunedAt hget
      · rw [hholds]
        exact (holdsAgree_prunedAt (hwithin .prune).2 _).trans (hmirrored.holds.mono hwithin.le)
    | wrote sw next hcarries hedit =>
      have hproper : Proper hi sw next := hedit.proper hcarries hwithin hmirrored.proper
      exact mirrored_persist hpath hwrite hproper

def OrderlyHolds (cfg : SwitchConfig) (wall : ℚ) (host : SwitchHost) : Prop :=
  Orderly cfg wall host.switch.quarantine ∧ Orderly cfg wall (PersistFile.holds host.file)

theorem OrderlyHolds.mono (horderly : host.OrderlyHolds cfg lo) (hle : lo ≤ hi) :
    host.OrderlyHolds cfg hi :=
  ⟨horderly.1.mono hle, horderly.2.mono hle⟩

theorem OrderlyHolds.persist (horderly : host.OrderlyHolds cfg wall) :
    (host.persist cfg r).OrderlyHolds cfg wall := by
  have hmemory : Orderly cfg wall (host.persist cfg r).switch.quarantine :=
    horderly.1.of_sub fun _ _ => get?_of_persist
  refine ⟨hmemory, ?_⟩
  rcases host.persist_file cfg r with hfile | hfile
  · rw [hfile]
    exact horderly.2
  · rwa [hfile, PersistFile.holds_persisted]

theorem Edit.orderly (hedit : Edit cfg host event active next holds)
    (hwithin : event.readings.Within lo hi) (horderly : Orderly cfg hi host.switch.quarantine) :
    Orderly cfg hi holds := by
  cases hedit with
  | requested => exact horderly.of_sub fun _ _ => get?_of_prunedAt
  | kept | ended => exact horderly
  | failed active =>
    rcases horderly with hmax | hlapsed
    · exact Or.inl hmax
    rcases le_or_gt 0 cfg.quarantineMaxS with hmax | hmax
    · exact Or.inl hmax
    right
    intro key entry hget
    by_cases hkey : key = active.key
    · subst hkey
      rw [get?_quarantineLocked_self, Option.some.injEq] at hget
      subst hget
      have hcap : cfg.holdAfter (failuresOf host.switch.quarantine active.key) ≤
          cfg.quarantineMaxS := min_le_right _ _
      linarith [(hwithin .hold).2]
    · rw [get?_quarantineLocked_of_ne _ _ _ _ hkey] at hget
      exact hlapsed key entry hget
  | succeeded | cleared => exact horderly.of_sub fun _ _ => OrdDict.get?_of_erase

theorem orderlyHolds_resumePersisted (hfile : Orderly cfg wall (PersistFile.holds file)) :
    (resumePersisted cfg r file).OrderlyHolds cfg wall := by
  by_cases hpath : cfg.persistPath = true
  · obtain ⟨sw, heq, hholds, -⟩ := resumePersisted_spec hpath r file
    rw [heq]
    apply OrderlyHolds.persist
    refine ⟨?_, hfile⟩
    rw [hholds]
    exact hfile.of_sub fun _ _ => get?_of_prunedAt
  · rw [resumePersisted_of_no_path (Bool.eq_false_of_not_eq_true hpath)]
    exact ⟨Or.inr nofun, hfile⟩

theorem OrderlyHolds.step (hwithin : event.readings.Within lo hi)
    (hcarries : host.switch.Carries active) (horderly : host.OrderlyHolds cfg lo) :
    (host.step cfg event).OrderlyHolds cfg hi := by
  by_cases hcall : event.call = .restart
  · obtain ⟨call, r⟩ := event
    obtain rfl : call = .restart := hcall
    exact orderlyHolds_resumePersisted (horderly.mono hwithin.le).2
  · generalize hstep : host.step cfg event = after
    have heffect : Effect cfg host event active after := hstep ▸ step_effect hcarries hcall
    obtain ⟨hmemory, hdisk⟩ := horderly.mono hwithin.le
    cases heffect with
    | quiet sw _ hholds =>
      refine ⟨?_, hdisk⟩
      rwa [hholds]
    | pruned sw _ hholds =>
      refine ⟨?_, hdisk⟩
      rw [hholds]
      exact hmemory.of_sub fun _ _ => get?_of_prunedAt
    | wrote sw next _ hedit =>
      apply OrderlyHolds.persist
      exact ⟨hedit.orderly hwithin hmemory, hdisk⟩

/-! ### The simulation -/

theorem Mirrored.resumable (hmirrored : host.Mirrored cfg wall)
    (hlater : ∀ site, wall ≤ r.wall site) :
    PersistFile.resumable cfg r host.file = (PersistFile.recorded host.file).filter fun active =>
      decide (r.wall .age < active.requested + cfg.budgetTotal) := by
  unfold PersistFile.resumable
  cases hrecorded : PersistFile.recorded host.file with
  | none => rfl
  | some active =>
    obtain ⟨hrequested, hfree⟩ := hmirrored.proper.2 active hrecorded
    have hunheld : heldAt (r.wall .quarantined)
        (prunedAt cfg (r.wall .prune) (PersistFile.holds host.file)) active.key = false := by
      refine heldAt_false_of_sub ?_ (hlater .quarantined) hfree
      intro entry hget
      rw [← hmirrored.holds.get?_prunedAt (hlater .prune)] at hget
      exact get?_of_prunedAt hget
    have hpast : 0 ≤ r.wall .age - active.requested :=
      sub_nonneg.mpr (le_trans hrequested (hlater .age))
    have htime : active.inTime cfg r
        (prunedAt cfg (r.wall .prune) (PersistFile.holds host.file)) =
          decide (r.wall .age < active.requested + cfg.budgetTotal) := by
      rw [ActiveSwitch.inTime, hunheld, decide_eq_true hpast, Bool.not_false, Bool.true_and,
        Bool.true_and, decide_eq_decide, sub_lt_iff_lt_add']
    rw [filter_some, filter_some, htime]

theorem quarantinedLocked_resumePersisted (hpath : cfg.persistPath = true)
    (hmirrored : host.Mirrored cfg wall) (horderly : host.OrderlyHolds cfg wall)
    (hlater : ∀ site, wall ≤ r.wall site) {late : ℚ} (hlate : ∀ site, r.wall site ≤ late)
    (key : String) :
    (resumePersisted cfg r host.file).switch.quarantinedLocked late key =
      host.switch.quarantinedLocked late key := by
  obtain ⟨sw, heq, hholds, -⟩ := resumePersisted_spec hpath r host.file
  have hle : wall ≤ late := le_trans (hlater .prune) (hlate .prune)
  have horderly := horderly.mono hle
  have hagree : HoldsAgree cfg late (resumePersisted cfg r host.file).switch.quarantine
      host.switch.quarantine := by
    rw [heq, persist_quarantine, if_pos hpath]
    rw [hholds]
    refine (holdsAgree_prunedAt (hlate .persist) _).trans ?_
    refine (holdsAgree_prunedAt (hlate .prune) _).trans ?_
    exact fun other => (hmirrored.holds.mono hle other).symm
  exact hagree.heldAt_eq (orderlyHolds_resumePersisted horderly.2).1 horderly.1 le_rfl key

def StillDue (cfg : SwitchConfig) (wall : ℚ) (sw : ServerSwitch) : Prop :=
  sw.state ≠ .idle ∧ ∃ requested, sw.requestedWall = some requested ∧
    wall < requested + cfg.drainTimeoutS + cfg.unloadTimeoutS + cfg.warmTimeoutS

theorem stillDue_iff (hcarries : sw.Carries active) : StillDue cfg wall sw ↔
      ∃ switch, active = some switch ∧ wall < switch.requested + cfg.budgetTotal := by
  have hsum : ∀ requested : ℚ, requested + cfg.drainTimeoutS + cfg.unloadTimeoutS +
      cfg.warmTimeoutS = requested + cfg.budgetTotal := by
    intro requested
    simp only [SwitchConfig.budgetTotal, add_assoc]
  constructor
  · rintro ⟨hbusy, requested, hwall, htime⟩
    cases active with
    | none => exact absurd hcarries hbusy
    | some switch =>
      obtain ⟨-, -, -, -, hrequested⟩ := hcarries
      obtain rfl : switch.requested = requested := Option.some.inj (hrequested ▸ hwall)
      exact ⟨switch, rfl, hsum _ ▸ htime⟩
  · rintro ⟨switch, rfl, htime⟩
    exact ⟨hcarries.1, switch.requested, hcarries.2.2.2.2, (hsum _).symm ▸ htime⟩

theorem resumePersisted_state {active : ActiveSwitch}
    (hcarries : (resumePersisted cfg r file).switch.Carries (some active)) :
    (resumePersisted cfg r file).switch.state = .draining := by
  have hpast := resumePersisted_not_pastDrain cfg r file
  cases hstate : (resumePersisted cfg r file).switch.state with
  | idle => exact absurd hstate hcarries.1
  | draining => rfl
  | switching => exact absurd (Or.inl hstate) hpast
  | warming => exact absurd (Or.inr hstate) hpast

/-- **A restart is invisible.** A new process is draining towards the same switch, requested at the
same time, exactly when the old one had it in progress with budget left, and it holds the same kinds
and windows back. -/
theorem restart_simulates (cfg : SwitchConfig) (hpath : cfg.persistPath = true) (r₀ r : Readings)
    (file : Option PersistFile) (hfile : file = none ∨ 0 ≤ cfg.quarantineMaxS)
    (history : List SwitchEvent) {first lo hi : ℚ} (hstart : r₀.Within first lo)
    (hclock : Clocked lo history hi) (hlater : ∀ site, hi ≤ r.wall site)
    (hwrite₀ : r₀.writeOk = true) (hwrites : ∀ event ∈ history, event.readings.writeOk = true) :
    let old := run cfg (resumePersisted cfg r₀ file) history
    let new := resumePersisted cfg r old.file
    (StillDue cfg (r.wall .age) old.switch →
        new.switch.state = .draining ∧ new.switch.target = old.switch.target ∧
          new.switch.targetContext = old.switch.targetContext ∧
          new.switch.resize = old.switch.resize ∧
          new.switch.requestedWall = old.switch.requestedWall) ∧
      (¬ StillDue cfg (r.wall .age) old.switch → new.switch.state = .idle) ∧
      ∀ kind late, (∀ site, r.wall site ≤ late) →
        new.switch.quarantinedLocked late kind = old.switch.quarantinedLocked late kind ∧
          new.switch.quarantinedLocked late (resizeKey kind) =
            old.switch.quarantinedLocked late (resizeKey kind) := by
  intro old new
  have hkept : old.Mirrored cfg hi ∧ old.OrderlyHolds cfg hi := by
    refine hclock.run (fun wall host => host.Mirrored cfg wall ∧ host.OrderlyHolds cfg wall)
      (fun hle hboth => ⟨hboth.1.mono hle, hboth.2.mono hle⟩) ?_ hwrites ?_
    · intro lo hi host event hwrite hwithin hboth
      exact ⟨hboth.1.step hpath hwrite hwithin, hboth.2.step hwithin hboth.1.proper.1⟩
    · refine ⟨mirrored_resumePersisted hpath hwrite₀ hstart file, ?_⟩
      apply orderlyHolds_resumePersisted
      rcases hfile with rfl | hmax
      · exact Or.inr nofun
      · exact Or.inl hmax
  obtain ⟨hmirrored, horderly⟩ := hkept
  have hnew : new.switch.Carries ((PersistFile.recorded old.file).filter fun active =>
      decide (r.wall .age < active.requested + cfg.budgetTotal)) := by
    obtain ⟨sw, heq, -, hcarries⟩ := resumePersisted_spec hpath r old.file
    rw [hmirrored.resumable hlater] at hcarries
    change (resumePersisted cfg r old.file).switch.Carries _
    rw [heq]
    exact persist_carries hcarries
  have hold := hmirrored.proper.1
  refine ⟨?_, ?_, ?_⟩
  · intro hdue
    obtain ⟨active, hactive, htime⟩ := (stillDue_iff hold).mp hdue
    rw [hactive] at hold hnew
    rw [filter_some, if_pos (decide_eq_true htime)] at hnew
    refine ⟨resumePersisted_state hnew, ?_⟩
    obtain ⟨-, htarget, hcontext, hresize, hwall⟩ := hnew
    obtain ⟨-, htarget', hcontext', hresize', hwall'⟩ := hold
    rw [htarget, hcontext, hresize, hwall, htarget', hcontext', hresize', hwall']
    exact ⟨rfl, rfl, rfl, rfl⟩
  · intro hnot
    apply hnew.idle_iff.mpr
    rw [filter_eq_none_iff]
    intro active hactive htime
    exact hnot ((stillDue_iff hold).mpr ⟨active, hactive, of_decide_eq_true htime⟩)
  · intro kind late hlate
    exact ⟨quarantinedLocked_resumePersisted hpath hmirrored horderly hlater hlate kind,
      quarantinedLocked_resumePersisted hpath hmirrored horderly hlater hlate (resizeKey kind)⟩

/-- In the middle of a start the file still says DRAINING, the earlier hold is there, and the budget
is counted from the request. -/
theorem restart_simulates_warming : let cfg : SwitchConfig := { persistPath := true }
    let r (wall : ℚ) : Readings := ⟨wall, fun _ => wall, true⟩
    let history : List SwitchEvent :=
      [⟨.request "ollama" none false, r 10⟩,
        ⟨.reportStartOutcome (.outcome ⟨.permanent, "oom"⟩), r 20⟩,
        ⟨.request "vllm" (some 8192) false, r 100⟩, ⟨.tick ⟨0, false, false⟩, r 110⟩]
    let old := run cfg (resumePersisted cfg (r 0) none) history
    let new := resumePersisted cfg (r 900) old.file
    old.switch.state = .switching ∧ new.switch.state = .draining ∧
      new.switch.requestedWall = some 100 ∧
      new.switch.quarantinedLocked 901 "ollama" = old.switch.quarantinedLocked 901 "ollama" := by
  intro cfg r history
  have hclock : Clocked 0 history 110 :=
    ⟨10, within_of_le (by norm_num) le_rfl, 20, within_of_le (by norm_num) le_rfl,
      100, within_of_le (by norm_num) le_rfl, 110, within_of_le (by norm_num) le_rfl, le_rfl⟩
  have hsimulates := restart_simulates cfg rfl (r 0) (r 900) none (Or.inl rfl) history
    (within_of_le le_rfl le_rfl) hclock (fun _ => by norm_num [r]) rfl (by simp [history, r])
  have hswitching : (run cfg (resumePersisted cfg (r 0) none) history).switch.state =
      .switching := by decide +kernel
  have hrequested : (run cfg (resumePersisted cfg (r 0) none) history).switch.requestedWall =
      some 100 := by decide +kernel
  have hdue : StillDue cfg ((r 900).wall .age)
      (run cfg (resumePersisted cfg (r 0) none) history).switch :=
    ⟨by decide +kernel, 100, hrequested, by decide +kernel⟩
  -- The two hosts are only named from here on: what they compute to is not needed.
  generalize run cfg (resumePersisted cfg (r 0) none) history = old at *
  generalize resumePersisted cfg (r 900) old.file = new at *
  obtain ⟨hstate, -, -, -, hwall⟩ := hsimulates.1 hdue
  have hlate : ∀ site, (r 900).wall site ≤ 901 := fun _ => by norm_num [r]
  exact ⟨hswitching, hstate, hwall.trans hrequested, (hsimulates.2.2 "ollama" 901 hlate).1⟩

end SwitchHost

end BrokerParrot
