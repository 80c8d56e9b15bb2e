import BrokerParrot.Proof.SwitchRestart

/-!
# Each failure holds a kind back longer

A kind that cannot come up must not be asked for again and again: each failed start doubles the time
it is held back, up to a cap.

The failures of one key are counted beside the machine (`struck`): a failed start adds one, a
success or an explicit clear resets them, and nothing else does.
-/

namespace BrokerParrot

open Option

variable {cfg : SwitchConfig} {r : Readings} {hi : ℚ} {host : SwitchHost} {event : SwitchEvent}
  {key target : String} {context : Option ℤ} {resize : Bool}

structure Strikes where
  count : ℕ
  untilWall : ℚ
  deriving DecidableEq

def Hold.strikes (entry : Hold) : Strikes := ⟨entry.failures, entry.untilWall⟩

def strikeCount (strikes : Option Strikes) : ℕ := (strikes.map Strikes.count).getD 0

namespace SwitchHost

def strikesOf (host : SwitchHost) (key : String) : Option Strikes :=
  (host.switch.quarantine.get? key).map Hold.strikes

def activeKey (host : SwitchHost) : Option String :=
  if host.switch.state = .idle then none else host.switch.target.map (holdKey host.switch.resize)

def failsFor (cfg : SwitchConfig) (key : String) (host : SwitchHost) (event : SwitchEvent) : Bool :=
  host.startFails cfg event && decide (host.activeKey = some key)

def clearsFor (cfg : SwitchConfig) (key : String) (host : SwitchHost) (event : SwitchEvent) :
    Bool :=
  host.startSucceeds cfg event && decide (host.activeKey = some key) ||
    decide (event.call = .clearQuarantine key)

def struck (cfg : SwitchConfig) (key : String) (host : SwitchHost) (event : SwitchEvent)
    (strikes : Option Strikes) : Option Strikes :=
  if host.failsFor cfg key event then
    some ⟨strikeCount strikes + 1,
      event.readings.wall .hold + cfg.holdAfter (strikeCount strikes)⟩
  else if host.clearsFor cfg key event then
    none
  else
    strikes

/-- The strikes of a key after a history. A key the machine has no entry for is forgotten. -/
def strikesAfter (cfg : SwitchConfig) (key : String) (host : SwitchHost)
    (strikes : Option Strikes) :
    List SwitchEvent → Option Strikes
  | [] => strikes
  | event :: rest =>
    let after := host.step cfg event
    strikesAfter cfg key after
      (if (after.switch.quarantine.get? key).isNone then none
        else host.struck cfg key event strikes) rest

/-! ### Fading -/

def Fades (cfg : SwitchConfig) (r : Readings) (before after : Option Strikes) : Prop :=
  after = before ∨
    after = none ∧ ∀ strikes, before = some strikes →
      ∃ site, strikes.untilWall + cfg.quarantineMaxS ≤ r.wall site

section

variable {before middle after : Option Strikes}

theorem Fades.refl : Fades cfg r before before := Or.inl rfl

theorem Fades.trans (hfirst : Fades cfg r before middle) (hsecond : Fades cfg r middle after) :
    Fades cfg r before after := by
  rcases hfirst with rfl | ⟨rfl, hgone⟩
  · exact hsecond
  · rcases hsecond with rfl | ⟨rfl, -⟩
    · exact Or.inr ⟨rfl, hgone⟩
    · exact Or.inr ⟨rfl, hgone⟩

theorem fades_filter (site : WallSite) (entry : Option Hold) :
    Fades cfg r (entry.map Hold.strikes)
      ((entry.filter (Hold.remembered cfg (r.wall site))).map Hold.strikes) := by
  cases entry with
  | none => exact Fades.refl
  | some entry =>
    by_cases hkept : entry.remembered cfg (r.wall site) = true
    · rw [filter_some, if_pos hkept]
      exact Fades.refl
    · rw [filter_some, if_neg hkept]
      refine Or.inr ⟨rfl, ?_⟩
      rintro strikes ⟨rfl⟩
      rw [Hold.remembered_iff, not_lt] at hkept
      exact ⟨site, hkept⟩

theorem fades_prunedAt (site : WallSite) (holds : OrdDict String Hold) (key : String) :
    Fades cfg r ((holds.get? key).map Hold.strikes)
      (((prunedAt cfg (r.wall site) holds).get? key).map Hold.strikes) := by
  rw [get?_prunedAt]
  exact fades_filter site _

theorem fades_persist (host : SwitchHost) (key : String) :
    Fades cfg r (host.strikesOf key) ((host.persist cfg r).strikesOf key) := by
  unfold strikesOf
  rw [persist_quarantine]
  split
  · exact fades_prunedAt .persist _ key
  · exact Fades.refl

end

/-! ### One call -/

section

variable {lo wall : ℚ} {active : ActiveSwitch}

theorem activeKey_of_carries (hcarries : host.switch.Carries (some active)) :
    host.activeKey = some active.key := by
  obtain ⟨hbusy, htarget, -, hresize, -⟩ := hcarries
  rw [activeKey, if_neg hbusy, htarget, hresize]
  rfl

theorem activeKey_of_idle (hidle : host.switch.Carries none) : host.activeKey = none :=
  if_pos hidle

theorem struck_of_uneventful (hcalm : host.Uneventful cfg event) :
    host.struck cfg key event (host.strikesOf key) = host.strikesOf key := by
  unfold struck
  rw [failsFor, hcalm.noFailure, Bool.false_and, if_neg Bool.false_ne_true]
  by_cases hclear : event.call = .clearQuarantine key
  · have hnone : host.strikesOf key = none := by
      rw [strikesOf, hcalm.noClear key hclear]
      rfl
    rw [hnone, ite_self]
  · rw [clearsFor, hcalm.noSuccess, Bool.false_and, Bool.false_or, decide_eq_false hclear,
      if_neg Bool.false_ne_true]

theorem struck_of_other {strikes : Option Strikes} (hne : host.activeKey ≠ some key)
    (hcall : event.call ≠ .clearQuarantine key) :
    host.struck cfg key event strikes = strikes := by
  have hfails : host.failsFor cfg key event = false := by
    rw [failsFor, decide_eq_false hne, Bool.and_false]
  have hclears : host.clearsFor cfg key event = false := by
    rw [clearsFor, decide_eq_false hne, decide_eq_false hcall, Bool.and_false]
    rfl
  rw [struck, hfails, hclears, if_neg Bool.false_ne_true, if_neg Bool.false_ne_true]

theorem call_of_startFails (hfails : host.startFails cfg event = true) (kind : String) :
    event.call ≠ .clearQuarantine kind := by
  intro hcall
  rw [startFails, hcall] at hfails
  cases hfails

theorem strikeCount_strikesOf (host : SwitchHost) (key : String) :
    strikeCount (host.strikesOf key) = failuresOf host.switch.quarantine key := by
  unfold strikeCount strikesOf failuresOf
  cases host.switch.quarantine.get? key <;> rfl

theorem strikes_of_failed {reason : String} (hcarries : host.switch.Carries (some active))
    (hfails : host.startFails cfg event = true) :
    ((host.switch.quarantineLocked cfg (event.readings.wall .hold) active.key
      reason).quarantine.get? key).map Hold.strikes =
        host.struck cfg key event (host.strikesOf key) := by
  by_cases hkey : key = active.key
  · subst hkey
    have hfor : host.failsFor cfg active.key event = true := by
      rw [failsFor, hfails, activeKey_of_carries hcarries, decide_eq_true rfl]
      rfl
    rw [struck, if_pos hfor, get?_quarantineLocked_self, strikeCount_strikesOf]
    rfl
  · have hne : host.activeKey ≠ some key := by
      rw [activeKey_of_carries hcarries]
      exact fun heq => hkey (Option.some.inj heq).symm
    rw [get?_quarantineLocked_of_ne _ _ _ _ hkey]
    exact (struck_of_other hne (call_of_startFails hfails key)).symm

theorem startFails_of_startSucceeds (hsucceeds : host.startSucceeds cfg event = true) :
    host.startFails cfg event = false := by
  unfold startSucceeds at hsucceeds
  unfold startFails
  split at hsucceeds
  · rename_i obs htick
    rw [htick]
    simp only [Bool.and_eq_true] at hsucceeds
    simp [hsucceeds.2]
  · cases hsucceeds

theorem strikes_of_succeeded (hcarries : host.switch.Carries (some active))
    (hsucceeds : host.startSucceeds cfg event = true) :
    ((host.switch.quarantine.erase active.key).get? key).map Hold.strikes =
      host.struck cfg key event (host.strikesOf key) := by
  have hfails : host.failsFor cfg key event = false := by
    rw [failsFor, startFails_of_startSucceeds hsucceeds, Bool.false_and]
  have hcall : event.call ≠ .clearQuarantine key := by
    intro hcall
    rw [startSucceeds, hcall] at hsucceeds
    cases hsucceeds
  by_cases hkey : key = active.key
  · subst hkey
    have hclears : host.clearsFor cfg active.key event = true := by
      rw [clearsFor, hsucceeds, activeKey_of_carries hcarries, decide_eq_true rfl]
      rfl
    rw [struck, hfails, if_neg Bool.false_ne_true, if_pos hclears, OrdDict.get?_erase_self]
    rfl
  · have hne : host.activeKey ≠ some key := by
      rw [activeKey_of_carries hcarries]
      exact fun heq => hkey (Option.some.inj heq).symm
    rw [OrdDict.get?_erase_of_ne _ hkey]
    exact (struck_of_other hne hcall).symm

theorem strikes_of_cleared {kind : String} (hcall : event.call = .clearQuarantine kind) :
    ((host.switch.quarantine.erase kind).get? key).map Hold.strikes =
      host.struck cfg key event (host.strikesOf key) := by
  have hfails : host.failsFor cfg key event = false := by
    rw [failsFor, startFails, hcall]
    rfl
  by_cases hkey : key = kind
  · subst hkey
    have hclears : host.clearsFor cfg key event = true := by
      rw [clearsFor, decide_eq_true hcall, Bool.or_true]
    rw [struck, hfails, if_neg Bool.false_ne_true, if_pos hclears, OrdDict.get?_erase_self]
    rfl
  · have hclears : host.clearsFor cfg key event = false := by
      have hne : event.call ≠ .clearQuarantine key := by
        rw [hcall]
        intro heq
        cases heq
        exact hkey rfl
      rw [clearsFor, decide_eq_false hne, Bool.or_false, startSucceeds, hcall]
      rfl
    rw [OrdDict.get?_erase_of_ne _ hkey, struck, hfails, hclears, if_neg Bool.false_ne_true,
      if_neg Bool.false_ne_true]
    rfl

theorem Edit.fades {active next : Option ActiveSwitch} {holds : OrdDict String Hold}
    (hedit : Edit cfg host event active next holds) (hcarries : host.switch.Carries active) :
    Fades cfg event.readings (host.struck cfg key event (host.strikesOf key))
      ((holds.get? key).map Hold.strikes) := by
  cases hedit with
  | requested named hcall =>
    have hcalm : host.Uneventful cfg event := by
      refine ⟨?_, ?_, ?_⟩
      · rw [startFails, hcall]
      · rw [startSucceeds, hcall]
      · intro kind hclear
        rw [hcall] at hclear
        cases hclear
    rw [struck_of_uneventful hcalm]
    exact fades_prunedAt .prune _ key
  | kept active hcalm | ended active hcalm =>
    rw [struck_of_uneventful hcalm]
    exact Fades.refl
  | failed active reason hfails =>
    rw [← strikes_of_failed hcarries hfails]
    exact Fades.refl
  | succeeded active hsucceeds =>
    rw [← strikes_of_succeeded hcarries hsucceeds]
    exact Fades.refl
  | cleared active hcall =>
    rw [← strikes_of_cleared hcall]
    exact Fades.refl

def Ready (cfg : SwitchConfig) (wall : ℚ) (host : SwitchHost) : Prop :=
  (∃ active, Proper wall host.switch active) ∧
    (cfg.persistPath = true → host.Mirrored cfg wall)

def Sturdy (cfg : SwitchConfig) (event : SwitchEvent) : Prop :=
  event.readings.writeOk = true ∧ (event.call = .restart → cfg.persistPath = true)

theorem Ready.mono (hready : host.Ready cfg lo) (hle : lo ≤ hi) : host.Ready cfg hi := by
  obtain ⟨⟨active, hproper⟩, hmirrored⟩ := hready
  exact ⟨⟨active, hproper.mono hle⟩, fun hpath => (hmirrored hpath).mono hle⟩

theorem Ready.step (hsturdy : Sturdy cfg event) (hwithin : event.readings.Within lo hi)
    (hready : host.Ready cfg lo) : (host.step cfg event).Ready cfg hi := by
  obtain ⟨⟨active, hproper⟩, hmirrored⟩ := hready
  have hafter : cfg.persistPath = true → (host.step cfg event).Mirrored cfg hi :=
    fun hpath => (hmirrored hpath).step hpath hsturdy.1 hwithin
  refine ⟨?_, hafter⟩
  by_cases hcall : event.call = .restart
  · exact ⟨_, (hafter (hsturdy.2 hcall)).proper⟩
  · exact hproper.step hwithin hcall

theorem ready_resumePersisted (hwrite : r.writeOk = true) (hwithin : r.Within lo hi)
    (file : Option PersistFile) : (resumePersisted cfg r file).Ready cfg hi := by
  by_cases hpath : cfg.persistPath = true
  · have hmirrored := mirrored_resumePersisted hpath hwrite hwithin file
    exact ⟨⟨_, hmirrored.proper⟩, fun _ => hmirrored⟩
  · refine ⟨⟨none, ?_⟩, fun habsurd => absurd habsurd hpath⟩
    rw [resumePersisted_of_no_path (Bool.eq_false_of_not_eq_true hpath)]
    exact proper_of_idle rfl

theorem Ready.fades (hready : host.Ready cfg lo) (hsturdy : Sturdy cfg event)
    (hwithin : event.readings.Within lo hi) (key : String) :
    Fades cfg event.readings (host.struck cfg key event (host.strikesOf key))
      ((host.step cfg event).strikesOf key) := by
  obtain ⟨⟨active, hproper⟩, hmirrored⟩ := hready
  by_cases hcall : event.call = .restart
  · have hpath := hsturdy.2 hcall
    obtain ⟨call, r⟩ := event
    obtain rfl : call = .restart := hcall
    obtain ⟨sw, heq, hholds, -⟩ := resumePersisted_spec hpath r host.file
    change Fades cfg r _ ((resumePersisted cfg r host.file).strikesOf key)
    rw [heq]
    refine Fades.trans ?_ (fades_persist _ key)
    change Fades cfg r _ ((sw.quarantine.get? key).map Hold.strikes)
    -- What was read back is what was in memory, as far as it was not forgotten.
    rw [hholds, ← (hmirrored hpath).holds.get?_prunedAt (hwithin .prune).1]
    exact fades_prunedAt .prune _ key
  · generalize hstep : host.step cfg event = after
    have heffect : Effect cfg host event active after := hstep ▸ step_effect hproper.1 hcall
    cases heffect with
    | quiet sw hcarries hholds hcalm =>
      rw [struck_of_uneventful hcalm]
      unfold strikesOf
      rw [← hholds]
      exact Fades.refl
    | pruned sw hcarries hholds hcalm =>
      rw [struck_of_uneventful hcalm]
      unfold strikesOf
      rw [hholds]
      exact fades_prunedAt .prune _ key
    | wrote sw next hcarries hedit =>
      exact (hedit.fades hproper.1).trans (fades_persist _ key)

end

/-! ### Whole histories -/

section

variable {lo : ℚ} {history : List SwitchEvent}

theorem Ready.run (hready : host.Ready cfg lo) (hclock : Clocked lo history hi)
    (hsturdy : ∀ event ∈ history, Sturdy cfg event) : (host.run cfg history).Ready cfg hi :=
  hclock.run (fun wall host => host.Ready cfg wall) (fun hle hbefore => hbefore.mono hle)
    (fun hevent hwithin hbefore => hbefore.step hevent hwithin) hsturdy hready

theorem strikesAfter_eq (hready : host.Ready cfg lo) (hclock : Clocked lo history hi)
    (hsturdy : ∀ event ∈ history, Sturdy cfg event) :
    strikesAfter cfg key host (host.strikesOf key) history =
      (host.run cfg history).strikesOf key := by
  induction history generalizing lo host with
  | nil => rfl
  | cons event rest ih =>
    obtain ⟨mid, hwithin, hrest⟩ := hclock
    have hevent : Sturdy cfg event := hsturdy event List.mem_cons_self
    have hafter : (if ((host.step cfg event).switch.quarantine.get? key).isNone then none
        else host.struck cfg key event (host.strikesOf key)) =
          (host.step cfg event).strikesOf key := by
      rcases hready.fades hevent hwithin key with heq | ⟨hgone, -⟩
      · rw [← heq, strikesOf]
        cases (host.step cfg event).switch.quarantine.get? key <;> rfl
      · have hnone : (host.step cfg event).switch.quarantine.get? key = none :=
          map_eq_none_iff.mp hgone
        rw [hgone, hnone]
        rfl
    change strikesAfter cfg key (host.step cfg event) _ rest = _
    rw [hafter]
    exact ih (hready.step hevent hwithin) hrest
      fun other hmem => hsturdy other (List.mem_cons_of_mem _ hmem)

def HeldUntil (key : String) (untilWall : ℚ) (host : SwitchHost) : Prop :=
  ∃ strikes, host.strikesOf key = some strikes ∧ strikes.untilWall = untilWall

variable {untilWall : ℚ}

theorem Ready.activeKey_ne (hready : host.Ready cfg lo) (hheld : host.HeldUntil key untilWall)
    (htime : lo < untilWall) : host.activeKey ≠ some key := by
  obtain ⟨⟨active, hproper⟩, -⟩ := hready
  obtain ⟨strikes, hstrikes, huntil⟩ := hheld
  obtain ⟨entry, hget, rfl⟩ := map_eq_some_iff.mp hstrikes
  cases active with
  | none =>
    rw [activeKey_of_idle hproper.1]
    nofun
  | some active =>
    rw [activeKey_of_carries hproper.1]
    intro hkey
    obtain rfl : active.key = key := Option.some.inj hkey
    have hfree := (hproper.2 active rfl).2
    have hbusy : heldAt lo host.switch.quarantine active.key = true :=
      heldAt_iff.mpr ⟨entry, hget, lt_of_lt_of_eq htime huntil.symm⟩
    rw [hbusy] at hfree
    cases hfree

theorem HeldUntil.step (hheld : host.HeldUntil key untilWall) (hready : host.Ready cfg lo)
    (hsturdy : Sturdy cfg event) (hwithin : event.readings.Within lo hi)
    (hmax : 0 < cfg.quarantineMaxS) (hcall : event.call ≠ .clearQuarantine key)
    (htime : hi < untilWall) : (host.step cfg event).HeldUntil key untilWall := by
  have hne : host.activeKey ≠ some key :=
    hready.activeKey_ne hheld (lt_of_le_of_lt hwithin.le htime)
  obtain ⟨strikes, hstrikes, huntil⟩ := hheld
  have hsame : host.struck cfg key event (host.strikesOf key) = some strikes := by
    rw [← hstrikes]
    exact struck_of_other hne hcall
  rcases hready.fades hsturdy hwithin key with heq | ⟨-, hgone⟩
  · exact ⟨strikes, heq.trans hsame, huntil⟩
  · obtain ⟨site, hsite⟩ := hgone strikes hsame
    linarith [(hwithin site).2]

theorem HeldUntil.run (hheld : host.HeldUntil key untilWall) (hready : host.Ready cfg lo)
    (hclock : Clocked lo history hi) (hsturdy : ∀ event ∈ history, Sturdy cfg event)
    (hmax : 0 < cfg.quarantineMaxS) (hcalls : ∀ event ∈ history, event.call ≠ .clearQuarantine key)
    (htime : hi < untilWall) : (host.run cfg history).HeldUntil key untilWall := by
  -- What is kept is conditional: past its end the hold may be forgotten.
  have hkept : (host.run cfg history).Ready cfg hi ∧
      (hi < untilWall → (host.run cfg history).HeldUntil key untilWall) := by
    refine hclock.run
      (fun wall host => host.Ready cfg wall ∧ (wall < untilWall → host.HeldUntil key untilWall))
      (fun hle hboth => ⟨hboth.1.mono hle, fun hlate => hboth.2 (lt_of_le_of_lt hle hlate)⟩) ?_
      (fun event hmem => And.intro (hsturdy event hmem) (hcalls event hmem))
      ⟨hready, fun _ => hheld⟩
    rintro lo hi host event ⟨hevent, hcall⟩ hwithin ⟨hbefore, hstill⟩
    refine ⟨hbefore.step hevent hwithin, ?_⟩
    intro hlate
    have hearly : lo < untilWall := lt_of_le_of_lt hwithin.le hlate
    exact (hstill hearly).step hbefore hevent hwithin hmax hcall hlate
  exact hkept.2 htime

theorem request_of_heldUntil (hheld : host.HeldUntil (holdKey resize target) untilWall)
    (hmax : 0 < cfg.quarantineMaxS) (horder : r.wall .prune ≤ r.wall .quarantined)
    (htime : r.wall .quarantined < untilWall) :
    (host.request cfg r target context resize).2 = false := by
  obtain ⟨strikes, hstrikes, rfl⟩ := hheld
  obtain ⟨entry, hget, rfl⟩ := map_eq_some_iff.mp hstrikes
  have hkept : entry.remembered cfg (r.wall .prune) = true := by
    rw [Hold.remembered_iff]
    change r.wall .quarantined < entry.untilWall at htime
    linarith
  have hpruned : heldAt (r.wall .quarantined)
      (prunedAt cfg (r.wall .prune) host.switch.quarantine) (holdKey resize target) = true := by
    rw [heldAt_iff, get?_prunedAt, hget, filter_some, if_pos hkept]
    exact ⟨entry, rfl, htime⟩
  unfold request
  split
  · rfl
  split
  · rfl
  exact congrArg Prod.snd (if_pos hpruned)

end

/-! ### The backoff -/

def refusedWhenIdle (cfg : SwitchConfig) (r : Readings) (target : String) (context : Option ℤ)
    (resize : Bool) (host : SwitchHost) : Bool :=
  !(request cfg r target context resize
    { host with switch := { host.switch with state := .idle } }).2

theorem heldAt_prunedAt (cfg : SwitchConfig) (wall prune : ℚ) (holds : OrdDict String Hold)
    (key : String) :
    heldAt wall (prunedAt cfg prune holds) key =
      ((holds.get? key).map Hold.strikes).any fun strikes =>
        decide (prune < strikes.untilWall + cfg.quarantineMaxS) &&
          decide (wall < strikes.untilWall) := by
  unfold heldAt
  rw [get?_prunedAt]
  cases holds.get? key with
  | none => rfl
  | some entry =>
    by_cases hkept : entry.remembered cfg prune = true
    · rw [filter_some, if_pos hkept]
      rw [Hold.remembered_iff] at hkept
      simp [Hold.strikes, hkept]
    · rw [filter_some, if_neg hkept]
      rw [Hold.remembered_iff, not_lt] at hkept
      simp [Hold.strikes, hkept]

theorem refusedWhenIdle_eq (cfg : SwitchConfig) (r : Readings) (target : String)
    (context : Option ℤ) (resize : Bool) (host : SwitchHost) :
    host.refusedWhenIdle cfg r target context resize =
      (decide (target = "") || (host.strikesOf (holdKey resize target)).any fun strikes =>
        decide (r.wall .prune < strikes.untilWall + cfg.quarantineMaxS) &&
          decide (r.wall .quarantined < strikes.untilWall)) := by
  unfold strikesOf
  rw [← heldAt_prunedAt]
  unfold refusedWhenIdle request
  by_cases hnamed : target = ""
  · rw [if_pos hnamed, decide_eq_true hnamed]
    rfl
  rw [if_neg hnamed, if_neg (not_not_intro rfl), decide_eq_false hnamed, Bool.false_or]
  dsimp only
  cases hheld : heldAt (r.wall .quarantined)
      (prunedAt cfg (r.wall .prune) host.switch.quarantine) (holdKey resize target) with
  | true => exact congrArg (! Prod.snd ·) (if_pos hheld)
  | false => exact congrArg (! Prod.snd ·) (if_neg (ne_true_of_eq_false hheld))

theorem refusedWhenIdle_of_fades {r' : Readings} {before after : SwitchHost}
    (hfades : Fades cfg r' (before.strikesOf (holdKey resize target))
      (after.strikesOf (holdKey resize target))) (hlater : ∀ site, r'.wall site ≤ r.wall .prune) :
    after.refusedWhenIdle cfg r target context resize =
      before.refusedWhenIdle cfg r target context resize := by
  rw [refusedWhenIdle_eq, refusedWhenIdle_eq]
  rcases hfades with heq | ⟨hnone, hgone⟩
  · rw [heq]
  · rw [hnone]
    cases hbefore : before.strikesOf (holdKey resize target) with
    | none => rfl
    | some strikes =>
      obtain ⟨site, hsite⟩ := hgone strikes hbefore
      have hpast : ¬ r.wall .prune < strikes.untilWall + cfg.quarantineMaxS :=
        not_lt.mpr (le_trans hsite (hlater site))
      simp [hpast]

section

variable {mid stop : ℚ} (hready : host.Ready cfg mid) (hevent : Sturdy cfg event)
  (hwithin : event.readings.Within mid stop) (hfails : host.failsFor cfg key event = true)

include hready hevent hwithin hfails

theorem request_refused_after_failure {later : List SwitchEvent} (hafter : Clocked stop later hi)
    (hlater : ∀ site, hi ≤ r.wall site) (horder : r.wall .prune ≤ r.wall .quarantined)
    (hsturdy : ∀ other ∈ later, Sturdy cfg other) (hkey : holdKey resize target = key)
    (context : Option ℤ) (hcalls : ∀ other ∈ later, other.call ≠ .clearQuarantine key)
    (htime : r.wall .quarantined <
      event.readings.wall .hold + cfg.holdAfter (strikeCount (host.strikesOf key))) :
    (((host.step cfg event).run cfg later).request cfg r target context resize).2 = false := by
  subst hkey
  set untilWall := event.readings.wall .hold +
    cfg.holdAfter (strikeCount (host.strikesOf (holdKey resize target)))
  have hnow : event.readings.wall .hold ≤ hi := le_trans (hwithin .hold).2 hafter.le
  have hpositive : 0 < cfg.holdAfter (strikeCount (host.strikesOf (holdKey resize target))) := by
    linarith [hlater .quarantined]
  have hmax : 0 < cfg.quarantineMaxS := lt_of_lt_of_le hpositive (min_le_right _ _)
  have hstruck : host.struck cfg (holdKey resize target) event
      (host.strikesOf (holdKey resize target)) =
        some ⟨strikeCount (host.strikesOf (holdKey resize target)) + 1, untilWall⟩ := by
    rw [struck, if_pos hfails]
  have hheld : (host.step cfg event).HeldUntil (holdKey resize target) untilWall := by
    rcases hready.fades hevent hwithin (holdKey resize target) with heq | ⟨-, hgone⟩
    · exact ⟨_, heq.trans hstruck, rfl⟩
    · obtain ⟨site, hsite⟩ := hgone _ hstruck
      linarith [(hwithin site).2, hafter.le, hlater .quarantined]
  have hstill := hheld.run (hready.step hevent hwithin) hafter hsturdy hmax hcalls
    (lt_of_le_of_lt (hlater .quarantined) htime)
  exact request_of_heldUntil hstill hmax horder htime

theorem refusedWhenIdle_after_failure (hlate : ∀ site, event.readings.wall site ≤ r.wall .prune)
    (target : String) (context : Option ℤ) (resize : Bool) (hother : holdKey resize target ≠ key) :
    (host.step cfg event).refusedWhenIdle cfg r target context resize =
      host.refusedWhenIdle cfg r target context resize := by
  rw [failsFor, Bool.and_eq_true, decide_eq_true_eq] at hfails
  obtain ⟨hfailure, hactive⟩ := hfails
  have hne : host.activeKey ≠ some (holdKey resize target) := by
    rw [hactive]
    exact fun heq => hother (Option.some.inj heq).symm
  have hsame := hready.fades hevent hwithin (holdKey resize target)
  rw [struck_of_other hne (call_of_startFails hfailure _)] at hsame
  exact refusedWhenIdle_of_fades hsame hlate

end

theorem quarantine_backoff (cfg : SwitchConfig) (r₀ r : Readings) (file : Option PersistFile)
    (before later : List SwitchEvent) (event : SwitchEvent) {first lo hi : ℚ}
    (hstart : r₀.Within first lo) (hclock : Clocked lo (before ++ event :: later) hi)
    (hlater : ∀ site, hi ≤ r.wall site) (horder : r.wall .prune ≤ r.wall .quarantined)
    (hwrite₀ : r₀.writeOk = true) (hsturdy : ∀ other ∈ before ++ event :: later, Sturdy cfg other)
    (key : String) :
    let start := resumePersisted cfg r₀ file
    let host := run cfg start before
    let strikes := strikesAfter cfg key start (start.strikesOf key) before
    let k := strikeCount strikes + 1
    let t := event.readings.wall .hold
    (∀ struck, host.struck cfg key event strikes = some struck →
        (host.step cfg event).strikesOf key = none →
          ∃ site, struck.untilWall + cfg.quarantineMaxS ≤ event.readings.wall site) ∧
      (host.failsFor cfg key event = true →
        (∀ target context resize, holdKey resize target = key →
          (∀ other ∈ later, other.call ≠ .clearQuarantine key) →
            r.wall .quarantined <
              t + min (cfg.quarantineS * 2 ^ min (k - 1) 8) cfg.quarantineMaxS →
              ((run cfg start (before ++ event :: later)).request cfg r target context
                resize).2 = false) ∧
          ∀ target context resize, holdKey resize target ≠ key →
            (host.step cfg event).refusedWhenIdle cfg r target context resize =
              host.refusedWhenIdle cfg r target context resize) := by
  intro start host strikes k t
  obtain ⟨mid, stop, hbefore, hwithin, hafter⟩ := Clocked.split hclock
  have hevent : Sturdy cfg event := hsturdy event (by simp)
  have hready₀ : start.Ready cfg lo := ready_resumePersisted hwrite₀ hstart file
  have hready : host.Ready cfg mid :=
    hready₀.run hbefore fun other hmem => hsturdy other (by simp [hmem])
  have hstrikes : strikes = host.strikesOf key :=
    strikesAfter_eq hready₀ hbefore fun other hmem => hsturdy other (by simp [hmem])
  refine ⟨?_, fun hfails => ⟨?_, ?_⟩⟩
  · intro struck hstruck hnone
    rw [hstrikes] at hstruck
    rcases hready.fades hevent hwithin key with heq | ⟨-, hgone⟩
    · rw [hnone, hstruck] at heq
      cases heq
    · exact hgone struck hstruck
  · intro target context resize hkey hcalls htime
    have hrun : run cfg start (before ++ event :: later) =
        run cfg (host.step cfg event) later := by
      simp [run, host]
    rw [hrun]
    refine request_refused_after_failure hready hevent hwithin hfails hafter hlater horder
      (fun other hmem => hsturdy other (by simp [hmem])) hkey context hcalls ?_
    rwa [← hstrikes]
  · intro target context resize hother
    refine refusedWhenIdle_after_failure hready hevent hwithin hfails (fun site => ?_)
      target context resize hother
    exact le_trans (le_trans (hwithin site).2 hafter.le) (hlater .prune)

/-- Two failures of one kind with a restart between them: the second holds it back for twice as
long. A hold that a restart or an abort had forgotten would end at 3900. -/
theorem quarantine_backoff_second :
    let cfg : SwitchConfig := { persistPath := true }
    let r (wall : ℚ) : Readings := ⟨wall, fun _ => wall, true⟩
    let fatal : SwitchCall := .reportStartOutcome (.outcome ⟨.permanent, "oom"⟩)
    let before : List SwitchEvent :=
      [⟨.request "vllm" none false, r 10⟩, ⟨fatal, r 20⟩, ⟨.restart, r 30⟩,
        ⟨.request "vllm" none false, r 2990⟩]
    let host := run cfg (resumePersisted cfg (r 0) none) (before ++ [⟨fatal, r 3000⟩])
    (host.request cfg (r 4799) "vllm" none false).2 = false := by
  intro cfg r fatal before host
  have hclock : Clocked 0 (before ++ [⟨fatal, r 3000⟩]) 3000 :=
    ⟨10, within_of_le (by norm_num) le_rfl, 20, within_of_le (by norm_num) le_rfl,
      30, within_of_le (by norm_num) le_rfl, 2990, within_of_le (by norm_num) le_rfl,
      3000, within_of_le (by norm_num) le_rfl, le_rfl⟩
  have hsturdy : ∀ event ∈ before ++ [⟨fatal, r 3000⟩], Sturdy cfg event := by
    simp [before, Sturdy, cfg, r]
  have hfails : (run cfg (resumePersisted cfg (r 0) none) before).failsFor cfg "vllm"
      ⟨fatal, r 3000⟩ = true := by decide +kernel
  have hcount : strikeCount (strikesAfter cfg "vllm" (resumePersisted cfg (r 0) none)
      ((resumePersisted cfg (r 0) none).strikesOf "vllm") before) = 1 := by decide +kernel
  have hbackoff := quarantine_backoff cfg (r 0) (r 4799) none before [] ⟨fatal, r 3000⟩
    (within_of_le le_rfl le_rfl) hclock (fun _ => by norm_num [r]) le_rfl rfl hsturdy "vllm"
  apply (hbackoff.2 hfails).1 "vllm" none false rfl
  · nofun
  · rw [hcount]
    norm_num [cfg, r]

end SwitchHost

end BrokerParrot
