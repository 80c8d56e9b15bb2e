import BrokerParrot.RawSwitch

/-!
# Which files can make the switch raise

The constructor swallows every exception, and still a file can break the object: the quarantine is
assigned before it is read, so an entry that cannot be read stays, and the next call that reads it
raises. Here the files are told apart exactly: a file is sound if every entry's end can be read as a
float, and its failure count as far as a call can ever need it.
-/

namespace BrokerParrot

open OrdDict

variable {text : PyText} {key : String} {entry : RawHold} {cutoff : ℚ} {untilWall : PyFloat}
  {cfg : SwitchConfig} {r : Readings} {sw : RawSwitch} {error : CastError}
  {holds : OrdDict String RawHold}

namespace RawHold

/-- The count can be read, and raised to the power of two if a start of the key can fail. -/
def Countable (text : PyText) (key : String) (entry : RawHold) (untilWall : PyFloat) : Prop :=
  key = "" ∨ ∃ count, entry.failures text = .ok count ∧
    (untilWall = .posInf ∨ -PyFloat.limit < count)

/-- No call can raise because of this entry. One that ended before all time is pruned before
anything else reads it. -/
def Harmless (text : PyText) (key : String) (entry : RawHold) : Prop :=
  ∃ untilWall, entry.untilWall text = .ok untilWall ∧
    (untilWall = .negInf ∨ entry.Countable text key untilWall)

def Tame (text : PyText) (key : String) (entry : RawHold) : Prop :=
  ∃ untilWall, entry.untilWall text = .ok untilWall ∧ untilWall ≠ .negInf ∧
    entry.Countable text key untilWall

def Stale (text : PyText) (cutoff : ℚ) (entry : RawHold) : Prop :=
  ∃ untilWall, entry.untilWall text = .ok untilWall ∧ untilWall.atMost cutoff = true

instance (text : PyText) (cutoff : ℚ) (entry : RawHold) : Decidable (entry.Stale text cutoff) :=
  decidable_of_iff ((entry.untilWall text).toOption.any (·.atMost cutoff))
    (by unfold Stale; cases entry.untilWall text <;> simp [Except.toOption])

theorem stale_iff (huntil : entry.untilWall text = .ok untilWall) :
    entry.Stale text cutoff ↔ untilWall.atMost cutoff = true := by
  unfold Stale
  simp [huntil]

theorem untilWall_cons (text : PyText) (wall : ℚ) (rest : RawHold) :
    RawHold.untilWall text (("until_wall", .float (.finite wall)) :: rest) =
      .ok (.finite wall) := by
  change PyValue.toFloat text (if PyValue.truthy (.float (.finite wall)) then _ else _) = _
  by_cases hzero : wall = 0
  · subst hzero
    rfl
  · have htruthy : PyValue.truthy (.float (.finite wall)) = true := by
      simp [PyValue.truthy, hzero]
    rw [if_pos htruthy]
    rfl

theorem failures_cons (text : PyText) (first : PyValue) (count : ℤ) (rest : RawHold) :
    failures text (("until_wall", first) :: ("failures", .int count) :: rest) = .ok count := by
  change PyValue.toInt text (if PyValue.truthy (.int count) then _ else _) = _
  by_cases hzero : count = 0
  · subst hzero
    rfl
  · have htruthy : PyValue.truthy (.int count) = true := by
      simp [PyValue.truthy, hzero]
    rw [if_pos htruthy]
    rfl

theorem Harmless.tame (hharmless : entry.Harmless text key) (hkept : ¬ entry.Stale text cutoff) :
    entry.Tame text key := by
  obtain ⟨untilWall, huntil, hcases⟩ := hharmless
  have hnot : untilWall ≠ .negInf := by
    rintro rfl
    exact hkept ⟨.negInf, huntil, rfl⟩
  exact ⟨untilWall, huntil, hnot, hcases.resolve_left hnot⟩

end RawHold

namespace RawSwitch

variable {items : List (String × RawHold)}

/-! ### Pruning -/

theorem staleKeys_eq
    (hread : ∀ item ∈ items, ∃ untilWall, item.2.untilWall text = .ok untilWall) :
    staleKeys text cutoff items =
      .ok ((items.filter fun item => item.2.Stale text cutoff).map Prod.fst) := by
  induction items with
  | nil => rfl
  | cons item rest ih =>
    obtain ⟨untilWall, huntil⟩ := hread item List.mem_cons_self
    rw [staleKeys, huntil, ih fun other hmem => hread other (List.mem_cons_of_mem _ hmem)]
    change Except.ok (if untilWall.atMost cutoff then _ else _) = _
    by_cases hstale : item.2.Stale text cutoff
    · simp [hstale, (RawHold.stale_iff huntil).mp hstale]
    · simp [hstale, mt (RawHold.stale_iff huntil).mpr hstale]

theorem staleKeys_raises (hmem : (key, entry) ∈ items)
    (hraises : entry.untilWall text = .error error) :
    ∃ raised, staleKeys text cutoff items = .error raised := by
  induction items with
  | nil => cases hmem
  | cons item rest ih =>
    obtain ⟨first, head⟩ := item
    cases huntil : head.untilWall text with
    | error raised =>
      exact ⟨raised, by simp only [staleKeys, huntil]; rfl⟩
    | ok =>
      have hrest : (key, entry) ∈ rest := by
        rcases List.mem_cons.mp hmem with heq | hrest
        · cases heq
          rw [hraises] at huntil
          cases huntil
        · exact hrest
      obtain ⟨raised, hraised⟩ := ih hrest
      exact ⟨raised, by simp only [staleKeys, huntil, hraised]; rfl⟩

def Readable (text : PyText) (holds : OrdDict String RawHold) : Prop :=
  ∀ key entry, holds.get? key = some entry → ∃ untilWall, entry.untilWall text = .ok untilWall

def pruned (text : PyText) (cutoff : ℚ) (holds : OrdDict String RawHold) :
    OrdDict String RawHold :=
  holds.filter fun _ entry => !decide (entry.Stale text cutoff)

theorem get?_pruned {other : RawHold} : (pruned text cutoff holds).get? key = some other ↔
    holds.get? key = some other ∧ ¬ other.Stale text cutoff := by
  rw [pruned, get?_filter, Option.filter_eq_some_iff]
  simp

theorem prune_eq (hread : Readable text sw.quarantine) (wall : ℚ) :
    sw.pruneQuarantine text cfg wall =
      .ok { sw with quarantine := pruned text (wall - cfg.quarantineMaxS) sw.quarantine } := by
  unfold pruneQuarantine
  rw [staleKeys_eq fun item hmem => hread item.1 item.2 (mem_entries.mp hmem)]
  have hholds := foldl_erase_keys sw.quarantine
    fun entry => decide (entry.Stale text (wall - cfg.quarantineMaxS))
  exact congrArg (fun holds => Except.ok { sw with quarantine := holds }) hholds

theorem holdKey_ne_empty {target : String} (hnamed : target ≠ "") (resize : Bool) :
    holdKey resize target ≠ "" := by
  cases resize with
  | false => exact hnamed
  | true =>
    intro hempty
    have hlength : (target ++ ":context").length = 0 := by
      change (resizeKey target).length = 0
      rw [show resizeKey target = "" from hempty]
      rfl
    rw [String.length_append] at hlength
    have hcontext : (":context" : String).length = 8 := rfl
    omega

theorem powTwo_min {count : ℤ} (hcount : -PyFloat.limit < count) :
    PyValue.powTwo (min count 8) = .ok (2 ^ min count 8) := by
  have hrange : -PyFloat.limit < min count 8 := lt_min hcount (by decide +kernel)
  rw [PyValue.powTwo, if_pos hrange]

theorem quarantineLocked_returns (hkey : key ≠ "")
    (hholds : ∀ key entry, sw.quarantine.get? key = some entry → entry.Tame text key)
    (hends : ∀ entry, sw.quarantine.get? key = some entry → entry.untilWall text ≠ .ok .posInf)
    (wall : ℚ) (reason : String) :
    PyReturns (sw.quarantineLocked text cfg wall key reason) fun after =>
      ∃ holds, after = { sw with quarantine := holds } ∧
        ∀ key entry, holds.get? key = some entry → entry.Tame text key := by
  have hcount : ∃ count, ((sw.quarantine.get? key).getD []).failures text = .ok count ∧
      -PyFloat.limit < count := by
    cases hget : sw.quarantine.get? key with
    | none => exact ⟨0, rfl, by decide +kernel⟩
    | some entry =>
      obtain ⟨untilWall, huntil, -, hcountable⟩ := hholds key entry hget
      obtain ⟨count, hcount, hpower⟩ := hcountable.resolve_left hkey
      refine ⟨count, hcount, hpower.resolve_left ?_⟩
      rintro rfl
      exact hends entry hget huntil
  obtain ⟨count, hcount, hpower⟩ := hcount
  have hfactor := powTwo_min hpower
  let hold := min (cfg.quarantineS * 2 ^ min count 8) cfg.quarantineMaxS
  let holds := sw.quarantine.insert key (RawHold.written (wall + hold) (count + 1) reason wall)
  refine ⟨{ sw with quarantine := holds }, ?_, holds, rfl, ?_⟩
  · unfold quarantineLocked
    rw [hcount]
    change (PyValue.powTwo (min count 8) >>= _) = _
    rw [hfactor]
    rfl
  · intro other entry hget
    by_cases hother : other = key
    · subst hother
      rw [get?_insert_self, Option.some.injEq] at hget
      subst hget
      refine ⟨_, RawHold.untilWall_cons _ _ _, nofun, Or.inr ⟨count + 1, ?_, ?_⟩⟩
      · exact RawHold.failures_cons _ _ _ _
      · exact Or.inr (lt_trans hpower (lt_add_one count))
    · rw [get?_insert_of_ne _ _ hother] at hget
      exact hholds other entry hget

/-! ### Tame switches do not raise -/

/-- Nothing in memory can make a call raise. The key of the switch in progress has no entry that
lasts for ever, since a request for it was let through. -/
structure Tame (text : PyText) (sw : RawSwitch) : Prop where
  holds : ∀ key entry, sw.quarantine.get? key = some entry → entry.Tame text key
  active : sw.state ≠ .idle → ∃ target, sw.target = some target ∧ target ≠ "" ∧
    ∀ entry, sw.quarantine.get? (holdKey sw.resize target) = some entry →
      entry.untilWall text ≠ .ok .posInf

theorem tame_fresh (text : PyText) : fresh.Tame text :=
  ⟨nofun, fun hbusy => absurd rfl hbusy⟩

variable (htame : sw.Tame text)

include htame

theorem Tame.readable : Readable text sw.quarantine := by
  intro key entry hget
  obtain ⟨untilWall, huntil, -⟩ := htame.holds key entry hget
  exact ⟨untilWall, huntil⟩

theorem Tame.of_sub
    (hsub : ∀ key entry, holds.get? key = some entry → sw.quarantine.get? key = some entry) :
    Tame text { sw with quarantine := holds } := by
  refine ⟨fun key entry hget => htame.holds key entry (hsub key entry hget), ?_⟩
  intro hbusy
  obtain ⟨target, htarget, hnamed, hends⟩ := htame.active hbusy
  exact ⟨target, htarget, hnamed, fun entry hget => hends entry (hsub _ entry hget)⟩

theorem Tame.prune (wall : ℚ) : PyReturns (sw.pruneQuarantine text cfg wall) (Tame text) := by
  rw [prune_eq htame.readable]
  exact PyReturns.ok (htame.of_sub fun key entry hget => (get?_pruned.mp hget).1)

theorem Tame.of_fields {other : RawSwitch} (hholds : other.quarantine = sw.quarantine)
    (htarget : other.target = sw.target) (hresize : other.resize = sw.resize)
    (hstate : other.state ≠ .idle → sw.state ≠ .idle) : other.Tame text := by
  constructor
  · rw [hholds]
    exact htame.holds
  · rw [hholds, htarget, hresize]
    exact fun hbusy => htame.active (hstate hbusy)

theorem Tame.quarantinedLocked (wall : ℚ) (key : String) :
    PyReturns (sw.quarantinedLocked text wall key) fun held => held = false →
      ∀ entry, sw.quarantine.get? key = some entry → entry.untilWall text ≠ .ok .posInf := by
  unfold RawSwitch.quarantinedLocked
  cases hget : sw.quarantine.get? key with
  | none => exact PyReturns.ok nofun
  | some entry =>
    dsimp only
    split
    · rename_i hempty
      obtain rfl : entry = [] := List.isEmpty_iff.mp hempty
      apply PyReturns.ok
      rintro - other ⟨rfl⟩
      nofun
    · obtain ⟨untilWall, huntil, -⟩ := htame.holds key entry hget
      refine ⟨untilWall.exceeds wall, ?_, ?_⟩
      · rw [huntil]
        rfl
      · rintro hfree other ⟨rfl⟩ hends
        rw [huntil] at hends
        cases hends
        cases hfree

theorem Tame.entry_reads (hkey : key ≠ "") :
    (∃ untilWall, ((sw.quarantine.get? key).getD []).untilWall text = .ok untilWall) ∧
      ∃ count, ((sw.quarantine.get? key).getD []).failures text = .ok count := by
  cases hget : sw.quarantine.get? key with
  | none => exact ⟨⟨.finite 0, rfl⟩, 0, rfl⟩
  | some entry =>
    obtain ⟨untilWall, huntil, -, hcountable⟩ := htame.holds key entry hget
    obtain ⟨count, hcount, -⟩ := hcountable.resolve_left hkey
    exact ⟨⟨untilWall, huntil⟩, count, hcount⟩

variable (cfg : SwitchConfig) (r : Readings)

theorem Tame.persist : PyReturns (sw.persist text cfg r) (Tame text) := by
  unfold RawSwitch.persist
  split
  · exact htame.prune _
  · exact PyReturns.ok htame

theorem Tame.reset : PyReturns (sw.reset text cfg r) (Tame text) := by
  apply Tame.persist
  exact ⟨htame.holds, fun hbusy => absurd rfl hbusy⟩

theorem Tame.abort : PyReturns (sw.abort text cfg r) fun after => after.1.Tame text :=
  (htame.reset cfg r).bind fun _ hafter => PyReturns.ok hafter

theorem Tame.abortAndQuarantine (hbusy : sw.state ≠ .idle) (reason : String) :
    PyReturns (sw.abortAndQuarantine text cfg r reason) fun after => after.1.Tame text := by
  obtain ⟨target, htarget, hnamed, hends⟩ := htame.active hbusy
  unfold RawSwitch.abortAndQuarantine
  rw [htarget]
  dsimp only
  rw [if_neg hnamed]
  refine (quarantineLocked_returns (holdKey_ne_empty hnamed _) htame.holds hends _ reason).bind ?_
  rintro after ⟨holds, rfl, hholds⟩
  -- The switch is over right after, so only the entries matter.
  refine (Tame.persist ?_ cfg r).bind fun _ hafter => PyReturns.ok hafter
  exact ⟨hholds, fun habsurd => absurd rfl habsurd⟩

theorem Tame.request (target : String) (contextLength : Option ℤ) (resize : Bool) :
    PyReturns (sw.request text cfg r target contextLength resize) fun after =>
      after.1.Tame text := by
  unfold RawSwitch.request
  by_cases hnamed : target = ""
  · rw [if_pos hnamed]
    exact PyReturns.ok htame
  rw [if_neg hnamed]
  split
  · exact PyReturns.ok htame
  refine (htame.prune _).bind fun pruned hpruned => ?_
  refine (hpruned.quarantinedLocked (r.wall .quarantined) (holdKey resize target)).bind ?_
  intro held hfree
  cases held with
  | true =>
    obtain ⟨⟨untilWall, huntil⟩, count, hcount⟩ :=
      hpruned.entry_reads (holdKey_ne_empty hnamed resize)
    refine ⟨(pruned, false), ?_, hpruned⟩
    simp only [if_true, huntil, hcount]
    rfl
  | false =>
    refine (Tame.persist ?_ cfg r).bind fun _ hafter => PyReturns.ok hafter
    exact ⟨hpruned.holds, fun _ => ⟨target, rfl, hnamed, hfree rfl⟩⟩

theorem Tame.startWarming (hbusy : sw.state ≠ .idle) :
    PyReturns (sw.startWarming text cfg r) fun after => after.1.Tame text := by
  refine (Tame.persist ?_ cfg r).bind fun _ hafter => PyReturns.ok hafter
  exact htame.of_fields rfl rfl rfl fun _ => hbusy

theorem Tame.complete : PyReturns (sw.complete text cfg r) fun after => after.1.Tame text := by
  refine (Tame.reset ?_ cfg r).bind fun _ hafter => PyReturns.ok hafter
  unfold SwitchState.released
  split
  · split
    · exact htame
    · exact htame.of_sub fun _ _ => get?_of_erase
  · exact htame

theorem Tame.tickDraining (hbusy : sw.state ≠ .idle) (obs : Observations) :
    PyReturns (sw.tickDraining text cfg r obs) fun after => after.1.Tame text := by
  unfold RawSwitch.tickDraining
  split
  · split
    · exact htame.abort cfg r
    · exact PyReturns.ok htame
  · split
    · exact htame.startWarming cfg r hbusy
    · exact PyReturns.ok (htame.of_fields rfl rfl rfl fun _ => hbusy)

theorem Tame.tickSwitching (hbusy : sw.state ≠ .idle) (obs : Observations) :
    PyReturns (sw.tickSwitching text cfg r obs) fun after => after.1.Tame text := by
  unfold RawSwitch.tickSwitching
  split
  · split
    · exact htame.abort cfg r
    · split
      · exact PyReturns.ok (htame.of_fields rfl rfl rfl id)
      · exact PyReturns.ok htame
  · exact htame.startWarming cfg r hbusy

theorem Tame.tickWarming (hbusy : sw.state ≠ .idle) (obs : Observations) :
    PyReturns (sw.tickWarming text cfg r obs) fun after => after.1.Tame text := by
  unfold RawSwitch.tickWarming
  split
  · exact htame.complete cfg r
  split
  · exact htame.abortAndQuarantine cfg r hbusy _
  split
  · exact htame.abortAndQuarantine cfg r hbusy _
  split
  · exact PyReturns.ok htame
  split
  · exact PyReturns.ok (htame.of_fields rfl rfl rfl id)
  · exact PyReturns.ok htame

theorem Tame.tick (obs : Observations) :
    PyReturns (sw.tick text cfg r obs) fun after => after.1.Tame text := by
  unfold RawSwitch.tick
  split
  · exact PyReturns.ok htame
  · rename_i hbusy
    split
    · exact htame.abort cfg r
    · split
      · exact PyReturns.ok htame
      · exact htame.tickDraining cfg r hbusy obs
      · exact htame.tickSwitching cfg r hbusy obs
      · exact htame.tickWarming cfg r hbusy obs

theorem Tame.reportStartOutcome (value : LeverReturn) :
    PyReturns (sw.reportStartOutcome text cfg r value) fun after => after.1.Tame text := by
  unfold RawSwitch.reportStartOutcome
  dsimp only
  split
  · exact PyReturns.ok htame
  · rename_i hbusy
    split
    · have hreported : Tame text (sw.reported r (StartOutcome.coerce value)) :=
        htame.of_fields rfl rfl rfl id
      exact hreported.abortAndQuarantine cfg r hbusy _
    · refine (Tame.persist ?_ cfg r).bind fun _ hafter => PyReturns.ok hafter
      obtain ⟨ack, since, heq⟩ := SwitchState.acknowledge_eq r (StartOutcome.coerce value)
        (sw.reported r (StartOutcome.coerce value))
      rw [heq]
      exact htame.of_fields rfl rfl rfl id

theorem Tame.blocksClaims :
    PyReturns (sw.blocksClaims text cfg r) fun after => after.1.Tame text := by
  unfold RawSwitch.blocksClaims
  split
  · exact PyReturns.ok htame
  split
  · exact (htame.reset cfg r).bind fun _ hafter => PyReturns.ok hafter
  split
  · exact (htame.reset cfg r).bind fun _ hafter => PyReturns.ok hafter
  · exact PyReturns.ok htame

theorem Tame.step (call : RawCall) : PyReturns (sw.step text cfg call r) (Tame text) := by
  cases call with
  | request target contextLength resize =>
    exact (htame.request cfg r target contextLength resize).map fun _ hafter => hafter
  | tick obs => exact (htame.tick cfg r obs).map fun _ hafter => hafter
  | blocksClaims => exact (htame.blocksClaims cfg r).map fun _ hafter => hafter
  | reportStartOutcome value =>
    exact (htame.reportStartOutcome cfg r value).map fun _ hafter => hafter
  | abandon =>
    change PyReturns (sw.abandon text cfg r) _
    unfold RawSwitch.abandon
    split
    · exact PyReturns.ok htame
    · exact htame.reset cfg r
  | quarantined kind => exact (htame.quarantinedLocked _ kind).map fun _ _ => htame
  | resizeQuarantined kind =>
    exact (htame.quarantinedLocked _ (resizeKey kind)).map fun _ _ => htame
  | clearQuarantine kind =>
    change PyReturns (sw.clearQuarantine text cfg r kind) _
    unfold RawSwitch.clearQuarantine
    split
    · exact PyReturns.ok htame
    · exact (htame.of_sub fun _ _ => get?_of_erase).persist cfg r

theorem Tame.run (history : List (RawCall × Readings)) :
    PyReturns (sw.run text cfg history) (Tame text) := by
  induction history generalizing sw with
  | nil => exact PyReturns.ok htame
  | cons event rest ih =>
    obtain ⟨call, r⟩ := event
    exact (htame.step cfg r call).bind fun after hafter => ih hafter

/-! ### Construction -/

theorem Tame.reenter (record : RawRecord) (hfree : record.target ≠ "" → ∀ entry,
      sw.quarantine.get? (holdKey record.resize record.target) = some entry →
        entry.untilWall text ≠ .ok .posInf) : (sw.reenter cfg r record).Tame text := by
  unfold RawSwitch.reenter
  split
  · dsimp only
    split
    · rename_i hbudget
      refine ⟨htame.holds, fun _ => ?_⟩
      exact ⟨record.target, rfl, hbudget.1, hfree hbudget.1⟩
    · exact htame
  · exact htame

theorem Tame.resume (record : RawRecord) : PyReturns (sw.resume text cfg r record) (Tame text) := by
  have hheld : PyReturns (sw.heldBack text r record) fun held => held = false →
      record.target ≠ "" → ∀ entry,
        sw.quarantine.get? (holdKey record.resize record.target) = some entry →
          entry.untilWall text ≠ .ok .posInf := by
    unfold RawSwitch.heldBack
    split
    · rename_i hempty
      exact PyReturns.ok fun _ hnamed => absurd hempty hnamed
    · exact (htame.quarantinedLocked _ _).mono fun held hfree hheld _ => hfree hheld
  refine hheld.bind ?_
  intro held hfree
  cases held with
  | true => exact PyReturns.ok htame
  | false => exact PyReturns.ok (htame.reenter cfg r record (hfree rfl))

theorem Tame.takeUp (record : Except CastError RawRecord) :
    (sw.takeUp text cfg r record).Tame text := by
  unfold RawSwitch.takeUp
  cases record with
  | error => exact htame
  | ok record =>
    obtain ⟨resumed, hresumed, htame⟩ := htame.resume cfg r record
    obtain ⟨after, hafter, htame⟩ := htame.persist cfg r
    dsimp only
    rw [hresumed]
    dsimp only
    rwa [hafter]

end RawSwitch

def RawFile.quarantine (text : PyText) : RawFile → Option (OrdDict String RawHold)
  | .json (.dict fields) =>
    match ((PyValue.field fields "v").orElse (.int 0)).toInt text, RawSwitch.readHolds fields with
    | .ok version, .ok holds => if 2 ≤ version then some holds else none
    | _, _ => none
  | _ => none

def RawFile.Sound (text : PyText) (file : RawFile) : Prop :=
  ∀ holds, file.quarantine text = some holds →
    ∀ key entry, holds.get? key = some entry → entry.Harmless text key

namespace RawSwitch

variable {file : RawFile}

theorem resumePersisted_cases (text : PyText) (cfg : SwitchConfig) (r : Readings) (file : RawFile) :
    (∃ holds record, file.quarantine text = some holds ∧ cfg.persistPath = true ∧
        resumePersisted text cfg r file = adopt text cfg r holds record) ∨
      ((cfg.persistPath = false ∨ file.quarantine text = none) ∧
        (resumePersisted text cfg r file).Tame text) := by
  unfold resumePersisted
  by_cases hpath : cfg.persistPath = true
  · rw [if_pos hpath]
    match file with
    | .missing | .unreadable | .json .none | .json (.bool _) | .json (.int _) | .json (.float _)
    | .json (.str _) | .json (.list _) => exact Or.inr ⟨Or.inr rfl, tame_fresh text⟩
    | .json (.dict fields) =>
      cases hversion : ((PyValue.field fields "v").orElse (.int 0)).toInt text with
      | error =>
        have hnone : (RawFile.json (.dict fields)).quarantine text = none := by
          simp only [RawFile.quarantine, hversion]
        simp only [hversion]
        exact Or.inr ⟨Or.inr hnone, tame_fresh text⟩
      | ok version =>
        simp only [hversion]
        by_cases hnew : 2 ≤ version
        · rw [if_pos hnew]
          cases hread : readHolds fields with
          | error =>
            have hnone : (RawFile.json (.dict fields)).quarantine text = none := by
              simp only [RawFile.quarantine, hversion, hread]
            exact Or.inr ⟨Or.inr hnone, tame_fresh text⟩
          | ok holds =>
            have hsome : (RawFile.json (.dict fields)).quarantine text = some holds := by
              simp only [RawFile.quarantine, hversion, hread, if_pos hnew]
            exact Or.inl ⟨holds, readRecord text fields, hsome, hpath, rfl⟩
        · rw [if_neg hnew]
          have hnone : (RawFile.json (.dict fields)).quarantine text = none := by
            simp only [RawFile.quarantine, hversion]
            cases readHolds fields with
            | error => rfl
            | ok => exact if_neg hnew
          exact Or.inr ⟨Or.inr hnone, (tame_fresh text).takeUp cfg r _⟩
  · rw [if_neg hpath]
    exact Or.inr ⟨Or.inl (Bool.eq_false_of_not_eq_true hpath), tame_fresh text⟩

theorem adopt_eq (hread : Readable text holds) (record : Except CastError RawRecord) :
    adopt text cfg r holds record =
      (holding (pruned text (r.wall .prune - cfg.quarantineMaxS) holds)).takeUp text cfg r
        record := by
  have hstart : Readable text (holding holds).quarantine := hread
  unfold adopt
  rw [prune_eq hstart]
  rfl

theorem tame_of_sound (hsound : file.Sound text) : (resumePersisted text cfg r file).Tame text := by
  rcases resumePersisted_cases text cfg r file with ⟨holds, record, hholds, -, heq⟩ | ⟨-, htame⟩
  · have hread : Readable text holds := by
      intro key entry hget
      obtain ⟨untilWall, huntil, -⟩ := hsound holds hholds key entry hget
      exact ⟨untilWall, huntil⟩
    rw [heq, adopt_eq hread]
    apply Tame.takeUp
    refine ⟨?_, fun hbusy => absurd rfl hbusy⟩
    intro key entry hget
    obtain ⟨hbefore, hkept⟩ := get?_pruned.mp hget
    exact (hsound holds hholds key entry hbefore).tame hkept
  · exact htame

/-! ### Unsound files raise -/

theorem request_raises (hget : holds.get? key = some entry)
    (hraises : entry.untilWall text = .error error) (record : Except CastError RawRecord) :
    ∃ raised, run text cfg (adopt text cfg r holds record) [(.request "x" none false, r)] =
      .error raised := by
  have hprune : ∃ raised, (holding holds).pruneQuarantine text cfg (r.wall .prune) =
      .error raised := by
    have hstale : ∃ raised, staleKeys text (r.wall .prune - cfg.quarantineMaxS) holds.entries =
        .error raised := staleKeys_raises (mem_entries.mpr hget) hraises
    obtain ⟨raised, hstale⟩ := hstale
    refine ⟨raised, ?_⟩
    change (staleKeys text _ holds.entries >>= _) = _
    rw [hstale]
    rfl
  obtain ⟨raised, hraised⟩ := hprune
  have hadopt : adopt text cfg r holds record = holding holds := by
    unfold adopt
    rw [hraised]
  have hrequest : (holding holds).request text cfg r "x" none false = .error raised := by
    have hidle : (holding holds).state = .idle := rfl
    unfold RawSwitch.request
    rw [if_neg (by decide), if_neg (not_not_intro hidle), hraised]
    rfl
  refine ⟨raised, ?_⟩
  rw [hadopt, run, step, hrequest]
  rfl

def Present (text : PyText) (key : String) (entry : RawHold) (sw : RawSwitch) : Prop :=
  sw.quarantine.get? key = some entry ∧ Readable text sw.quarantine

section

def Keeping (text : PyText) (cfg : SwitchConfig) (entry : RawHold) (r : Readings) : Prop :=
  ¬ entry.Stale text (r.wall .prune - cfg.quarantineMaxS) ∧
    ¬ entry.Stale text (r.wall .persist - cfg.quarantineMaxS)

variable (hpresent : sw.Present text key entry)

include hpresent

theorem Present.prune {wall : ℚ} (hkept : ¬ entry.Stale text (wall - cfg.quarantineMaxS)) :
    PyReturns (sw.pruneQuarantine text cfg wall) fun after =>
      after.Present text key entry ∧ ∃ holds, after = { sw with quarantine := holds } := by
  rw [prune_eq hpresent.2]
  refine PyReturns.ok ⟨⟨get?_pruned.mpr ⟨hpresent.1, hkept⟩, ?_⟩, _, rfl⟩
  intro other found hget
  exact hpresent.2 other found (get?_pruned.mp hget).1

theorem Present.reenter (record : RawRecord) :
    (sw.reenter cfg r record).Present text key entry := by
  unfold RawSwitch.reenter
  split
  · dsimp only
    split
    · exact hpresent
    · exact hpresent
  · exact hpresent

theorem Present.abortAndQuarantine_raises (htarget : sw.target = some key)
    (hresize : sw.resize = false) (hkey : key ≠ "")
    (hcount : ∀ count, entry.failures text = .ok count → ¬ -PyFloat.limit < count)
    (reason : String) :
    ∃ raised, sw.abortAndQuarantine text cfg r reason = .error raised := by
  have hlocked : ∃ raised,
      sw.quarantineLocked text cfg (r.wall .hold) key reason = .error raised := by
    unfold RawSwitch.quarantineLocked
    rw [hpresent.1, Option.getD_some]
    cases hread : entry.failures text with
    | error raised => exact ⟨raised, rfl⟩
    | ok count =>
      have hpower : PyValue.powTwo (min count 8) = .error .overflowError := by
        have hrange : ¬ -PyFloat.limit < min count 8 :=
          fun hlt => hcount count hread (lt_of_lt_of_le hlt (min_le_left _ _))
        rw [PyValue.powTwo, if_neg hrange]
      refine ⟨.overflowError, ?_⟩
      change (PyValue.powTwo (min count 8) >>= _) = _
      rw [hpower]
      rfl
  obtain ⟨raised, hraised⟩ := hlocked
  refine ⟨raised, ?_⟩
  unfold RawSwitch.abortAndQuarantine
  rw [htarget]
  dsimp only
  rw [if_neg hkey, hresize]
  change (sw.quarantineLocked text cfg (r.wall .hold) key reason >>= _) = _
  rw [hraised]
  rfl

theorem Present.report_raises (hbusy : sw.state ≠ .idle) (htarget : sw.target = some key)
    (hresize : sw.resize = false) (hkey : key ≠ "")
    (hcount : ∀ count, entry.failures text = .ok count → ¬ -PyFloat.limit < count) :
    ∃ raised, sw.reportStartOutcome text cfg r (.outcome ⟨.permanent, ""⟩) = .error raised := by
  have hfatal : (StartOutcome.coerce (.outcome ⟨.permanent, ""⟩)).fatal = true := rfl
  unfold RawSwitch.reportStartOutcome
  rw [if_neg hbusy, if_pos hfatal]
  apply Present.abortAndQuarantine_raises <;> assumption

variable (hkeeping : Keeping text cfg entry r)

include hkeeping

theorem Present.persist :
    PyReturns (sw.persist text cfg r) fun after =>
      after.Present text key entry ∧ ∃ holds, after = { sw with quarantine := holds } := by
  unfold RawSwitch.persist
  split
  · exact hpresent.prune hkeeping.2
  · exact PyReturns.ok ⟨hpresent, sw.quarantine, rfl⟩

theorem Present.takeUp (record : Except CastError RawRecord) :
    (sw.takeUp text cfg r record).Present text key entry := by
  unfold RawSwitch.takeUp
  cases record with
  | error => exact hpresent
  | ok record =>
    dsimp only
    cases hresumed : sw.resume text cfg r record with
    | error => exact hpresent
    | ok resumed =>
      have hafter : resumed.Present text key entry := by
        unfold RawSwitch.resume at hresumed
        generalize sw.heldBack text r record = held at hresumed
        match held with
        | .error _ => cases hresumed
        | .ok true =>
          cases hresumed
          exact hpresent
        | .ok false =>
          cases hresumed
          exact hpresent.reenter record
      obtain ⟨after, hpersist, hpresent, -⟩ := hafter.persist hkeeping
      dsimp only
      rwa [hpersist]

theorem Present.abandon :
    PyReturns (sw.abandon text cfg r) fun after =>
      after.Present text key entry ∧ after.state = .idle := by
  unfold RawSwitch.abandon
  split
  · rename_i hidle
    exact PyReturns.ok ⟨hpresent, hidle⟩
  · have hreset : Present text key entry sw.cleared := hpresent
    refine (hreset.persist hkeeping).mono ?_
    rintro after ⟨hafter, holds, rfl⟩
    exact ⟨hafter, rfl⟩

theorem Present.request_raises (hidle : sw.state = .idle) (hkey : key ≠ "") (hfull : entry ≠ [])
    (huntil : entry.untilWall text = .ok .posInf) (hcount : entry.failures text = .error error) :
    sw.request text cfg r key none false = .error error := by
  obtain ⟨pruned, hpruned, hpresent, -⟩ := hpresent.prune hkeeping.1
  have hheld : pruned.quarantinedLocked text (r.wall .quarantined) key = .ok true := by
    unfold RawSwitch.quarantinedLocked
    rw [hpresent.1]
    dsimp only
    rw [if_neg (by simpa using hfull), huntil]
    rfl
  unfold RawSwitch.request
  rw [if_neg hkey, if_neg (not_not_intro hidle), hpruned]
  change (pruned.quarantinedLocked text (r.wall .quarantined) key >>= _) = _
  rw [hheld]
  change ((((pruned.quarantine.get? key).getD []).untilWall text) >>= fun _ =>
    (((pruned.quarantine.get? key).getD []).failures text) >>= _) = _
  rw [hpresent.1, Option.getD_some, huntil, hcount]
  rfl

theorem Present.request_accepted (hidle : sw.state = .idle) (hkey : key ≠ "")
    (huntil : entry.untilWall text = .ok untilWall)
    (hover : untilWall.exceeds (r.wall .quarantined) = false) :
    PyReturns (sw.request text cfg r key none false) fun after =>
      after.1.Present text key entry ∧ after.1.state ≠ .idle ∧ after.1.target = some key ∧
        after.1.resize = false := by
  obtain ⟨pruned, hpruned, hpresent, -⟩ := hpresent.prune hkeeping.1
  have hfree : pruned.quarantinedLocked text (r.wall .quarantined) key = .ok false := by
    unfold RawSwitch.quarantinedLocked
    rw [hpresent.1]
    dsimp only
    split
    · rfl
    · rw [huntil]
      exact congrArg Except.ok hover
  unfold RawSwitch.request
  rw [if_neg hkey, if_neg (not_not_intro hidle), hpruned]
  change PyReturns (pruned.quarantinedLocked text (r.wall .quarantined) key >>= _) _
  rw [hfree]
  have hrequested : Present text key entry (pruned.requested r key none false) := hpresent
  refine (hrequested.persist hkeeping).bind ?_
  rintro after ⟨hafter, holds, rfl⟩
  exact PyReturns.ok ⟨hafter, nofun, rfl, rfl⟩

end

theorem exists_keeping (cfg : SwitchConfig) (huntil : entry.untilWall text = .ok untilWall)
    (hends : untilWall ≠ .negInf) :
    ∃ r : Readings, Keeping text cfg entry r ∧
      (untilWall ≠ .posInf → untilWall.exceeds (r.wall .quarantined) = false) := by
  have hkept (cutoff : ℚ) (hfresh : untilWall.atMost cutoff = false) :
      ¬ entry.Stale text cutoff := by
    simp [RawHold.stale_iff huntil, hfresh]
  cases untilWall with
  | finite wall =>
    have hfresh : (PyFloat.finite wall).atMost
        (wall + cfg.quarantineMaxS - 1 - cfg.quarantineMaxS) = false := by
      rw [PyFloat.atMost, decide_eq_false_iff_not]
      linarith
    -- The clock reads the very end of the hold where it is asked whether the hold is over.
    refine ⟨⟨0, fun site => if site = .quarantined then wall else wall + cfg.quarantineMaxS - 1,
      true⟩, ⟨hkept _ hfresh, hkept _ hfresh⟩, fun _ => ?_⟩
    simp [PyFloat.exceeds]
  | posInf =>
    exact ⟨⟨0, fun _ => 0, true⟩, ⟨hkept _ rfl, hkept _ rfl⟩, fun habsurd => absurd rfl habsurd⟩
  | negInf => exact absurd rfl hends
  | nan => exact ⟨⟨0, fun _ => 0, true⟩, ⟨hkept _ rfl, hkept _ rfl⟩, fun _ => rfl⟩

theorem uncountable_raises (hread : Readable text holds) (hget : holds.get? key = some entry)
    (huntil : entry.untilWall text = .ok untilWall) (hkeeping : Keeping text cfg entry r)
    (hover : untilWall ≠ .posInf → untilWall.exceeds (r.wall .quarantined) = false)
    (huncountable : ¬ entry.Countable text key untilWall) (record : Except CastError RawRecord) :
    ∃ raised, run text cfg (adopt text cfg r holds record)
      [(.abandon "", r), (.request key none false, r),
        (.reportStartOutcome (.outcome ⟨.permanent, ""⟩), r)] = .error raised := by
  have hkey : key ≠ "" := fun hempty => huncountable (Or.inl hempty)
  have hpresent : (adopt text cfg r holds record).Present text key entry := by
    rw [adopt_eq hread]
    apply Present.takeUp _ hkeeping
    refine ⟨get?_pruned.mpr ⟨hget, hkeeping.1⟩, ?_⟩
    intro other found hfound
    exact hread other found (get?_pruned.mp hfound).1
  obtain ⟨idle, hidle, hpresent, hstate⟩ := hpresent.abandon hkeeping
  simp only [run, step, hidle]
  by_cases hforever : untilWall = .posInf
  · -- The hold lasts for ever, so the request is refused, and the refusal reads the count.
    subst hforever
    have hfull : entry ≠ [] := by
      rintro rfl
      cases huntil
    cases hcount : entry.failures text with
    | error error =>
      have hrequest := hpresent.request_raises hkeeping hstate hkey hfull huntil hcount
      refine ⟨error, ?_⟩
      change ((Prod.fst <$> idle.request text cfg r key none false) >>= _) = _
      rw [hrequest]
      rfl
    | ok count => exact absurd (Or.inr ⟨count, hcount, Or.inl rfl⟩) huncountable
  · obtain ⟨⟨busy, accepted⟩, hrequest, hpresent, hbusy, htarget, hresize⟩ :=
      hpresent.request_accepted hkeeping hstate hkey huntil (hover hforever)
    have hcount : ∀ count, entry.failures text = .ok count → ¬ -PyFloat.limit < count :=
      fun count hcount hpower => huncountable (Or.inr ⟨count, hcount, Or.inr hpower⟩)
    obtain ⟨raised, hreport⟩ := hpresent.report_raises hbusy htarget hresize hkey hcount
    refine ⟨raised, ?_⟩
    change ((Prod.fst <$> idle.request text cfg r key none false) >>= _) = _
    rw [hrequest]
    change ((Prod.fst <$> busy.reportStartOutcome text cfg r _) >>= _) = _
    rw [hreport]
    rfl

/-- **Which files are safe.** No calls on a switch that was constructed from a file ever raise
exactly if no file is used or the file is sound. -/
theorem resume_robust_iff (text : PyText) (cfg : SwitchConfig) (file : RawFile) :
    (∀ r history, ∃ after,
        run text cfg (resumePersisted text cfg r file) history = .ok after) ↔
      cfg.persistPath = false ∨ file.Sound text := by
  constructor
  · intro hrobust
    by_contra hunsound
    rw [not_or, Bool.not_eq_false] at hunsound
    obtain ⟨hpath, hunsound⟩ := hunsound
    simp only [RawFile.Sound, not_forall] at hunsound
    obtain ⟨holds, hholds, key, entry, hget, hharmful⟩ := hunsound
    have hadopt : ∀ r, ∃ record,
        resumePersisted text cfg r file = adopt text cfg r holds record := by
      intro r
      rcases resumePersisted_cases text cfg r file with
        ⟨other, record, hother, -, heq⟩ | ⟨hnone | hnone, -⟩
      · rw [hholds] at hother
        cases hother
        exact ⟨record, heq⟩
      · rw [hpath] at hnone
        cases hnone
      · rw [hholds] at hnone
        cases hnone
    by_cases hread : Readable text holds
    · obtain ⟨untilWall, huntil⟩ := hread key entry hget
      have hends : untilWall ≠ .negInf := fun hends => hharmful ⟨untilWall, huntil, Or.inl hends⟩
      have huncountable : ¬ entry.Countable text key untilWall :=
        fun hcountable => hharmful ⟨untilWall, huntil, Or.inr hcountable⟩
      obtain ⟨r, hkeeping, hover⟩ := exists_keeping cfg huntil hends
      obtain ⟨record, heq⟩ := hadopt r
      obtain ⟨raised, hraised⟩ :=
        uncountable_raises hread hget huntil hkeeping hover huncountable record
      obtain ⟨after, hafter⟩ := hrobust r _
      rw [heq, hraised] at hafter
      cases hafter
    · simp only [Readable, not_forall, not_exists] at hread
      obtain ⟨other, found, hfound, hraises⟩ := hread
      cases huntil : found.untilWall text with
      | ok untilWall => exact hraises untilWall huntil
      | error =>
        obtain ⟨record, heq⟩ := hadopt ⟨0, fun _ => 0, true⟩
        obtain ⟨raised, hraised⟩ := request_raises hfound huntil record
        obtain ⟨after, hafter⟩ := hrobust ⟨0, fun _ => 0, true⟩ _
        rw [heq, hraised] at hafter
        cases hafter
  · intro hsound r history
    have htame : (resumePersisted text cfg r file).Tame text := by
      rcases hsound with hpath | hsound
      · rcases resumePersisted_cases text cfg r file with ⟨_, _, -, hother, -⟩ | ⟨-, htame⟩
        · rw [hpath] at hother
          cases hother
        · exact htame
      · exact tame_of_sound hsound
    obtain ⟨after, hafter, -⟩ := htame.run cfg history
    exact ⟨after, hafter⟩

/-- A file whose only entry ends at `[1]`: the constructor survives it, and the next request, for
any kind, raises. -/
theorem unreadable_hold_raises :
    let text : PyText := ⟨fun _ => none, fun _ => none, fun _ => ""⟩
    let cfg : SwitchConfig := { persistPath := true }
    let r : Readings := ⟨0, fun _ => 0, true⟩
    let file : RawFile := .json (.dict [("v", .int 2),
      ("quarantine", .dict [("vllm", .dict [("until_wall", .list [.int 1])])])])
    ∃ raised, run text cfg (resumePersisted text cfg r file) [(.request "ollama" none false, r)] =
      .error raised :=
  ⟨.typeError, rfl⟩

end RawSwitch

end BrokerParrot
