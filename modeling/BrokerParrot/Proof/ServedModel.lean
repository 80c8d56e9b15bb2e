import BrokerParrot.Lib.History
import BrokerParrot.VllmBackend

/-!
# The model that is served

A request kills the server only to replace another model, and returns only when its own model is
served, as far as the backend's belief agrees with the server.
-/

namespace BrokerParrot

namespace VllmBackend

/-! ### One request -/

theorem observed_eq (backend : VLLMBackend) (served : ModelName) (model : String) :
    (orNull (World.probed ⟨backend, some served⟩)).getD model = served.val := by
  simp [World.probed, orNull, Option.filter, served.property]

variable {model : String} {answers : Answers} {world : World} {killCalled : Bool}

theorem reconcile_serves {backend : VLLMBackend} {served : ModelName}
    (hreturns : (reconcile model killCalled ⟨backend, some served⟩).2.error = none) :
    (reconcile model killCalled ⟨backend, some served⟩).1.probed = some model := by
  simp only [reconcile, observed_eq] at hreturns
  split at hreturns
  next hmodel => exact congrArg some hmodel
  · exact nomatch hreturns

theorem bringUp_serves :
    (bringUp model answers killCalled world).2.error = none →
      (bringUp model answers killCalled world).1.probed = some model := by
  unfold bringUp
  split
  · exact fun herror => nomatch herror
  · split
    · exact fun herror => nomatch herror
    · exact reconcile_serves

theorem killCalled_bringUp (model : String) (answers : Answers) (killCalled : Bool)
    (world : World) : (bringUp model answers killCalled world).2.killCalled = killCalled := by
  unfold bringUp
  split
  · rfl
  · split <;> rfl

/-- The request calls the kill function only if the server is up with another model, and returns
only if the server is then up with the requested one. -/
def CallLawful (model : String) (answers : Answers) (world : World) : Prop :=
  ((ensureReady model answers world).2.killCalled = true →
      ∃ other, world.probed = some other ∧ other ≠ model) ∧
    ((ensureReady model answers world).2.error = none →
      (ensureReady model answers world).1.probed = some model)

def BeliefFits (model : String) (world : World) : Prop :=
  world.server = none ∨ (world.backend.servedModel = some model ↔ world.probed = some model)

theorem callLawful_of_down (hdown : world.server = none) : CallLawful model answers world := by
  have hcold : ensureReady model answers world = bringUp model answers false world := by
    unfold ensureReady World.healthy
    rw [hdown]
    rfl
  unfold CallLawful
  rw [hcold]
  refine ⟨fun hkill => ?_, bringUp_serves⟩
  rw [killCalled_bringUp] at hkill
  exact nomatch hkill

theorem callLawful_warm_iff
    (hup : world.healthy = true) (hbelief : world.backend.servedModel = some model) :
    CallLawful model answers world ↔ world.probed = some model := by
  unfold CallLawful ensureReady
  rw [if_pos hup, if_pos hbelief]
  exact ⟨fun hlawful => hlawful.2 rfl,
    fun hserves => ⟨fun hkill => absurd hkill Bool.false_ne_true, fun _ => hserves⟩⟩

theorem callLawful_switch_iff
    (hup : world.healthy = true) (hbelief : world.backend.servedModel ≠ some model) :
    CallLawful model answers world ↔ world.probed ≠ some model := by
  have hkills : (ensureReady model answers world).2.killCalled = true := by
    unfold ensureReady
    rw [if_pos hup, if_neg hbelief]
    split
    · rfl
    · exact killCalled_bringUp _ _ _ _
  have hreturns : (ensureReady model answers world).2.error = none →
      (ensureReady model answers world).1.probed = some model := by
    unfold ensureReady
    rw [if_pos hup, if_neg hbelief]
    split
    · exact fun herror => nomatch herror
    · exact bringUp_serves
  obtain ⟨served, hserved⟩ := Option.isSome_iff_exists.mp hup
  have hprobed : world.probed = some served.val := congrArg (Option.map Subtype.val) hserved
  constructor
  · rintro ⟨hother, -⟩ hserves
    obtain ⟨other, hprobe, hne⟩ := hother hkills
    exact hne (Option.mem_unique hprobe hserves)
  · intro hne
    exact ⟨fun _ => ⟨served.val, hprobed, fun heq => hne (hprobed.trans (congrArg some heq))⟩,
      hreturns⟩

theorem callLawful_iff (model : String) (answers : Answers) (world : World) :
    CallLawful model answers world ↔ BeliefFits model world := by
  unfold BeliefFits
  cases hserver : world.server with
  | none => exact iff_of_true (callLawful_of_down hserver) (Or.inl rfl)
  | some =>
    have hup : world.healthy = true := congrArg Option.isSome hserver
    by_cases hbelief : world.backend.servedModel = some model
    · simp [callLawful_warm_iff hup hbelief, hbelief]
    · simp [callLawful_switch_iff hup hbelief, hbelief]

/-! ### Histories -/

def Lawful (world : World) (event : Event) : Prop :=
  ∀ model answers, event = .ensureReady model answers → CallLawful model answers world

def Fair (world : World) (event : Event) : Prop :=
  ∀ model answers, event = .ensureReady model answers → BeliefFits model world

def Truthful (world : World) : Prop :=
  ∀ served, world.server = some served → world.backend.servedModel = some served.val

/-- The calls of a request do not raise, a stop takes the server down, and others do nothing but
take it down. -/
def Undisturbed : Event → Prop
  | .ensureReady _ answers => answers.killRaises = false ∧ answers.bringUpRaises = false
  | .stopServer answers => answers.killed = none
  | .restart server => server = none

theorem truthful_of_down (hdown : world.server = none) : Truthful world :=
  fun _ hserved => nomatch hdown.symm.trans hserved

theorem truthful_bringUp
    (hraises : answers.bringUpRaises = false) (killCalled : Bool) (world : World) :
    Truthful (bringUp model answers killCalled world).1 := by
  unfold bringUp
  rw [if_neg (Bool.eq_false_iff.mp hraises)]
  split
  · exact truthful_of_down rfl
  next served _ =>
    rintro _ ⟨⟩
    exact congrArg some (observed_eq _ served model)

theorem truthful_step (htruthful : Truthful world) {event : Event}
    (hundisturbed : Undisturbed event) : Truthful (step world event) := by
  cases event with
  | restart => exact truthful_of_down hundisturbed
  | stopServer =>
    unfold step stopServer
    dsimp only
    split
    · exact htruthful
    · unfold doStopLocked
      split <;> exact truthful_of_down hundisturbed
  | ensureReady =>
    obtain ⟨hkill, hbringUp⟩ := hundisturbed
    unfold step ensureReady
    dsimp only
    split
    · split
      · exact htruthful
      · rw [if_neg (Bool.eq_false_iff.mp hkill)]
        exact truthful_bringUp hbringUp _ _
    · exact truthful_bringUp hbringUp _ _

theorem beliefFits_of_truthful (htruthful : Truthful world) (model : String) :
    BeliefFits model world := by
  unfold BeliefFits
  cases hserver : world.server with
  | none => exact Or.inl rfl
  | some served =>
    right
    rw [htruthful served hserver]
    unfold World.probed
    rw [hserver]
    rfl

theorem lawful_of_undisturbed (htruthful : Truthful world) {history : List Event}
    (hundisturbed : ∀ event ∈ history, Undisturbed event) :
    History.Throughout step Lawful world history :=
  History.throughout_of_invariant (fun _ _ htruthful => truthful_step htruthful)
    (fun world _ htruthful _ model answers _ =>
      (callLawful_iff model answers world).mpr (beliefFits_of_truthful htruthful model))
    htruthful hundisturbed

/-- **Served model.** Along every history the law holds if and only if every request finds the
server down or a belief that is right about whether its model is served. A belief that is right at
the start stays so, and the law holds, as long as no call raises and nobody else brings a server
up. -/
theorem requests_lawful_iff (servedModel : Option String) (server : Option ModelName)
    (history : List Event) :
    (History.Throughout step Lawful ⟨VLLMBackend.init servedModel, server⟩ history ↔
      History.Throughout step Fair ⟨VLLMBackend.init servedModel, server⟩ history) ∧
    (Truthful ⟨VLLMBackend.init servedModel, server⟩ → (∀ event ∈ history, Undisturbed event) →
      History.Throughout step Lawful ⟨VLLMBackend.init servedModel, server⟩ history) := by
  have hiff : ∀ world event, True → (Lawful world event ↔ Fair world event) :=
    fun world event _ => forall₃_congr fun model answers _ => callLawful_iff model answers world
  exact ⟨History.throughout_iff (fun _ _ _ _ => trivial) hiff trivial history,
    fun htruthful => lawful_of_undisturbed htruthful⟩

def comesBack (server : Option ModelName) : Answers := { killed := none, broughtUp := server }

/-- A cold start, a warm hit, a switch and a stop. -/
theorem requests_lawful_iff_switch :
    History.Throughout step Lawful ⟨VLLMBackend.init none, none⟩
      [.ensureReady "a" (comesBack (some ⟨"a", by decide⟩)), .ensureReady "a" (comesBack none),
        .ensureReady "b" (comesBack (some ⟨"b", by decide⟩)), .stopServer (comesBack none)] :=
  (requests_lawful_iff none none _).2 nofun (by simp [Undisturbed, comesBack])

/-- A backend that was told nothing kills a server with the requested model. And a belief outlives a
restart by others. -/
theorem stale_belief_misleads : (ensureReady "a" (comesBack none)
        ⟨VLLMBackend.init none, some ⟨"a", by decide⟩⟩).2.killCalled = true ∧
      ∃ world, world = [Event.ensureReady "a" (comesBack (some ⟨"a", by decide⟩)),
            .restart (some ⟨"b", by decide⟩)].foldl step ⟨VLLMBackend.init none, none⟩ ∧
        (ensureReady "a" (comesBack none) world).2.error = none ∧
        (ensureReady "a" (comesBack none) world).1.probed = some "b" :=
  ⟨by decide, _, rfl, by decide, by decide⟩

end VllmBackend

end BrokerParrot
