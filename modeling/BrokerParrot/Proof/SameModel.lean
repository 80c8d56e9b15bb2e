import BrokerParrot.ModelResidency

/-!
# Is it the same model?

Two gates stand before a load. The last one compares canonical tags, so a load of `chat` is accepted
beside a resident `chat:latest`. The clearing one compares the names as they are written, and
unloads it.
-/

namespace BrokerParrot

namespace ModelResidency

section

variable {repr : String → String} {label model kind : String} {residents : List Resident}
  {incoming : Option String}

theorem assertCanLoad_eq_ok_iff :
    assertCanLoad repr label model residents = .ok () ↔
      ∀ resident ∈ residents, canonicalTag resident.model = canonicalTag model := by
  unfold assertCanLoad
  dsimp only
  split
  · rename_i hnone
    refine iff_of_true rfl fun resident hmem => ?_
    have hkept := List.filter_eq_nil_iff.mp hnone resident hmem
    simpa using hkept
  · rename_i hsome
    refine iff_of_false (fun herror => nomatch herror) fun hall => hsome ?_
    rw [List.filter_eq_nil_iff]
    intro resident hmem
    simpa using hall resident hmem

theorem foreignTo_eq_nil_iff :
    foreignTo kind incoming residents = [] ↔
      ∀ resident ∈ residents,
        resident.server = kind ∧ ∀ name ∈ incoming, resident.model = name := by
  unfold foreignTo
  rw [List.filter_eq_nil_iff]
  refine forall₂_congr fun resident _ => ?_
  rw [decide_eq_true_eq, not_not]

theorem clearBoxFor_eq_nothing_iff {quoted : Option String → String} {env : ClearEnv} {box : Box} :
    clearBoxFor quoted env kind incoming residents box = (.ok [], box) ↔
      foreignTo kind incoming residents = [] := by
  unfold clearBoxFor
  dsimp only
  split
  · rename_i hnone
    exact iff_of_true rfl hnone
  · rename_i hsome
    -- What is evicted is returned, unless the gate raises.
    refine iff_of_false (fun hresult => ?_) hsome
    have hfirst := congrArg Prod.fst hresult
    revert hfirst
    split
    · exact fun hevicted => hsome (Except.ok.inj hevicted)
    · split
      · exact fun hevicted => hsome (Except.ok.inj hevicted)
      · exact fun hraised => nomatch hraised

end

/-- **One answer to "the same model".** Whenever the last gate accepts a load, the clearing gate
evicts nothing and does not raise, if and only if residents that are all the load's model by their
canonical tags are written as the load is. -/
theorem accepted_load_spares_iff (repr : String → String) (quoted : Option String → String)
    (label kind model : String) (residents : List Resident) (env : ClearEnv) (box : Box)
    (hkind : ∀ resident ∈ residents, resident.server = kind) :
    (assertCanLoad repr label model residents = .ok () →
        clearBoxFor quoted env kind (some model) residents box = (.ok [], box)) ↔
      ((∀ resident ∈ residents, canonicalTag resident.model = canonicalTag model) →
        ∀ resident ∈ residents, resident.model = model) := by
  rw [assertCanLoad_eq_ok_iff, clearBoxFor_eq_nothing_iff, foreignTo_eq_nil_iff]
  refine imp_congr_right fun _ => forall₂_congr fun resident hmem => ?_
  rw [and_iff_right (hkind resident hmem)]
  exact ⟨fun hname => hname model rfl, fun hname _ hsome => hname.trans (Option.some.inj hsome)⟩

def workingClear : ClearLevers where
  unloadOllama models box := box.filter fun resident =>
    ¬ (resident.server = ollama ∧ resident.model ∈ models)
  stopVllm box := box.filter fun resident => resident.server ≠ vllm
  freeComfyui box := box.filter fun resident => resident.server ≠ comfyui
  unloadInprocess box := box.filter fun resident => resident.server ≠ inprocess

theorem accepted_load_spares_iff_same_tag :
    clearBoxFor (fun _ => "") { levers := workingClear } ollama (some "chat:latest")
        [⟨ollama, "chat:latest", 0, false⟩] [⟨ollama, "chat:latest", 0, false⟩] =
      (.ok [], [⟨ollama, "chat:latest", 0, false⟩]) :=
  (accepted_load_spares_iff id (fun _ => "") "?" ollama "chat:latest" _ { levers := workingClear }
    _ (by decide)).mpr (fun _ => by decide) (assertCanLoad_eq_ok_iff.mpr (by decide))

/-- A load of `chat` is accepted beside `chat:latest`, and the clearing gate for it unloads that
very model; when the unload does not help, it raises. -/
theorem accepted_load_unloads_itself :
    let resident : Resident := ⟨ollama, "chat:latest", 0, false⟩
    assertCanLoad id "?" "chat" [resident] = .ok () ∧
      clearBoxFor (fun _ => "") { levers := workingClear } ollama (some "chat") [resident]
        [resident] = (.ok [resident], []) ∧
      (clearBoxFor (fun _ => "") { levers := workingClear, reprobe := some fun _ => .ok [resident] }
        ollama (some "chat") [resident] [resident]).1.toOption = none := by
  refine ⟨assertCanLoad_eq_ok_iff.mpr (by decide), by decide, by decide⟩

end ModelResidency

end BrokerParrot
