import BrokerParrot.VllmSidecar
import BrokerParrot.Proof.CommandLine
import BrokerParrot.Proof.DockerCalls

/-!
# What a model switch keeps of the sidecar

The sidecar is replaced by a container with the same configuration and other tokens. The create body
carries one network endpoint; the networks beyond it have to be connected afterwards, and the model
switch does not do that. The tokens of the replacement select the requested model, unless the old
ones end in a bare flag: then the flag that is added is read as its value.
-/

namespace BrokerParrot

variable {argv : List String} {before : Container}

namespace VllmSidecar

open DockerWorld (healthy)

/-! ### The tokens -/

section

variable {model : String}

inductive OnlyModelDiffers : List String → List String → Prop
  | same (argv : List String) : OnlyModelDiffers argv argv
  | bare (front back : List String) (value other : String) :
      OnlyModelDiffers (front ++ modelFlag :: value :: back) (front ++ modelFlag :: other :: back)
  | assigned (front back : List String) (value other : String) :
      OnlyModelDiffers (front ++ (modelFlag ++ "=" ++ value) :: back)
        (front ++ (modelFlag ++ "=" ++ other) :: back)
  | added (argv : List String) (value : String) :
      OnlyModelDiffers argv (argv ++ [modelFlag, value])

theorem OnlyModelDiffers.cons {new : List String} (hdiffers : OnlyModelDiffers argv new)
    (token : String) : OnlyModelDiffers (token :: argv) (token :: new) := by
  cases hdiffers with
  | same => exact .same _
  | bare front back value other => exact .bare (token :: front) back value other
  | assigned front back value other => exact .assigned (token :: front) back value other
  | added _ value => exact .added (token :: argv) value

theorem replaceModel_spec (model : String) (argv : List String) :
    (replaceModel model argv = none ∧ currentModel argv = none) ∨
      ∃ new, replaceModel model argv = some new ∧ currentModel new = some model ∧
        OnlyModelDiffers argv new ∧ currentModel argv ≠ none := by
  fun_induction replaceModel model argv with
  | case1 => exact Or.inl ⟨rfl, rfl⟩
  | case2 token =>
    cases hvalue : assignedValue modelFlag token with
    | none => exact Or.inl ⟨rfl, hvalue⟩
    | some value =>
      obtain rfl := eq_assigned hvalue
      refine Or.inr ⟨_, rfl, argvFlag_assigned modelFlag model [],
        .assigned [] [] value model, ?_⟩
      exact ne_of_eq_of_ne hvalue (by simp)
  | case3 next rest =>
    refine Or.inr ⟨_, rfl, ?_, .bare [] rest next model, ?_⟩ <;>
      simp [currentModel, argvFlag]
  | case4 token next rest hbare value hvalue =>
    obtain rfl := eq_assigned hvalue
    refine Or.inr ⟨_, rfl, argvFlag_assigned modelFlag model _,
      .assigned [] (next :: rest) value model, ?_⟩
    rw [currentModel, argvFlag_assigned]
    simp
  | case5 token next rest hbare hassigned ih =>
    have hskip : currentModel (token :: next :: rest) = currentModel (next :: rest) :=
      argvFlag_skip hbare hassigned
    rw [hskip]
    rcases ih with ⟨hnone, hcurrent⟩ | ⟨new, hsome, hmodel, hdiffers, hcurrent⟩
    · exact Or.inl ⟨by rw [hnone]; rfl, hcurrent⟩
    · refine Or.inr ⟨token :: new, by rw [hsome]; rfl, ?_, hdiffers.cons token, hcurrent⟩
      rw [← hmodel]
      cases new with
      | nil => cases hmodel
      | cons => exact argvFlag_skip hbare hassigned

def EndsBare (argv : List String) : Prop :=
  currentModel argv = none ∧ argv.getLast? = some modelFlag

theorem desiredArgv_differs : OnlyModelDiffers argv (desiredArgv argv model) := by
  unfold desiredArgv
  rcases replaceModel_spec model argv with
    ⟨hnone, -⟩ | ⟨new, hsome, -, hdiffers, -⟩
  · rw [hnone]
    exact .added argv model
  · rwa [hsome]

theorem currentModel_desiredArgv :
    currentModel (desiredArgv argv model) = some model ↔ (EndsBare argv → model = modelFlag) := by
  unfold desiredArgv EndsBare
  rcases replaceModel_spec model argv with
    ⟨hnone, hcurrent⟩ | ⟨new, hsome, hmodel, -, hcurrent⟩
  · rw [hnone, Option.getD_none, currentModel, argvFlag_append hcurrent]
    by_cases hbare : argv.getLast? = some modelFlag
    · simp [hbare, hcurrent, eq_comm]
    · simp [hbare]
  · rw [hsome]
    simp [hmodel, hcurrent]

end

/-! ### The networks -/

def ownAliases (before : Container) (endpoint : Endpoint) : List String :=
  endpoint.aliases.filter fun name => name ≠ idAlias before

def KeepsNetworks (before after : Container) : Prop :=
  ∀ network endpoint, before.networks.get? network = some endpoint →
    ∃ kept, after.networks.get? network = some kept ∧
      ownAliases before kept = ownAliases before endpoint

/-- The networks fit in one create: in a mode that owns the whole namespace there is none but the
mode's own, without aliases, and in the other modes there is at most one. -/
def FitsCreate (before : Container) : Prop :=
  if exclusiveMode before.hostConfig.networkMode then
    ∀ network endpoint, before.networks.get? network = some endpoint →
      sharesContainer before.hostConfig.networkMode = false ∧
        network = before.hostConfig.networkMode ∧ ownAliases before endpoint = []
  else
    ∀ network other, (before.networks.get? network).isSome → (before.networks.get? other).isSome →
      network = other

section

theorem ownAliases_kept (endpoint : Endpoint) :
    ownAliases before (keptEndpoint before endpoint) = ownAliases before endpoint := by
  unfold ownAliases keptEndpoint
  rw [List.filter_filter]
  apply List.filter_congr
  intro name _
  by_cases hname : name = idAlias before <;> simp [hname]

theorem get?_single (key other : String) (endpoint : Endpoint) :
    (OrdDict.empty.insert key endpoint).get? other =
      if other = key then some endpoint else none := by
  split_ifs with hkey
  · rw [hkey, OrdDict.get?_insert_self]
  · rw [OrdDict.get?_insert_of_ne _ _ hkey, OrdDict.get?_empty]

theorem networking_create (hmode : exclusiveMode before.hostConfig.networkMode = false) :
    (networking before).1 = none ∧ (∀ network, before.networks.get? network = none) ∨
      ∃ first endpoint, before.networks.get? first = some endpoint ∧
        (networking before).1 = some (first, keptEndpoint before endpoint) := by
  unfold networking
  simp only [hmode, Bool.false_eq_true, if_false]
  split
  · next hempty =>
    refine Or.inl ⟨rfl, fun network => ?_⟩
    exact OrdDict.get?_of_isEmpty (List.isEmpty_iff.mpr hempty) network
  · next head endpoint rest hentries =>
    refine Or.inr ?_
    have hhead : before.networks.get? head = some endpoint := by
      rw [← OrdDict.mem_entries, hentries]
      exact List.mem_cons_self ..
    by_cases hfirst : (before.networks.get? before.hostConfig.networkMode).isSome
    · obtain ⟨found, hfound⟩ := Option.isSome_iff_exists.mp hfirst
      exact ⟨_, found, hfound, by simp [hfound]⟩
    · exact ⟨head, endpoint, hhead, by simp [hfirst, hhead]⟩

def replacement (before : Container) (argv : List String) (id : String) : Container :=
  { (recreatePayload before argv).build id with running := true }

variable {id : String}

theorem replacement_networks :
    (replacement before argv id).networks =
      match (networking before).1 with
      | some (network, endpoint) => OrdDict.empty.insert network endpoint
      | none => modeNetworks before.hostConfig.networkMode :=
  rfl

theorem modeNetworks_exclusive (hmode : exclusiveMode before.hostConfig.networkMode = true)
    (hshares : sharesContainer before.hostConfig.networkMode = false) :
    modeNetworks before.hostConfig.networkMode =
      OrdDict.empty.insert before.hostConfig.networkMode {} := by
  have hname :
      ¬ (before.hostConfig.networkMode = "" ∨ before.hostConfig.networkMode = "default") := by
    rintro (hmode' | hmode') <;>
      · rw [hmode'] at hmode
        exact absurd hmode (by decide +kernel)
  simp [modeNetworks, hshares, hname]

theorem keepsNetworks_exclusive (hmode : exclusiveMode before.hostConfig.networkMode = true) :
    KeepsNetworks before (replacement before argv id) ↔ FitsCreate before := by
  have hcreate : (networking before).1 = none := by simp [networking, hmode]
  unfold KeepsNetworks FitsCreate
  rw [if_pos hmode, replacement_networks, hcreate]
  refine forall₃_congr fun network endpoint hnetwork => ?_
  cases hshares : sharesContainer before.hostConfig.networkMode with
  | true => simp [modeNetworks, hshares]
  | false =>
    rw [modeNetworks_exclusive hmode hshares, get?_single]
    by_cases hname : network = before.hostConfig.networkMode
    · rw [if_pos hname]
      constructor
      · rintro ⟨kept, hkept, haliases⟩
        cases hkept
        exact ⟨rfl, hname, haliases.symm⟩
      · rintro ⟨-, -, haliases⟩
        exact ⟨{}, rfl, haliases.symm⟩
    · simp [hname]

theorem keepsNetworks_plain (hmode : exclusiveMode before.hostConfig.networkMode = false) :
    KeepsNetworks before (replacement before argv id) ↔ FitsCreate before := by
  unfold KeepsNetworks FitsCreate
  rw [if_neg (by rw [hmode]; decide), replacement_networks]
  rcases networking_create hmode with ⟨-, hnone⟩ | ⟨first, endpoint, hfirst, hcreate⟩
  · simp [hnone]
  · rw [hcreate]
    constructor
    · intro hkeeps
      -- Both networks are the one that rode the create.
      have honly : ∀ network, (before.networks.get? network).isSome → network = first := by
        intro network hsome
        obtain ⟨found, hfound⟩ := Option.isSome_iff_exists.mp hsome
        obtain ⟨kept, hkept, -⟩ := hkeeps network found hfound
        rw [get?_single] at hkept
        exact (Option.ite_none_right_eq_some.mp hkept).1
      intro network other hnetwork hother
      rw [honly network hnetwork, honly other hother]
    · intro hfits network found hfound
      obtain rfl : network = first := hfits network first (by simp [hfound]) (by simp [hfirst])
      obtain rfl := Option.mem_unique hfirst hfound
      exact ⟨_, OrdDict.get?_insert_self _ _ _, ownAliases_kept _⟩

theorem keepsNetworks_iff :
    KeepsNetworks before (replacement before argv id) ↔ FitsCreate before := by
  cases hmode : exclusiveMode before.hostConfig.networkMode with
  | true => exact keepsNetworks_exclusive hmode
  | false => exact keepsNetworks_plain hmode

end

/-! ### The switch -/

structure KeptWhole (model : String) (before after : Container) : Prop where
  running : after.running = true
  image : after.config.image = before.config.image
  env : after.config.env = before.config.env
  labels : after.config.labels = before.config.labels
  entrypoint : after.config.entrypoint = before.config.entrypoint
  hostConfig : after.hostConfig = before.hostConfig
  networks : KeepsNetworks before after
  model : currentModel after.config.cmd = some model
  tokens : OnlyModelDiffers before.config.cmd after.config.cmd

section

variable {name model : String} {daemon : Daemon}

theorem runs_api {α : Type} {request : DockerRequest} {next : DockerReply → SidecarProg α}
    {post : Except SidecarError α → DockerWorld → Prop} {calls : ℕ}
    (hnext : (next (daemon.handle request).2).Runs post
      (healthy (daemon.handle request).1 (calls + 1))) :
    (api request >>= next).Runs post (healthy daemon calls) :=
  hnext

theorem replacement_whole_iff (id : String) :
    KeptWhole model before (replacement before (desiredArgv before.config.cmd model) id) ↔
      FitsCreate before ∧ (EndsBare before.config.cmd → model = modelFlag) := by
  constructor
  · intro hwhole
    exact ⟨keepsNetworks_iff.mp hwhole.networks, currentModel_desiredArgv.mp hwhole.model⟩
  · rintro ⟨hfits, hbare⟩
    exact ⟨rfl, rfl, rfl, rfl, rfl, rfl, keepsNetworks_iff.mpr hfits,
      currentModel_desiredArgv.mpr hbare, desiredArgv_differs⟩

theorem runs_dockerInspectSidecar (text : LeverText)
    (hbefore : daemon.containers.get? name = some before) :
    (dockerInspectSidecar text name).Runs (fun result after =>
      result = .ok (some ⟨name, before.running, before.config.cmd, before.config.image⟩) ∧
        after = healthy daemon 1) (healthy daemon) := by
  refine runs_api ?_
  rw [Daemon.handle_inspect hbefore]
  dsimp only
  exact Prog.Runs.ret ⟨rfl, rfl⟩

theorem runs_dockerRecreateSidecar (text : LeverText)
    (hbefore : daemon.containers.get? name = some before)
    (running : Bool) (tokens argv : List String) (image : String) (calls : ℕ) :
    (dockerRecreateSidecar text ⟨name, running, tokens, image⟩ argv).Runs (fun result after =>
      result = .ok () ∧
        ∃ id, after.daemon.containers.get? name = some (replacement before argv id))
      (healthy daemon calls) := by
  refine runs_api ?_
  rw [Daemon.handle_inspect hbefore]
  dsimp only [DockerBody.inspected]
  refine runs_api (runs_api ?_)
  obtain ⟨-, hstopped⟩ := Daemon.handle_stop hbefore 10
  obtain ⟨hremove, hremoved⟩ := Daemon.handle_remove hstopped
  rw [hremove, if_neg (by decide)]
  refine runs_api ?_
  obtain ⟨hcreate, id, hcreated⟩ := Daemon.handle_create hremoved (recreatePayload before argv)
  rw [hcreate, if_neg (by decide)]
  refine runs_api ?_
  obtain ⟨hstart, hstarted⟩ := Daemon.handle_start hcreated rfl
  rw [hstart, if_neg (by decide)]
  exact Prog.Runs.ret ⟨rfl, id, hstarted⟩

theorem keptWhole_self (hrunning : before.running = true)
    (hmodel : currentModel before.config.cmd = some model) : KeptWhole model before before :=
  ⟨hrunning, rfl, rfl, rfl, rfl, rfl, fun _ endpoint hnetwork => ⟨endpoint, hnetwork, rfl⟩, hmodel,
    .same _⟩

end

theorem model_switch_keeps_iff (text : LeverText) (name model : String) {daemon : Daemon}
    {before : Container} (hbefore : daemon.containers.get? name = some before) :
    (ensureSidecar text model (dockerInspectSidecar text name) (dockerRecreateSidecar text)).Runs
        (fun result world => ∃ acted after, result = .ok acted ∧
          world.daemon.containers.get? name = some after ∧ KeptWhole model before after)
        (healthy daemon) ↔
      before.running = true ∧ currentModel before.config.cmd = some model ∨
        FitsCreate before ∧ (EndsBare before.config.cmd → model = modelFlag) := by
  obtain ⟨_, _, hinspect, rfl, rfl⟩ := runs_dockerInspectSidecar text hbefore
  by_cases hserving : before.running = true ∧ currentModel before.config.cmd = some model
  · have halone : (ensureSidecar text model (dockerInspectSidecar text name)
        (dockerRecreateSidecar text)).alone (healthy daemon) =
          some (.ok false, healthy daemon 1) := by
      unfold ensureSidecar
      rw [Prog.alone_bind_of_ok hinspect]
      dsimp only
      rw [if_pos hserving]
      rfl
    rw [Prog.Runs.iff_of_alone halone]
    refine ⟨fun _ => Or.inl hserving, fun _ => ⟨false, before, rfl, hbefore, ?_⟩⟩
    exact keptWhole_self hserving.1 hserving.2
  · -- It is replaced, whether it runs another model or does not run at all.
    obtain ⟨_, after, hrecreate, rfl, id, hafter⟩ :=
      runs_dockerRecreateSidecar text hbefore before.running before.config.cmd
        (desiredArgv before.config.cmd model) before.config.image 1
    have halone : (ensureSidecar text model (dockerInspectSidecar text name)
        (dockerRecreateSidecar text)).alone (healthy daemon) = some (.ok true, after) := by
      unfold ensureSidecar
      rw [Prog.alone_bind_of_ok hinspect]
      dsimp only
      rw [if_neg hserving, Prog.alone_bind_of_ok hrecreate]
      rfl
    rw [Prog.Runs.iff_of_alone halone, ← replacement_whole_iff id]
    constructor
    · rintro ⟨_, found, -, hfound, hwhole⟩
      obtain rfl := Option.mem_unique hafter hfound
      exact Or.inr hwhole
    · rintro (hbefore' | hwhole)
      · exact absurd hbefore' hserving
      · exact ⟨true, _, rfl, hafter, hwhole⟩

def twoNetworks : Container where
  id := "0123456789abcdef"
  config := { image := "vllm", cmd := ["serve", "--model", "a"] }
  hostConfig := { networkMode := "llm" }
  running := true
  networks := (OrdDict.empty.insert "llm" { aliases := ["vllm", "0123456789ab"] }).insert "clients"
    { aliases := ["llm.internal"] }

def oneNetwork : Container :=
  { twoNetworks with
    networks := OrdDict.empty.insert "llm" { aliases := ["vllm", "0123456789ab"] } }

def plainText : LeverText where
  python := ⟨fun _ => none, fun _ => none, fun _ => ""⟩
  fixed := fun _ => ""
  general := fun _ => ""
  repr := fun _ => ""

theorem oneNetwork_fits : FitsCreate oneNetwork := by
  unfold FitsCreate
  have honly (network : String) (hsome : (oneNetwork.networks.get? network).isSome) :
      network = "llm" := by
    by_contra hother
    rw [oneNetwork, get?_single, if_neg hother] at hsome
    cases hsome
  intro network other hnetwork hother
  rw [honly network hnetwork, honly other hother]

theorem model_switch_keeps_iff_one_network :
    let daemon : Daemon := { containers := OrdDict.empty.insert "vllm" oneNetwork }
    daemon.containers.get? "vllm" = some oneNetwork ∧
      (ensureSidecar plainText "b" (dockerInspectSidecar plainText "vllm")
        (dockerRecreateSidecar plainText)).Runs
        (fun result world => ∃ acted after, result = .ok acted ∧
          world.daemon.containers.get? "vllm" = some after ∧ KeptWhole "b" oneNetwork after)
        (healthy daemon) := by
  refine ⟨rfl, (model_switch_keeps_iff plainText "vllm" "b" rfl).mpr (Or.inr ⟨oneNetwork_fits, ?_⟩)⟩
  rintro ⟨hnone, -⟩
  exact absurd hnone (by decide +kernel)

/-- The sidecar comes back without the network of the clients. And tokens that end in a bare flag
come back with a model of that name. -/
theorem switch_loses_network :
    let switched (before : Container) :=
      ((ensureSidecar plainText "b" (dockerInspectSidecar plainText "vllm")
        (dockerRecreateSidecar plainText)).left
          (healthy { containers := OrdDict.empty.insert "vllm" before })).daemon.containers.get?
            "vllm"
    let bare := { oneNetwork with config := { image := "vllm", cmd := ["serve", "--model"] } }
    twoNetworks.networks.entries.map Prod.fst = ["llm", "clients"] ∧
      (switched twoNetworks).map (fun after =>
        (after.running, after.config.cmd, after.networks.entries.map Prod.fst)) =
          some (true, ["serve", "--model", "b"], ["llm"]) ∧
      (switched bare).map (fun after => (after.config.cmd, currentModel after.config.cmd)) =
        some (["serve", "--model", "--model", "b"], some "--model") := by
  decide +kernel

end VllmSidecar

end BrokerParrot
