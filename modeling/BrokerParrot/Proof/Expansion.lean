import BrokerParrot.Lib.Dag
import BrokerParrot.Proof.DagMoves

/-!
# Order across the steps of a workflow

In the expanded graph only the first nodes of a step depend on other steps, and only on their last
nodes. `Ordered` says that every row of a run belongs to a node of the graph whose dependencies are
settled.
-/

namespace BrokerParrot

open List Except

variable {host : Host} {leaves : OrdDict String (List String)} {step : Step}
  {outDir : Option String}

namespace Step

def schemaNodes (host : Host) (step : Step) : List SchemaNode :=
  match step.kind with
  | .pipeline pipeline _ =>
    match host.pipelineSchema pipeline with
    | .ok schema => schema.nodes
    | .error _ => []
  | _ => []

def nodeIds (host : Host) (step : Step) : List String :=
  match step.kind with
  | .input _ _ => [step.id]
  | _ => (step.schemaNodes host).map fun node => nodeId step.id node.id

def Needs (host : Host) (step : Step) (a b : String) : Prop :=
  ∃ node ∈ step.schemaNodes host, node.id = a ∧ b ∈ node.dependsOn

def LeavesAre (host : Host) (step : Step) (ids : List String) : Prop :=
  match step.kind with
  | .input _ _ => ids = [step.id]
  | .pipeline _ _ => schemaLeaves step.id (step.schemaNodes host) = .ok ids
  | .other => False

end Step

/-- Step ids and node ids are distinct, schemas are acyclic, and a dependency that hits a node of
the graph hits one of its own schema. -/
structure Workflow.WellFormed (host : Host) (workflow : Workflow) (nodes : List DagNode) :
    Prop where
  distinctSteps : (workflow.steps.map Step.id).Nodup
  distinctNodes : (nodes.map DagNode.id).Nodup
  acyclic : ∀ step ∈ workflow.steps, ∀ a, ¬ Relation.TransGen (step.Needs host) a a
  ownDeps : ∀ step ∈ workflow.steps, ∀ a b, step.Needs host a b →
    nodeId step.id b ∈ nodes.map DagNode.id → b ∈ (step.schemaNodes host).map SchemaNode.id

/-! ### The leaves of the steps -/

section

variable {after : OrdDict String (List String)} {steps : List Step}

theorem schemaNodes_of_pipeline {pipeline : String} {inputs : Context} {schema : Schema}
    (hkind : step.kind = .pipeline pipeline inputs)
    (hschema : host.pipelineSchema pipeline = .ok schema) :
    step.schemaNodes host = schema.nodes := by
  unfold Step.schemaNodes
  rw [hkind]
  dsimp only
  rw [hschema]

theorem stepLeaves_cons (hok : stepLeaves host leaves (step :: steps) = .ok after) :
    (step.kind = .other ∧ stepLeaves host leaves steps = .ok after) ∨
      ∃ ids, step.LeavesAre host ids ∧
        stepLeaves host (leaves.insert step.id ids) steps = .ok after := by
  unfold stepLeaves at hok
  unfold Step.LeavesAre
  cases hkind : step.kind with
  | input =>
    rw [hkind] at hok
    exact Or.inr ⟨[step.id], rfl, hok⟩
  | pipeline =>
    rw [hkind] at hok
    obtain ⟨schema, hschema, hok⟩ := bind_eq_ok_iff.mp hok
    obtain ⟨ids, hids, hok⟩ := bind_eq_ok_iff.mp hok
    rw [schemaNodes_of_pipeline hkind hschema]
    exact Or.inr ⟨ids, hids, hok⟩
  | other =>
    rw [hkind] at hok
    exact Or.inl ⟨rfl, hok⟩

theorem stepLeaves_of_not_mem (hok : stepLeaves host leaves steps = .ok after) {key : String}
    (hkey : key ∉ steps.map Step.id) : after.get? key = leaves.get? key := by
  induction steps generalizing leaves with
  | nil =>
    cases hok
    rfl
  | cons step rest ih =>
    obtain ⟨hne, hrest⟩ : key ≠ step.id ∧ key ∉ rest.map Step.id := by simpa using hkey
    rcases stepLeaves_cons hok with ⟨-, hok⟩ | ⟨ids, -, hok⟩
    · exact ih hok hrest
    · rw [ih hok hrest, OrdDict.get?_insert_of_ne _ _ hne]

theorem stepLeaves_get? (hok : stepLeaves host leaves steps = .ok after)
    (hdistinct : (steps.map Step.id).Nodup) (hmem : step ∈ steps) :
    step.kind = .other ∨ ∃ ids, step.LeavesAre host ids ∧ after.get? step.id = some ids := by
  induction steps generalizing leaves with
  | nil => cases hmem
  | cons first rest ih =>
    obtain ⟨hfirst, hrest⟩ := nodup_cons.mp hdistinct
    rcases mem_cons.mp hmem with rfl | hmem
    · rcases stepLeaves_cons hok with ⟨hother, -⟩ | ⟨ids, hids, hok⟩
      · exact Or.inl hother
      · refine Or.inr ⟨ids, hids, ?_⟩
        rw [stepLeaves_of_not_mem hok hfirst, OrdDict.get?_insert_self]
    · rcases stepLeaves_cons hok with ⟨-, hok⟩ | ⟨ids, -, hok⟩
      · exact ih hok hrest hmem
      · exact ih hok hrest hmem

theorem mem_schemaLeaves {stepId : String} {nodes : List SchemaNode} {ids : List String}
    (hids : schemaLeaves stepId nodes = .ok ids) {node : SchemaNode} (hmem : node ∈ nodes)
    (hleaf : ∀ other ∈ nodes, node.id ∉ other.dependsOn) : nodeId stepId node.id ∈ ids := by
  have hfilter : node ∈ nodes.filter fun node => node.id ∉ nodes.flatMap SchemaNode.dependsOn := by
    refine mem_filter.mpr ⟨hmem, decide_eq_true ?_⟩
    intro hreferenced
    obtain ⟨other, hother, hdep⟩ := mem_flatMap.mp hreferenced
    exact hleaf other hother hdep
  unfold schemaLeaves at hids
  rw [if_pos (ne_nil_of_mem hfilter)] at hids
  cases hids
  exact mem_map.mpr ⟨node, hfilter, rfl⟩

end

/-! ### The nodes of the steps -/

section

variable {steps : List Step} {nodes : List DagNode}

variable (hok : expandSteps host leaves outDir steps = .ok nodes)

include hok

theorem mem_expandSteps (hmem : step ∈ steps) :
    ∃ own, stepNodes host leaves outDir step = .ok own ∧ own ⊆ nodes := by
  induction steps generalizing nodes with
  | nil => cases hmem
  | cons first rest ih =>
    obtain ⟨own, hown, hok⟩ := bind_eq_ok_iff.mp hok
    obtain ⟨others, hothers, hok⟩ := bind_eq_ok_iff.mp hok
    obtain rfl : own ++ others = nodes := Except.ok.inj hok
    rcases mem_cons.mp hmem with rfl | hmem
    · exact ⟨own, hown, subset_append_left own others⟩
    · obtain ⟨mine, hmine, hsub⟩ := ih hothers hmem
      exact ⟨mine, hmine, subset_append_of_subset_right own hsub⟩

theorem exists_inputNode (hmem : step ∈ steps) {widget target : Option String}
    (hkind : step.kind = .input widget target) :
    ∃ node ∈ nodes, node.id = step.id ∧ node.dependsOn = expandStepDeps leaves step.dependsOn := by
  obtain ⟨own, hown, hsub⟩ := mem_expandSteps hok hmem
  unfold stepNodes at hown
  rw [hkind] at hown
  cases hown
  exact ⟨_, hsub mem_cons_self, rfl, rfl⟩

theorem exists_schemaNode (hmem : step ∈ steps) {inner : SchemaNode}
    (hinner : inner ∈ step.schemaNodes host) :
    ∃ node ∈ nodes, node.id = nodeId step.id inner.id ∧
      node.dependsOn = if inner.dependsOn = [] then expandStepDeps leaves step.dependsOn
        else inner.dependsOn.map (nodeId step.id) := by
  obtain ⟨own, hown, hsub⟩ := mem_expandSteps hok hmem
  unfold stepNodes at hown
  cases hkind : step.kind with
  | pipeline =>
    rw [hkind] at hown
    obtain ⟨schema, hschema, hown⟩ := bind_eq_ok_iff.mp hown
    rw [schemaNodes_of_pipeline hkind hschema] at hinner
    cases hown
    exact ⟨_, hsub (mem_map_of_mem hinner), rfl, rfl⟩
  | input | other =>
    unfold Step.schemaNodes at hinner
    rw [hkind] at hinner
    cases hinner

end

/-! ### States in order -/

def Db.Ordered (runId : String) (nodes : List DagNode) (db : Db) : Prop :=
  ∀ id, db.NodeTaken runId id → ∃ node ∈ nodes, node.id = id ∧ DepsSettled runId db node

def schemaDag (host : Host) (step : Step)
    (hacyclic : ∀ a, ¬ Relation.TransGen (step.Needs host) a a) : Dag String where
  nodes := { a | a ∈ (step.schemaNodes host).map SchemaNode.id }
  needs := fun a b => step.Needs host a b ∧ b ∈ (step.schemaNodes host).map SchemaNode.id
  finite := List.finite_toSet _
  inside := fun a b hneeds => by
    obtain ⟨⟨node, hmem, hid, -⟩, hb⟩ := hneeds
    exact ⟨List.mem_map.mpr ⟨node, hmem, hid⟩, hb⟩
  acyclic := fun a hcycle =>
    hacyclic a (Relation.TransGen.mono (fun _ _ hneeds => hneeds.1) _ _ hcycle)

section

variable {workflow : Workflow} {nodes : List DagNode} {runId : String} {db : Db}

theorem Db.Ordered.depsSettled (hordered : db.Ordered runId nodes)
    (hdistinct : (nodes.map DagNode.id).Nodup) {node : DagNode} (hmem : node ∈ nodes)
    (htaken : db.NodeTaken runId node.id) : DepsSettled runId db node := by
  obtain ⟨found, hfound, hid, hdeps⟩ := hordered node.id htaken
  obtain rfl := inj_on_of_nodup_map hdistinct hfound hmem hid
  exact hdeps

theorem nodeIds_of_input {widget target : Option String}
    (hkind : step.kind = .input widget target) : step.nodeIds host = [step.id] := by
  unfold Step.nodeIds
  rw [hkind]

theorem nodeIds_of_not_input (hkind : ∀ widget target, step.kind ≠ .input widget target) :
    step.nodeIds host = (step.schemaNodes host).map fun node => nodeId step.id node.id := by
  unfold Step.nodeIds
  split
  · rename_i widget target heq
    exact absurd heq (hkind widget target)
  · rfl

section

variable (hwell : workflow.WellFormed host nodes)
  (hexpand : expandSteps host leaves outDir workflow.steps = .ok nodes)
  (hordered : db.Ordered runId nodes) (hstep : step ∈ workflow.steps) {inner : SchemaNode}

include hwell hexpand hordered hstep

theorem schemaDeps_settled (hinner : inner ∈ step.schemaNodes host)
    (htaken : db.NodeTaken runId (nodeId step.id inner.id)) :
    ∀ dep ∈ inner.dependsOn, db.NodeSettled runId (nodeId step.id dep) := by
  intro dep hdep
  obtain ⟨node, hmem, hid, hdeps⟩ := exists_schemaNode hexpand hstep hinner
  rw [if_neg (ne_nil_of_mem hdep)] at hdeps
  refine hordered.depsSettled hwell.distinctNodes hmem (hid ▸ htaken) _ ?_
  rw [hdeps]
  exact mem_map_of_mem hdep

theorem schemaProgress :
    (schemaDag host step (hwell.acyclic step hstep)).Progress
      (fun a => db.NodeTaken runId (nodeId step.id a))
      (fun a => db.NodeSettled runId (nodeId step.id a)) where
  started_of_done := fun _ => Db.NodeSettled.taken
  in_order := by
    rintro a b htaken ⟨⟨inner, hinner, rfl, hdep⟩, -⟩
    exact schemaDeps_settled hwell hexpand hordered hstep hinner htaken b hdep

theorem stepDeps_settled_of_source (hinner : inner ∈ step.schemaNodes host)
    (htaken : db.NodeTaken runId (nodeId step.id inner.id))
    (hsource : ∀ b, ¬ (schemaDag host step (hwell.acyclic step hstep)).needs inner.id b) :
    ∀ dep ∈ expandStepDeps leaves step.dependsOn, db.NodeSettled runId dep := by
  have hnone : inner.dependsOn = [] := by
    refine eq_nil_iff_forall_not_mem.mpr fun dep hdep => ?_
    have hneeds : step.Needs host inner.id dep := ⟨inner, hinner, rfl, hdep⟩
    have hsettled := schemaDeps_settled hwell hexpand hordered hstep hinner htaken dep hdep
    -- A dependency that is no node of the schema would have to be a node of some other step.
    obtain ⟨node, hmem, hid, -⟩ := hordered _ hsettled.taken
    exact hsource dep ⟨hneeds, hwell.ownDeps step hstep _ dep hneeds
      (mem_map.mpr ⟨node, hmem, hid⟩)⟩
  obtain ⟨node, hmem, hid, hdeps⟩ := exists_schemaNode hexpand hstep hinner
  rw [if_pos hnone] at hdeps
  rw [← hdeps]
  exact hordered.depsSettled hwell.distinctNodes hmem (hid ▸ htaken)

theorem stepDeps_settled {id : String} (hid : id ∈ step.nodeIds host)
    (htaken : db.NodeTaken runId id) :
    ∀ dep ∈ expandStepDeps leaves step.dependsOn, db.NodeSettled runId dep := by
  by_cases hkind : ∃ widget target, step.kind = .input widget target
  · obtain ⟨widget, target, hkind⟩ := hkind
    rw [nodeIds_of_input hkind] at hid
    obtain rfl := mem_singleton.mp hid
    obtain ⟨node, hmem, hnode, hdeps⟩ := exists_inputNode hexpand hstep hkind
    rw [← hdeps]
    exact hordered.depsSettled hwell.distinctNodes hmem (hnode ▸ htaken)
  · rw [nodeIds_of_not_input fun widget target heq => hkind ⟨widget, target, heq⟩] at hid
    obtain ⟨inner, hinner, rfl⟩ := mem_map.mp hid
    have hprogress := schemaProgress hwell hexpand hordered hstep
    obtain ⟨source, hsourceMem, hsourceTaken, hsource⟩ :=
      hprogress.exists_source (mem_map_of_mem hinner) htaken
    obtain ⟨first, hfirst, rfl⟩ := mem_map.mp hsourceMem
    exact stepDeps_settled_of_source hwell hexpand hordered hstep hfirst hsourceTaken hsource

theorem step_settled_of_leaves {ids : List String} (hids : step.LeavesAre host ids)
    (hsettled : ∀ id ∈ ids, db.NodeSettled runId id) :
    ∀ id ∈ step.nodeIds host, db.NodeSettled runId id := by
  intro id hid
  unfold Step.LeavesAre at hids
  cases hkind : step.kind with
  | input =>
    rw [hkind] at hids
    rw [nodeIds_of_input hkind] at hid
    exact hsettled id (hids ▸ hid)
  | pipeline =>
    rw [hkind] at hids
    rw [nodeIds_of_not_input (by simp [hkind])] at hid
    obtain ⟨inner, hinner, rfl⟩ := mem_map.mp hid
    refine (schemaProgress hwell hexpand hordered hstep).all_done ?_ inner.id
      (mem_map_of_mem hinner)
    intro a ha hleaf
    obtain ⟨last, hlast, rfl⟩ := mem_map.mp ha
    refine hsettled _ (mem_schemaLeaves hids hlast fun other hother hdep => ?_)
    exact hleaf other.id ⟨⟨other, hother, rfl, hdep⟩, ha⟩
  | other =>
    rw [hkind] at hids
    exact hids.elim

end

theorem Db.Ordered.steps (hnodes : nodesOf host workflow outDir = .ok nodes)
    (hwell : workflow.WellFormed host nodes) (hordered : db.Ordered runId nodes)
    (hstep : step ∈ workflow.steps) {id : String} (hid : id ∈ step.nodeIds host)
    (htaken : db.NodeTaken runId id) {other : Step} (hother : other ∈ workflow.steps)
    (hdep : other.id ∈ step.dependsOn) :
    ∀ need ∈ other.nodeIds host, db.NodeSettled runId need := by
  obtain ⟨leaves, hleaves, hexpand⟩ := bind_eq_ok_iff.mp hnodes
  rcases stepLeaves_get? hleaves hwell.distinctSteps hother with hkind | ⟨ids, hids, hget⟩
  · intro need hneed
    rw [nodeIds_of_not_input (by simp [hkind])] at hneed
    unfold Step.schemaNodes at hneed
    rw [hkind] at hneed
    cases hneed
  · refine step_settled_of_leaves hwell hexpand hordered hother hids fun leaf hleaf => ?_
    refine stepDeps_settled hwell hexpand hordered hstep hid htaken leaf ?_
    refine mem_flatMap.mpr ⟨other.id, hdep, ?_⟩
    rwa [hget]

end

end BrokerParrot
