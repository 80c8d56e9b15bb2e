import BrokerParrot.Workflow

/-!
# What a schema node declares and what its row stores

A declaration passes two lists of fields on its way to a row: the expansion of the schema and the
enqueue of the node. It is compared with the row that `enqueue_node_job` makes of the same fields.
-/

namespace BrokerParrot

open Except

variable {id : String}

def keyText (host : Host) : Option Value → Option String
  | none => none
  | some .null => none
  | some key => some (host.str key)

namespace SchemaNode

/-- The same call of `enqueue_node_job` with the declared fields. The expansion of a node reads no
`gpu_slots`, so they stand apart, as does the window as a number. -/
def direct (node : SchemaNode) (host : Host) (gpuSlots : Option GpuSlots) (tokens : Option ℤ)
    (spec : NodeJobSpec) : NodeJobSpec :=
  { spec with
    requiredModel := node.model
    requiredModels := node.requiredModels
    serverTypes := node.serverTypes
    avoidBox := node.avoidBox
    forceBox := node.forceBox
    cpuSlots := node.cpuSlots
    gpuSlots := gpuSlots
    contextLength := tokens
    dedupKey := keyText host node.dedupKey }

structure Literal (node : SchemaNode) (host : Host) (tokens : Option ℤ) (context : Context) :
    Prop where
  window : node.contextLength = tokens.map fun width : ℤ => .num width
  width : ∀ width ∈ tokens, host.resolveRef (.num width) context = .ok (.num width)
  key : ∀ key ∈ node.dedupKey, host.resolveRef key context = .ok key

end SchemaNode

theorem NodeJobSpec.accepted_of_row {spec : NodeJobSpec} {now : ℚ} {row : NodeJob}
    (hrow : spec.row now = .ok row) :
    (spec.queue = .gpu ∨ orNull spec.requiredModel = none) ∧
      ∃ width slots, validateContextLength spec.contextLength = .ok width ∧
        normaliseGpuSlots spec.gpuSlots = .ok slots ∧ row = spec.rowWith width slots now := by
  unfold NodeJobSpec.row at hrow
  cases hchecked : spec.validated with
  | error raised =>
    rw [hchecked] at hrow
    cases hrow
  | ok checked =>
    rw [hchecked] at hrow
    cases hrow
    unfold NodeJobSpec.validated at hchecked
    by_cases hmodel : spec.queue ≠ .gpu ∧ (orNull spec.requiredModel).isSome
    · rw [if_pos hmodel] at hchecked
      cases hchecked
    rw [if_neg hmodel] at hchecked
    obtain ⟨width, hwidth, hchecked⟩ := bind_eq_ok_iff.mp hchecked
    dsimp only at hchecked
    split_ifs at hchecked
    any_goals cases hchecked
    obtain ⟨slots, hslots, hchecked⟩ := bind_eq_ok_iff.mp hchecked
    split_ifs at hchecked
    · cases hchecked
    cases hchecked
    refine ⟨?_, width, slots, hwidth, hslots, rfl⟩
    rwa [not_and_or, not_not, Option.not_isSome_iff_eq_none] at hmodel

theorem orNull_empty : orNull (some "") = none := rfl

section

variable {host : Host} {node : SchemaNode} {tokens : Option ℤ} {context : Context} {body : NodeBody}

theorem gpu_of_queueOf (hqueue : body.queueOf host id = .ok .gpu) : body.gpu = true := by
  unfold NodeBody.queueOf at hqueue
  split_ifs at hqueue with hdownload hgpu hgpu
  · cases hqueue
  · exact hgpu
  · cases hqueue

theorem normaliseGpuSlots_none_iff {slots weight : Option GpuSlots}
    (hweight : normaliseGpuSlots slots = .ok weight) :
    none = weight ↔ slots = none ∨ slots = some (.count 1) := by
  unfold normaliseGpuSlots at hweight
  split at hweight
  any_goals
    cases hweight
    simp
  split_ifs at hweight with hlow hone <;> cases hweight <;> simp [hone]

theorem width_eq_of_literal (hliteral : node.Literal host tokens context)
    (hbody : body.contextLength = node.contextLength) {width : Option ℤ}
    (hwidth : body.contextLengthOf host id context = .ok width) : width = tokens := by
  unfold NodeBody.contextLengthOf at hwidth
  rw [hbody, hliteral.window] at hwidth
  cases tokens with
  | none =>
    cases hwidth
    rfl
  | some length =>
    obtain ⟨value, hvalue, hwidth⟩ := bind_eq_ok_iff.mp hwidth
    rw [hliteral.width length rfl] at hvalue
    cases hvalue
    simp only [NodeBody.wholeNumber?, Rat.den_intCast, Rat.num_intCast, if_true, Option.map_some,
      validateContextLength] at hwidth
    split_ifs at hwidth
    cases hwidth
    rfl

theorem key_of_literal (hliteral : node.Literal host tokens context)
    (hbody : body.dedupKey = node.dedupKey) {key : Option String}
    (hkey : body.dedupKeyOf host context = .ok key) :
    orNull (key.map stripped) = orNull ((keyText host node.dedupKey).map stripped) ↔
      orNull ((keyText host node.dedupKey).map stripped) = none ∨
        ∃ key ∈ node.dedupKey, key.truthy = true := by
  unfold NodeBody.dedupKeyOf at hkey
  rw [hbody] at hkey
  cases hdeclared : node.dedupKey with
  | none =>
    rw [hdeclared] at hkey
    cases hkey
    simp [keyText, orNull]
  | some value =>
    rw [hdeclared] at hkey
    obtain ⟨resolved, hresolved, hkey⟩ := bind_eq_ok_iff.mp hkey
    rw [hliteral.key value hdeclared] at hresolved
    cases hresolved
    cases hkey
    by_cases htrue : value.truthy = true
    · refine iff_of_true ?_ (Or.inr ⟨value, rfl, htrue⟩)
      have htext : keyText host (some value) = some (host.str value) := by
        cases value <;> first | rfl | cases htrue
      rw [if_pos htrue, htext]
      by_cases hblank : host.str value = ""
      · rw [hblank, orNull_empty, Option.map_some, stripped_empty]
        rfl
      · have hkept : orNull (some (host.str value)) = some (host.str value) := by
          simp [orNull, hblank]
        rw [hkept]
    · rw [if_neg htrue, or_iff_left fun ⟨key, hmem, hkey⟩ => htrue (Option.some.inj hmem ▸ hkey)]
      exact eq_comm

theorem model_stored_iff {model : Option String} {gpu : Bool} (ids : List String)
    (haccepted : gpu = true ∨ orNull model = none) :
    (orNull (if gpu then orNull model else none)).or
        (ids.head?.or (if gpu then orNull model else none)) =
        (orNull model).or (ids.head?.or model) ↔ (model = some "" → ids ≠ []) := by
  rcases model with _ | model
  · cases gpu <;> simp [orNull]
  by_cases hblank : model = ""
  · subst hblank
    have hnone : orNull none = none := rfl
    cases gpu <;> cases ids <;> simp [hnone, orNull_empty]
  · have hkept : orNull (some model) = some model := by simp [orNull, hblank]
    rw [hkept] at haccepted ⊢
    simp [haccepted.resolve_right (Option.some_ne_none _), hkept, hblank]

end

/-- **The declared routing.** The row of a schema node with literal fields is the one that the same
call of `enqueue_node_job` with these fields makes if and only if `gpu_slots` is left out or 1, the
model is not the empty text, or a list stands in for it, and the key is true or its text is blank.
-/
theorem routing_stored_iff (host : Host) (step : Step) (stepInputs context : Context)
    (stepDeps : List String) (outDir : Option String) (node : SchemaNode)
    (gpuSlots : Option GpuSlots) (tokens : Option ℤ) (runId : String) (run : Run)
    (body : NodeBody) (spec : NodeJobSpec) (now : ℚ) (row wanted : NodeJob)
    (hliteral : node.Literal host tokens context)
    (hbody : (schemaNode host step stepInputs stepDeps outDir node).kind = .node body)
    (hspec : body.jobSpec host runId run
      (schemaNode host step stepInputs stepDeps outDir node) context = .ok spec)
    (hrow : spec.row now = .ok row)
    (hdirect : (node.direct host gpuSlots tokens spec).row now = .ok wanted) :
    row = wanted ↔
      (gpuSlots = none ∨ gpuSlots = some (.count 1)) ∧
        (node.model = some "" → spec.modelIds ≠ []) ∧
        (orNull ((keyText host node.dedupKey).map stripped) = none ∨
          ∃ key ∈ node.dedupKey, key.truthy = true) := by
  cases hbody
  obtain ⟨inputs, -, hspec⟩ := bind_eq_ok_iff.mp hspec
  obtain ⟨queue, hqueue, hspec⟩ := bind_eq_ok_iff.mp hspec
  obtain ⟨key, hkey, hspec⟩ := bind_eq_ok_iff.mp hspec
  obtain ⟨width, hwidth, hspec⟩ := bind_eq_ok_iff.mp hspec
  obtain rfl := width_eq_of_literal hliteral rfl hwidth
  cases hspec
  obtain ⟨-, stored, slots, hstored, hslots, rfl⟩ := NodeJobSpec.accepted_of_row hrow
  obtain ⟨hmodel, other, weight, hother, hweight, rfl⟩ := NodeJobSpec.accepted_of_row hdirect
  obtain rfl : stored = other := Except.ok.inj (hstored.symm.trans hother)
  cases hslots
  have hgpu : node.gpu = true ∨ orNull node.model = none := by
    refine hmodel.imp_left fun hgpu => ?_
    obtain rfl : queue = .gpu := hgpu
    exact gpu_of_queueOf hqueue
  have hweights : none = weight ↔ gpuSlots = none ∨ gpuSlots = some (.count 1) := by
    change normaliseGpuSlots gpuSlots = .ok weight at hweight
    exact normaliseGpuSlots_none_iff hweight
  rw [← hweights, ← key_of_literal hliteral rfl hkey, ← model_stored_iff _ hgpu]
  constructor
  · intro heq
    exact ⟨congrArg NodeJob.gpuSlots heq, congrArg NodeJob.requiredModel heq,
      congrArg NodeJob.dedupKey heq⟩
  · rintro ⟨rfl, hstamp, hkeys⟩
    unfold NodeJobSpec.rowWith
    congr 1
    change (node.cpuSlots.filter (1 < ·)).filter (1 < ·) = node.cpuSlots.filter (1 < ·)
    simp only [Option.filter_filter, Bool.and_self]

/-! ### A node that asks for its whole box -/

def literalHost : Host where
  loadWorkflow := fun name => .error (.keyError name)
  pipelineSchema := fun name => .error (.keyError name)
  resolveRef := fun value _ => .ok value

def drawStep : Step := { id := "draw", kind := .pipeline "draw" [] }

def drawnNode (node : SchemaNode) : DagNode := schemaNode literalHost drawStep [] [] none node

def drawRun : Run := { workflowName := "w", status := .running }

theorem routing_stored_iff_model :
    let node : SchemaNode :=
      { id := "paint", gpu := true, model := some "m", contextLength := some (.num 8) }
    ∃ body spec row, (drawnNode node).kind = .node body ∧
      body.jobSpec literalHost "r" drawRun (drawnNode node) [] = .ok spec ∧
      spec.row 0 = .ok row ∧ (node.direct literalHost none (some 8) spec).row 0 = .ok row := by
  intro node
  have hsame := (routing_stored_iff literalHost drawStep [] [] [] none node none (some 8) "r"
    drawRun _ _ 0 _ _ ⟨rfl, fun _ _ => rfl, nofun⟩ rfl rfl rfl rfl).mpr
    ⟨Or.inl rfl, by simp [node], Or.inl rfl⟩
  exact ⟨_, _, _, rfl, rfl, rfl, congrArg Except.ok hsame.symm⟩

theorem gpu_slots_dropped :
    let node : SchemaNode := { id := "paint", gpu := true, model := some "m" }
    ∃ body spec row wanted, (drawnNode node).kind = .node body ∧
      body.jobSpec literalHost "r" drawRun (drawnNode node) [] = .ok spec ∧
      spec.row 0 = .ok row ∧ (node.direct literalHost (some .all) none spec).row 0 = .ok wanted ∧
      row.gpuSlots = none ∧ wanted.gpuSlots = some .all :=
  ⟨_, _, _, _, rfl, rfl, rfl, rfl, rfl, rfl⟩

end BrokerParrot
