import Mathlib.Data.List.Sort
import BrokerParrot.NodeQueue

/-!
# Workflows and their node graph

A workflow is a list of steps; a pipeline step stands for the nodes of its schema. `nodesOf` expands
a workflow into the graph the dispatcher walks: node ids are prefixed with the step's id, a node
without schema dependencies inherits the step's, and a dependency on a step becomes one on the
step's leaves.
-/

namespace BrokerParrot

abbrev Context := List (String × Value)

structure SchemaInput where
  name : String
  source : String
  deriving DecidableEq

structure SchemaNode where
  id : String
  node : Option String := none
  dependsOn : List String := []
  gpu : Bool := false
  model : Option String := none
  inputs : List SchemaInput := []
  skipIf : Value := .null
  avoidBox : List String := []
  forceBox : List String := []
  serverTypes : List String := []
  requiredModels : List ModelEntry := []
  download : Bool := false
  dedupKey : Option Value := none
  cpuSlots : Option ℤ := none
  contextLength : Option Value := none

structure Schema where
  nodes : List SchemaNode

inductive StepKind where
  | input (widget target : Option String)
  | pipeline (pipeline : String) (inputs : Context)
  | other

structure Step where
  id : String
  kind : StepKind
  dependsOn : List String := []
  skipIf : Value := .null

structure Workflow where
  steps : List Step

/-- Everything outside the database: the loaders and the resolver that the host injects, the
language's own text functions, and the files a patch copies. -/
structure Host where
  loadWorkflow : String → Except PyError Workflow
  pipelineSchema : String → Except PyError Schema
  resolveRef : Value → Context → Except PyError Value
  exemptModules : List String := []
  literalEval : String → Option Value := fun _ => none
  str : Value → String := fun _ => ""
  repr : Value → String := fun _ => ""
  jsonKey : Value → String := fun _ => ""
  isoformat : ℚ → String := fun _ => ""
  isFile : String → Bool := fun _ => false
  copyFiles : List (String × String) → Except PyError Unit := fun _ => .ok ()

/-! ### Expansion -/

structure NodeBody where
  node : String
  gpu : Bool
  model : Option String
  inputs : Context
  avoidBox : List String
  forceBox : List String
  serverTypes : List String
  requiredModels : List ModelEntry
  download : Bool
  dedupKey : Option Value
  cpuSlots : Option ℤ
  contextLength : Option Value

inductive NodeKind where
  | input (widget target : Option String)
  | node (body : NodeBody)

structure DagNode where
  id : String
  dependsOn : List String
  skipIf : Value
  kind : NodeKind

def nodeId (stepId id : String) : String := stepId ++ "/" ++ id

/-- The text inside `name(...)`; the dot of the pattern takes no line break, and its end may stand
before one. -/
def insideCall? (name text : String) : Option String :=
  let chars := text.toList
  let chars := if chars.getLast? = some '\n' then chars.dropLast else chars
  let head := name.toList ++ ['(']
  let rest := chars.drop head.length
  let inner := rest.dropLast
  if head.isPrefixOf chars ∧ rest.getLast? = some ')' ∧ inner ≠ [] ∧ '\n' ∉ inner then
    some (String.ofList inner)
  else
    none

variable (host : Host)

/-- A schema input's `from` as a value, or as a reference that the enqueue resolves. -/
def resolveInputRef (source stepId : String) (stepInputs : Context) (outDir : Option String) :
    Value :=
  let outDir := orNull outDir
  match insideCall? "pipeline._implicit" source with
  | some raw => (host.literalEval (stripped raw)).getD (.str (stripped raw))
  | none =>
    match insideCall? "pipeline._siblings" source with
    | some raw =>
      match host.literalEval (stripped raw), outDir with
      | some (.list ids), none => .list ids
      | some (.list ids), some dir =>
        .list (ids.map fun id => .str (dir ++ "/" ++ stepId ++ "/" ++ host.str id))
      | _, _ => .list []
    | none =>
      let chars := source.toList
      if "pipeline.".toList.isPrefixOf chars then
        (OrdDict.lookupIn stepInputs (String.ofList (chars.drop 9))).getD .null
      else
        match outDir with
        | none => .str source
        | some dir =>
          let base := dir ++ "/" ++ stepId ++ "/" ++ String.ofList (chars.takeWhile (· ≠ '.'))
          let rest := (chars.dropWhile (· ≠ '.')).drop 1
          .str (if rest = [] then base else base ++ "/" ++ String.ofList rest)

def resolvedInputs (inputs : List SchemaInput) (stepId : String) (stepInputs : Context)
    (outDir : Option String) : Context :=
  inputs.foldl
    (fun resolved input =>
      if input.name = "" then
        resolved
      else
        OrdDict.insertIn resolved input.name
          (resolveInputRef host input.source stepId stepInputs outDir))
    []

def schemaLeaves (stepId : String) (nodes : List SchemaNode) : Except PyError (List String) :=
  let referenced := nodes.flatMap SchemaNode.dependsOn
  let leaves := nodes.filter fun node => node.id ∉ referenced
  if leaves ≠ [] then
    .ok (leaves.map fun node => nodeId stepId node.id)
  else
    match nodes.getLast? with
    | some last => .ok [nodeId stepId last.id]
    | none => .error (.indexError "list index out of range")

def stepLeaves (host : Host) (leaves : OrdDict String (List String)) :
    List Step → Except PyError (OrdDict String (List String))
  | [] => .ok leaves
  | step :: rest =>
    match step.kind with
    | .input _ _ => stepLeaves host (leaves.insert step.id [step.id]) rest
    | .pipeline pipeline _ => do
      let schema ← host.pipelineSchema pipeline
      let ids ← schemaLeaves step.id schema.nodes
      stepLeaves host (leaves.insert step.id ids) rest
    | .other => stepLeaves host leaves rest

def expandStepDeps (leaves : OrdDict String (List String)) (deps : List String) : List String :=
  deps.flatMap fun dep => (leaves.get? dep).getD [dep]

def schemaNode (step : Step) (stepInputs : Context) (stepDeps : List String)
    (outDir : Option String) (node : SchemaNode) : DagNode where
  id := nodeId step.id node.id
  dependsOn :=
    if node.dependsOn = [] then stepDeps else node.dependsOn.map (nodeId step.id)
  skipIf := if node.skipIf.truthy then node.skipIf else step.skipIf
  kind := .node
    { node := (orNull node.node).getD node.id
      gpu := node.gpu
      model := node.model
      inputs := resolvedInputs host node.inputs step.id stepInputs outDir
      avoidBox := node.avoidBox
      forceBox := node.forceBox
      serverTypes := node.serverTypes
      requiredModels := node.requiredModels
      download := node.download
      dedupKey := node.dedupKey
      cpuSlots := node.cpuSlots
      contextLength := node.contextLength }

def stepNodes (leaves : OrdDict String (List String)) (outDir : Option String) (step : Step) :
    Except PyError (List DagNode) :=
  let stepDeps := expandStepDeps leaves step.dependsOn
  match step.kind with
  | .input widget target =>
    .ok [{ id := step.id, dependsOn := stepDeps, skipIf := step.skipIf,
           kind := .input widget target }]
  | .pipeline pipeline inputs => do
    let schema ← host.pipelineSchema pipeline
    return schema.nodes.map (schemaNode host step inputs stepDeps outDir)
  | .other => .ok []

def expandSteps (host : Host) (leaves : OrdDict String (List String)) (outDir : Option String) :
    List Step → Except PyError (List DagNode)
  | [] => .ok []
  | step :: rest => do
    let nodes ← stepNodes host leaves outDir step
    let others ← expandSteps host leaves outDir rest
    return nodes ++ others

def nodesOf (workflow : Workflow) (outDir : Option String) : Except PyError (List DagNode) := do
  let leaves ← stepLeaves host OrdDict.empty workflow.steps
  expandSteps host leaves outDir workflow.steps

/-! ### What a node asks for -/

namespace DagNode

def model (node : DagNode) : Option String :=
  match node.kind with
  | .input _ _ => none
  | .node body => body.model

def module (node : DagNode) : String :=
  match node.kind with
  | .input _ _ => node.id
  | .node body => (orNull (some body.node)).getD node.id

def undeclared (host : Host) (node : DagNode) : Bool :=
  match node.kind with
  | .input _ _ => false
  | .node body => body.gpu ∧ orNull body.model = none ∧ node.module ∉ host.exemptModules

end DagNode

def assertGpuNodesDeclareModel (workflow : Workflow) (run : Run) : Except PyError Unit := do
  let nodes ← nodesOf host workflow run.outDir
  let offenders := (nodes.filter (·.undeclared host)).map fun node =>
    node.id ++ " (module=" ++ host.repr (.str node.module) ++ ")"
  if offenders ≠ [] then
    throw (.valueError ("gpu:true node(s) without a declared 'model' would enqueue with " ++
      "required_model=NULL — declare a registered model in the schema, or " ++
      "add the module to vlm_pool_node_modules / gpu_self_load_node_modules " ++
      "if it intentionally self-manages its model: " ++ ", ".intercalate offenders))

namespace NodeBody

variable (host : Host) (body : NodeBody)

def queueOf (id : String) (body : NodeBody) : Except PyError Queue :=
  if body.download then
    if body.gpu then
      .error (.valueError ("node " ++ host.repr (.str id) ++
        ": 'download' and 'gpu' are mutually " ++
        "exclusive — a download node is network-bound and runs on the " ++
        "download lane, never on the GPU"))
    else
      .ok .download
  else
    .ok (if body.gpu then .gpu else .cpu)

def requiredModel : Option String := if body.gpu then orNull body.model else none

def nodeCpuSlots : Option ℤ := body.cpuSlots.filter (1 < ·)

/-- The declared width as a whole number: a float without a fraction and a text of digits count, and
nothing else does. -/
def wholeNumber? : Value → Option ℤ
  | .num value => if value.den = 1 then some value.num else none
  | .str text =>
    let digits := (stripped text).toList
    if digits ≠ [] ∧ digits.all Char.isDigit then (stripped text).toInt? else none
  | _ => none

def contextLengthOf (id : String) (body : NodeBody) (context : Context) :
    Except PyError (Option ℤ) :=
  match body.contextLength with
  | none => .ok none
  | some raw => do
    match ← host.resolveRef raw context with
    | .null => return none
    | .str "" => return none
    | value =>
      match (wholeNumber? value).map fun whole => validateContextLength (some whole) with
      | some (.ok whole) => return whole
      | some (.error (.valueError text)) =>
        throw (.valueError ("node " ++ host.repr (.str id) ++ ": " ++ text))
      | some (.error raised) => throw raised
      | none =>
        throw (.valueError ("node " ++ host.repr (.str id) ++
          ": context_length must be a positive integer (tokens) or None, got " ++
          host.repr value))

def dedupKeyOf (context : Context) : Except PyError (Option String) :=
  match body.dedupKey with
  | none => .ok none
  | some raw => do
    let value ← host.resolveRef raw context
    return if value.truthy then orNull (some (host.str value)) else none

def resolveAll (host : Host) (context : Context) : Context → Except PyError Context
  | [] => .ok []
  | (name, raw) :: rest => do
    let value ← host.resolveRef raw context
    let others ← resolveAll host context rest
    return (name, value) :: others

def jobSpec (runId : String) (run : Run) (node : DagNode) (body : NodeBody) (context : Context) :
    Except PyError NodeJobSpec := do
  let inputs ← resolveAll host context body.inputs
  let queue ← body.queueOf host node.id
  let dedupKey ← body.dedupKeyOf host context
  let contextLength ← body.contextLengthOf host node.id context
  return {
    runId := runId
    nodeId := node.id
    nodeModule := node.module
    queue := queue
    requiredModel := body.requiredModel
    requiredModels := body.requiredModels
    inputs := inputs
    priority := run.priority
    project := run.project
    avoidBox := body.avoidBox
    forceBox := body.forceBox
    serverTypes := body.serverTypes
    cpuSlots := body.nodeCpuSlots
    dedupKey := dedupKey
    contextLength := contextLength }

end NodeBody

def inputJobSpec (runId : String) (run : Run) (node : DagNode) (widget target : Option String) :
    NodeJobSpec where
  runId := runId
  nodeId := node.id
  nodeModule := "__input__" ++ widget.getD "None"
  queue := .cpu
  inputs :=
    [("widget", (widget.map Value.str).getD .null), ("target", (target.map Value.str).getD .null)]
  priority := run.priority
  project := run.project

/-! ### Ready nodes -/

/-- The rows of a run by node id. Node ids are unique within a run, so the first match is the only
one. -/
abbrev JobMap := List (JobId × NodeJob)

def JobMap.get? (existing : JobMap) (node : String) : Option (JobId × NodeJob) :=
  existing.find? fun entry => entry.2.nodeId = node

def JobStatus.Settled (status : JobStatus) : Prop := status = .completed ∨ status = .skipped

instance (status : JobStatus) : Decidable status.Settled := inferInstanceAs (Decidable (_ ∨ _))

def JobMap.settled (existing : JobMap) (node : String) : Bool :=
  (existing.get? node).any fun entry => entry.2.status.Settled

def findReadyNodes (existing : JobMap) (nodes : List DagNode) : List DagNode :=
  nodes.filter fun node => (existing.get? node.id).isNone ∧ node.dependsOn.all existing.settled

def allSettled (existing : JobMap) (nodes : List DagNode) : Bool :=
  nodes ≠ [] ∧ nodes.all fun node => existing.settled node.id

def readySorted (ready : List DagNode) : List DagNode :=
  ready.insertionSort fun left right =>
    (orNull left.model).getD "\uffff" ≤ (orNull right.model).getD "\uffff"

/-! ### Contexts -/

def evalSkipContext (run : Run) (existing : JobMap) : Context :=
  existing.foldl
    (fun context entry =>
      if entry.2.status = .completed ∧ entry.2.contextDelta ≠ [] then
        OrdDict.insertIn context entry.2.nodeId (.dict entry.2.contextDelta)
      else
        context)
    run.context

def shouldSkipNode (node : DagNode) (run : Run) (existing : JobMap) : Except PyError Bool :=
  if node.skipIf.truthy then
    match host.resolveRef node.skipIf (evalSkipContext run existing) with
    | .ok value => .ok value.truthy
    | .error (.keyError _) => .ok false
    | .error (.typeError _) => .ok false
    | .error raised => .error raised
  else
    .ok false

end BrokerParrot
