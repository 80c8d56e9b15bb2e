import BrokerParrot.Refs
import BrokerParrot.Proof.DagMoves
import BrokerParrot.Proof.NodeOutcome

/-!
# When the inputs of a node are the latest

The row that `_enqueue` writes holds the values that the references had then, and the executor
resolves those values once more. So the node sees the latest inputs exactly if nothing it refers to
has changed since, and none of the values holds a reference of its own.
-/

namespace BrokerParrot

open List

variable {host : Host} {now : Context}

/-! ### Values without references -/

mutual

def holdsRef : Value → Bool
  | .dict entries => holdsRefEntries entries
  | _ => false

def holdsRefEntries : List (String × Value) → Bool
  | [] => false
  | (key, value) :: rest =>
    key ∈ ["$value", "$coalesce", "$from"] || holdsRef value || holdsRefEntries rest

end

theorem lookupIn_of_literal {entries : List (String × Value)} {key : String}
    (hmarker : key ∈ ["$value", "$coalesce", "$from"])
    (hliteral : holdsRefEntries entries = false) :
    OrdDict.lookupIn entries key = none := by
  refine OrdDict.lookupIn_eq_none fun hmem => ?_
  induction entries with
  | nil => cases hmem
  | cons entry rest ih =>
    simp only [holdsRefEntries, Bool.or_eq_false_iff, decide_eq_false_iff_not] at hliteral
    rcases mem_cons.mp hmem with rfl | hrest
    · exact hliteral.1.1 hmarker
    · exact ih hliteral.2 hrest

section

variable (env : RefEnv) (context : Context)

mutual

theorem resolveRef_of_literal (value : Value) (hliteral : holdsRef value = false) :
    resolveRef env context value = .ok value := by
  cases value with
  | dict entries =>
    unfold resolveRef
    rw [lookupIn_of_literal (by simp) hliteral, lookupIn_of_literal (by simp) hliteral,
      lookupIn_of_literal (by simp) hliteral]
    rw [resolveEntries_of_literal entries hliteral]
    rfl
  | _ => rfl

theorem resolveEntries_of_literal (entries : List (String × Value))
    (hliteral : holdsRefEntries entries = false) :
    resolveEntries env context entries = .ok entries := by
  cases entries with
  | nil => rfl
  | cons entry rest =>
    obtain ⟨key, value⟩ := entry
    simp only [holdsRefEntries, Bool.or_eq_false_iff] at hliteral
    unfold resolveEntries
    rw [resolveRef_of_literal value hliteral.1.2, resolveEntries_of_literal rest hliteral.2]
    rfl

end

end

namespace NodeExecutor

variable {env : ExecEnv} {job : HeldJob} {state : ExecDb}

/-! ### The contract -/

def ExecEnv.withResolver (env : ExecEnv) (host : Host) : ExecEnv :=
  { env with
    resolveRef := fun value context =>
      match host.resolveRef value context with
      | .ok resolved => .ok (.json resolved)
      | .error raised => .error (.exception raised) }

def contextNow (runId : String) (state : ExecDb) : Except PyError Context :=
  (state.run runId).elim (.ok []) fun run => state.refContext runId run

structure StoredInput where
  name : String
  declared : Value
  stored : Value

variable {input : StoredInput}

def storedInputs (body : NodeBody) (row : NodeJob) : List StoredInput :=
  List.zipWith (fun declared stored => ⟨declared.1, declared.2, stored.2⟩) body.inputs row.inputs

section

variable (host : Host) (now : Context)

def resolveOr (value stored : Value) : Except PyError Value :=
  match host.resolveRef value now with
  | .error (.keyError _) => .ok stored
  | result => result

/-- The declared input resolved now, and not what the stored value resolves to in its turn. -/
structure StoredInput.Latest (input : StoredInput) (value : String × Value) : Prop where
  name : value.1 = input.name
  declared : resolveOr host now input.declared input.stored = .ok value.2
  once : host.resolveRef input.stored now = .ok value.2 → value.2 = input.stored

def DeliversLatest (env : ExecEnv) (job : HeldJob) (state : ExecDb) (inputs : List StoredInput) :
    Prop :=
  ∃ values : Context,
    (resolveInputsForJob (env.withResolver host) job).alone state =
      some (.ok (values.map fun value => (value.1, .json value.2)), state) ∧
    List.Forall₂ (StoredInput.Latest host now) inputs values

def StillReads (value stored : Value) : Prop :=
  host.resolveRef value now = .ok stored ∨ ∃ key, host.resolveRef value now = .error (.keyError key)

end

section

theorem exists_forall₂_and_iff {α β : Type} {R S : α → β → Prop} {items : List α} :
    (∃ values, Forall₂ R items values ∧ Forall₂ S items values) ↔
      ∀ item ∈ items, ∃ value, R item value ∧ S item value := by
  induction items with
  | nil => simp
  | cons item rest ih =>
    rw [forall_mem_cons, ← ih]
    constructor
    · rintro ⟨_, hfirst, hsecond⟩
      obtain ⟨value, values, hr, hrs, rfl⟩ := forall₂_cons_left_iff.mp hfirst
      obtain ⟨hs, hss⟩ := forall₂_cons.mp hsecond
      exact ⟨⟨value, hr, hs⟩, values, hrs, hss⟩
    · rintro ⟨⟨value, hr, hs⟩, values, hrs, hss⟩
      exact ⟨value :: values, .cons hr hrs, .cons hs hss⟩

variable {body : NodeBody} {row : NodeJob}

theorem resolveOr_eq_stored_iff {value stored : Value} :
    resolveOr host now value stored = .ok stored ↔ StillReads host now value stored := by
  unfold resolveOr StillReads
  split
  · rename_i key hgone
    simp [hgone]
  · rename_i hother
    exact ⟨Or.inl, fun hreads => hreads.resolve_right fun ⟨key, hgone⟩ => hother key hgone⟩

theorem resolveInput_eq_ok_iff {input value : String × Value} :
    resolveInput (env.withResolver host) now input = .ok (value.1, .json value.2) ↔
      value.1 = input.1 ∧ resolveOr host now input.2 input.2 = .ok value.2 := by
  unfold resolveInput resolveOr ExecEnv.withResolver
  dsimp only
  cases host.resolveRef input.2 now with
  | ok => simp [eq_comm]
  | error raised => cases raised <;> simp [eq_comm]

def lateValue (host : Host) (now : Context) (nodeModule : String) (stored : Value) :
    Except PyError Value :=
  if isInputModule nodeModule then .ok stored else resolveOr host now stored stored

theorem resolvedIn_eq_ok_iff (hnow : contextNow job.row.runId state = .ok now) {values : Context} :
    resolvedIn (env.withResolver host) job (state.run job.row.runId) state =
        .ok (values.map fun value => (value.1, .json value.2)) ↔
      Forall₂ (fun input value => value.1 = input.1 ∧
        lateValue host now job.row.nodeModule input.2 = .ok value.2) job.row.inputs values := by
  unfold resolvedIn lateValue
  by_cases hinput : isInputModule job.row.nodeModule = true
  · have hpair : Function.Injective fun value : String × Value =>
        (value.1, PyObject.json value.2) := by
      rintro ⟨_, _⟩ ⟨_, _⟩ heq
      cases heq
      rfl
    have hsame : (fun input value : String × Value => value.1 = input.1 ∧
        (.ok input.2 : Except PyError Value) = .ok value.2) = Eq := by
      funext input value
      simp [Prod.ext_iff, eq_comm]
    simp only [hinput, if_true]
    rw [hsame, forall₂_eq_eq_eq, Except.ok.injEq, (map_injective_iff.mpr hpair).eq_iff]
  · have hnow' : ((state.run job.row.runId).elim (.ok []) fun run =>
        state.refContext job.row.runId run) = .ok now := hnow
    simp only [hinput]
    rw [hnow']
    change job.row.inputs.mapM (resolveInput (env.withResolver host) now) = _ ↔ _
    rw [mapM_eq_ok_iff, forall₂_map_right_iff]
    simp only [resolveInput_eq_ok_iff]
    rfl

theorem alone_resolveInputsForJob :
    (resolveInputsForJob env job).alone state =
      some (resolvedIn env job (state.run job.row.runId) state, state) := by
  have hofExcept (result : Except Thrown (List (String × PyObject))) :
      (Prog.ofExcept result : ExecProg _).alone state = some (result, state) := by
    cases result <;> rfl
  unfold resolveInputsForJob resolvedIn
  split
  · rfl
  · rw [Prog.alone_read_bind]
    cases state.run job.row.runId with
    | none | some => exact hofExcept _

theorem latest_iff {nodeModule : String} :
    (∃ value : String × Value, (value.1 = input.name ∧
        lateValue host now nodeModule input.stored = .ok value.2) ∧ input.Latest host now value) ↔
      StillReads host now input.declared input.stored ∧
        (isInputModule nodeModule = true ∨ StillReads host now input.stored input.stored) := by
  constructor
  · rintro ⟨value, ⟨-, hlate⟩, hlatest⟩
    have hdelivered : value.2 = input.stored ∧
        (isInputModule nodeModule = true ∨ StillReads host now input.stored input.stored) := by
      unfold lateValue at hlate
      split at hlate
      · rename_i hinput
        exact ⟨(Except.ok.inj hlate).symm, Or.inl hinput⟩
      · have hsame : value.2 = input.stored := by
          unfold resolveOr at hlate
          split at hlate
          · exact (Except.ok.inj hlate).symm
          · exact hlatest.once hlate
        rw [hsame] at hlate
        exact ⟨hsame, Or.inr (resolveOr_eq_stored_iff.mp hlate)⟩
    have hdeclared := hlatest.declared
    rw [hdelivered.1] at hdeclared
    exact ⟨resolveOr_eq_stored_iff.mp hdeclared, hdelivered.2⟩
  · rintro ⟨hkept, hinert⟩
    refine ⟨(input.name, input.stored), ⟨rfl, ?_⟩, rfl, resolveOr_eq_stored_iff.mpr hkept,
      fun _ => rfl⟩
    unfold lateValue
    split
    · rfl
    · rename_i hinput
      exact resolveOr_eq_stored_iff.mpr (hinert.resolve_left hinput)

theorem map_storedInputs (hnames : row.inputs.map Prod.fst = body.inputs.map Prod.fst) :
    (storedInputs body row).map (fun input => (input.name, input.stored)) = row.inputs := by
  unfold storedInputs
  generalize row.inputs = stored at hnames ⊢
  generalize body.inputs = declared at hnames ⊢
  induction declared generalizing stored with
  | nil => simpa using hnames.symm
  | cons entry rest ih =>
    cases stored with
    | nil => rfl
    | cons head tail =>
      obtain ⟨hname, htail⟩ := List.cons.inj hnames
      rw [zipWith_cons_cons, map_cons, ih tail htail, ← hname]

theorem inputs_of_enqueue {runId : String} {node : DagNode} {run : Run} {db after : Db}
    (hkind : node.kind = .node body)
    (henqueue : (enqueue host runId node run).alone db = some (.ok (), after))
    (hwritten : after.jobs.get? db.jobs.nextKey = some row) :
    row.runId = runId ∧
      ∃ context, NodeBody.resolveAll host context body.inputs = .ok row.inputs := by
  unfold enqueue at henqueue
  rw [hkind] at henqueue
  rw [Prog.alone_read_bind] at henqueue
  cases hspec : (refContext runId run db).bind (body.jobSpec host runId run node) with
  | error raised =>
    rw [hspec] at henqueue
    have hraised : some (Except.error raised, db) = some (.ok (), after) := henqueue
    cases hraised
  | ok spec =>
    obtain ⟨context, -, hmade⟩ := Except.bind_eq_ok_iff.mp hspec
    obtain ⟨hrunId, -, hresolved⟩ := jobSpec_ok hmade
    rw [hspec] at henqueue
    have hran : (Prog.attempt (enqueueNodeJob spec)).alone db = some (.ok (), after) := henqueue
    obtain ⟨made, hrow, hinsert⟩ := enqueueNodeJob_ok (Prog.ok_of_alone_attempt hran)
    rw [(Db.insertOrRaise_ok hinsert).2] at hwritten
    obtain rfl := Option.some.inj ((Table.get?_append_self db.jobs made).symm.trans hwritten)
    obtain ⟨contextLength, gpuSlots, rfl⟩ := NodeJobSpec.row_ok hrow
    exact ⟨hrunId, context, hresolved⟩

end

/-- The declared inputs arrive as they resolve now, none of them resolved twice, exactly if each
still reads as it was stored (or has lost its key) and holds no reference that reads otherwise. -/
theorem late_inputs_iff (host : Host) (env : ExecEnv) (runId : String) (node : DagNode)
    (body : NodeBody) (run : Run) (db after : Db) (row : NodeJob) (job : HeldJob) (state : ExecDb)
    (now : Context) (hkind : node.kind = .node body)
    (henqueue : (enqueue host runId node run).alone db = some (.ok (), after))
    (hwritten : after.jobs.get? db.jobs.nextKey = some row) (hcell : row.SameCell job.row)
    (hnow : contextNow runId state = .ok now) :
    DeliversLatest host now env job state (storedInputs body row) ↔
      ∀ input ∈ storedInputs body row, StillReads host now input.declared input.stored ∧
        (isInputModule job.row.nodeModule = true ∨
          StillReads host now input.stored input.stored) := by
  obtain ⟨hrunId, context, hresolved⟩ := inputs_of_enqueue hkind henqueue hwritten
  have hinputs : job.row.inputs =
      (storedInputs body row).map fun input => (input.name, input.stored) := by
    rw [hcell.inputs]
    exact (map_storedInputs (names_resolveAll hresolved)).symm
  rw [← hrunId, ← hcell.runId] at hnow
  unfold DeliversLatest
  simp only [alone_resolveInputsForJob, Option.some.injEq, Prod.mk.injEq, and_true]
  simp only [resolvedIn_eq_ok_iff hnow, hinputs, forall₂_map_left_iff]
  rw [exists_forall₂_and_iff]
  exact forall₂_congr fun input _ => latest_iff

def refHost : Host where
  loadWorkflow := fun name => .error (.keyError name)
  pipelineSchema := fun name => .error (.keyError name)
  resolveRef := fun value context => resolveRef {} context value

def readerBody : NodeBody where
  node := "reader"
  gpu := false
  model := none
  inputs := [("k", .dict [("$from", .str "a.k")])]
  avoidBox := []
  forceBox := []
  serverTypes := []
  requiredModels := []
  download := false
  dedupKey := none
  cpuSlots := none
  contextLength := none

def readerNode : DagNode where
  id := "b"
  dependsOn := ["a"]
  skipIf := .null
  kind := .node readerBody

def readerRun : Run := { workflowName := "w", status := .running }

def siblingDb (delta : Context) : Db where
  jobs := Table.ofRows
    [{ runId := "run", nodeId := "a", nodeModule := "m", queue := .cpu, project := "",
       status := .completed, contextDelta := delta, createdAt := 0 }]
  runs := OrdDict.empty.insert "run" readerRun

def readerRow (stored : Value) : NodeJob where
  runId := "run"
  nodeId := "b"
  nodeModule := "reader"
  queue := .cpu
  project := ""
  status := .queued
  inputs := [("k", stored)]
  createdAt := 0

/-- Nothing has changed, and the value is a text. -/
theorem late_inputs_iff_unchanged :
    DeliversLatest refHost [("a", .dict [("k", .str "v1")])] (bodyEnv fun _ => .ok .other)
      ⟨1, readerRow (.str "v1")⟩ ⟨siblingDb [("k", .str "v1")], fun _ => none⟩
      (storedInputs readerBody (readerRow (.str "v1"))) := by
  refine (late_inputs_iff refHost _ "run" readerNode readerBody readerRun
    (siblingDb [("k", .str "v1")]) _ _ _ _ _ rfl rfl rfl .rfl rfl).mpr ?_
  intro input hinput
  obtain rfl := mem_singleton.mp hinput
  exact ⟨Or.inl rfl, Or.inr (Or.inl (resolveRef_of_literal _ _ _ rfl))⟩

theorem not_deliversLatest {found : Value} (hnow : contextNow job.row.runId state = .ok now)
    (hstored : job.row.inputs = [(input.name, input.stored)])
    (hlate : lateValue host now job.row.nodeModule input.stored = .ok found)
    (hother : resolveOr host now input.declared input.stored ≠ .ok found) :
    ¬ DeliversLatest host now env job state [input] := by
  rintro ⟨values, halone, hlatest⟩
  rw [alone_resolveInputsForJob, Option.some.injEq, Prod.mk.injEq, resolvedIn_eq_ok_iff hnow,
    hstored] at halone
  obtain ⟨value, _, hvalue, -, rfl⟩ := forall₂_cons_left_iff.mp hlatest
  have hsame := Except.ok.inj (hlate.symm.trans (forall₂_cons.mp halone.1).1.2)
  exact hother (hsame ▸ hvalue.declared)

/-- The other node's delta changes after the reader was enqueued. And a delta that holds a reference
as data is resolved once more. -/
theorem late_inputs_stale_and_resolved_twice :
    let quoted : Value := .dict [("$from", .str "a.j")]
    let written delta :=
      ((enqueue refHost "run" readerNode readerRun).left (siblingDb delta)).jobs.get? 1
    (written [("k", .str "v1")] = some (readerRow (.str "v1")) ∧
      ¬ DeliversLatest refHost [("a", .dict [("k", .str "v2")])] (bodyEnv fun _ => .ok .other)
        ⟨1, readerRow (.str "v1")⟩ ⟨siblingDb [("k", .str "v2")], fun _ => none⟩
        (storedInputs readerBody (readerRow (.str "v1")))) ∧
    (written [("k", quoted), ("j", .str "w")] = some (readerRow quoted) ∧
      ¬ DeliversLatest refHost [("a", .dict [("k", quoted), ("j", .str "w")])]
        (bodyEnv fun _ => .ok .other) ⟨1, readerRow quoted⟩
        ⟨siblingDb [("k", quoted), ("j", .str "w")], fun _ => none⟩
        (storedInputs readerBody (readerRow quoted))) := by
  intro quoted written
  have hstale : resolveOr refHost [("a", .dict [("k", .str "v2")])]
      (.dict [("$from", .str "a.k")]) (.str "v1") = .ok (.str "v2") := rfl
  have hquoted : resolveOr refHost [("a", .dict [("k", quoted), ("j", .str "w")])]
      (.dict [("$from", .str "a.k")]) quoted = .ok quoted := rfl
  have htwice : lateValue refHost [("a", .dict [("k", quoted), ("j", .str "w")])] "reader" quoted =
      .ok (.str "w") := rfl
  refine ⟨⟨rfl, not_deliversLatest rfl rfl rfl fun hsame => ?_⟩, rfl,
    not_deliversLatest rfl rfl htwice fun hsame => ?_⟩
  · exact absurd (hstale.symm.trans hsame) (by simp)
  · exact absurd (hquoted.symm.trans hsame) (by simp [quoted])

end NodeExecutor

end BrokerParrot
