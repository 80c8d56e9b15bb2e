import BrokerParrot.Proof.Expansion
import BrokerParrot.Proof.RunStatus

/-!
# The rows of a run appear in order

Every statement of every call moves the rows of its run in order, whatever the other calls, the
workers, the sweeps and the host do between two of its statements. So from a run without rows only
states in order are reached, and by the shape of the expanded graph these are in order across whole
steps.
-/

namespace BrokerParrot

open Prog List

variable {t s : Db} {d : Dialect} {runId : String} {nodes : List DagNode}
  {source : String × Option String} {op : QueueOp} {host : Host} {workflow : Workflow}
  {rounds : ℕ} {action : Action} {held : HeldJob → Prop}

/-! ### Moves in order -/

structure OrderMove (runId : String) (nodes : List DagNode) (s t : Db) : Prop where
  dag : DagMove runId nodes s t
  source : (t.runs.get? runId).map Run.source = (s.runs.get? runId).map Run.source

def Sourced (runId : String) (source : String × Option String) (db : Db) : Prop :=
  (db.runs.get? runId).map Run.source = some source

theorem OrderMove.refl (s : Db) : OrderMove runId nodes s s := ⟨DagMove.refl s, rfl⟩

theorem stable_sourced : Stable (OrderMove runId nodes) (Sourced runId source) :=
  fun _ _ hmove hsourced => hmove.source.trans hsourced

theorem QueueOp.Orderly.orderMove (horderly : op.Orderly runId nodes s)
    (hruns : (op.step d s).runs.get? runId = s.runs.get? runId) :
    OrderMove runId nodes s (op.step d s) :=
  ⟨horderly.dagMove, congrArg (Option.map Run.source) hruns⟩

theorem QueueOp.Orderly.of_solid
    (hinserts : ∀ now row, op.insertedRow now = some row → row.runId ≠ runId)
    (hmarks : ∀ id status, op.marks = some (id, status) → s.Solid id) :
    op.Orderly runId nodes s := by
  constructor
  · intro now row hrow hrun
    exact absurd hrun (hinserts now row hrow)
  · rintro ⟨id, status, row, hsome, hget, hskipped⟩
    exact (hmarks id status hsome).2 row hget hskipped

theorem QueueOp.Orderly.of_neither (hinserts : ∀ now, op.insertedRow now = none)
    (hmarks : op.marks = none) : op.Orderly runId nodes s := by
  refine QueueOp.Orderly.of_solid ?_ ?_
  · intro now row hrow
    rw [hinserts now] at hrow
    cases hrow
  · intro id status hsome
    rw [hmarks] at hsome
    cases hsome

theorem orderMove_of_neither (op : QueueOp) (hinserts : ∀ now, op.insertedRow now = none)
    (hmarks : op.marks = none) (hruns : (op.step d s).runs = s.runs) :
    OrderMove runId nodes s (op.step d s) :=
  (QueueOp.Orderly.of_neither hinserts hmarks).orderMove (congrArg (·.get? runId) hruns)

theorem orderMove_updateRun {set : Run → Run} (hset : ∀ run, (set run).source = run.source) :
    OrderMove runId nodes s (s.updateRun runId set) :=
  ⟨DagMove.of_sameJobs rfl, source_updateRun s runId runId hset⟩

theorem orderMove_of_editsSpec (hedit : EditsSpec s t) : OrderMove runId nodes s t := by
  rcases hedit with rfl | ⟨target, node, spec, rfl⟩
  · exact OrderMove.refl _
  · exact orderMove_of_neither (d := .pg) (.setInputSpec target node spec) (fun _ => rfl) rfl rfl

theorem solid_of_get? {id : JobId} {row : NodeJob} (hget : s.jobs.get? id = some row)
    (hstatus : row.status ≠ .skipped) : s.Solid id := by
  refine ⟨Table.lt_nextKey hget, fun other hother => ?_⟩
  rw [hget] at hother
  exact Option.some.inj hother ▸ hstatus

/-! ### The calls -/

section

variable {node : String} {run : Run} {α : Type}

theorem expands_orderMove :
    Expands host d runId nodes (OrderMove runId nodes) (OrderMove runId nodes)
      (Sourced runId source) where
  rest := OrderMove.refl
  keeps := fun _ _ hmove => hmove.dag.keeps
  stable := stable_sourced
  inserts := fun s op node hsourced hnode hdeps hop => by
    have hruns : (op.step d s).runs = s.runs := by
      refine step_runs d s fun target row heq => ?_
      subst heq
      exact hop
    have hmove := (hop.orderly hnode hdeps).orderMove (d := d) (congrArg (·.get? runId) hruns)
    exact ⟨hmove, stable_sourced s _ hmove hsourced⟩

abbrev OrderSafe {α : Type} (runId : String) (nodes : List DagNode) (prog : DbProg α) (s : Db) :
    Prop :=
  prog.Safe (OrderMove runId nodes) (OrderMove runId nodes) (onReturn fun _ _ => True) s

theorem orderSafe_read_bind {α β : Type} {view : Db → α} {next : α → DbProg β}
    (hsourced : Sourced runId source s)
    (hnext : ∀ t, Sourced runId source t → OrderSafe runId nodes (next (view t)) t) :
    OrderSafe runId nodes (Prog.read view >>= next) s :=
  Safe.read_bind fun t hsteps =>
    ⟨OrderMove.refl t, hnext t (stable_sourced.steps hsteps hsourced)⟩

theorem Sourced.get? (hsourced : Sourced runId source s) : ∃ run, s.runs.get? runId = some run ∧
    run.source = source :=
  Option.map_eq_some_iff.mp hsourced

theorem safe_of_orderMoves {prog : DbProg α} (hmoves : prog.Moves (OrderMove runId nodes))
    (hsourced : Sourced runId source s) :
    prog.Safe (OrderMove runId nodes) (OrderMove runId nodes)
      (onReturn fun _ => Sourced runId source) s := by
  exact (Safe.of_moves hmoves (fun _ _ _ hmove => hmove) stable_sourced stable_sourced
    hsourced).mono_return fun _ _ hfact => hfact

theorem processReady_ordered (hnodes : nodesOf host workflow source.2 = .ok nodes)
    (hrun : run.source = source) (hsourced : Sourced runId source s) (newRows : ℕ) :
    (processReady host runId workflow run rounds newRows).Safe (OrderMove runId nodes)
      (OrderMove runId nodes) (onReturn fun _ => Sourced runId source) s := by
  subst hrun
  refine ((expands_orderMove (d := .pg)).processReady_safe hnodes hsourced rounds
    newRows).mono_return ?_
  rintro _ u ⟨t, ht, hsteps, -⟩
  exact stable_sourced.steps hsteps ht

theorem updateRun_ordered {set : Db → Run → Run} {value : α}
    (hset : ∀ db run, (set db run).source = run.source := by intros; rfl) :
    OrderSafe runId nodes
      (Prog.write (fun db => db.updateRun runId (set db)) >>= fun _ => pure value) s :=
  Safe.write_bind fun t _ => ⟨orderMove_updateRun (hset t), fun _ _ => trivial⟩

theorem onNodeFailed_ordered (hsourced : Sourced runId source s) :
    OrderSafe runId nodes (onNodeFailed host runId node) s := by
  refine orderSafe_read_bind hsourced fun t hread => ?_
  split
  · exact fun _ _ => trivial
  refine orderSafe_read_bind hread fun u hjobs => ?_
  split
  · exact (safe_of_orderMoves ((flagPatchError_moves _ _).mono fun _ _ => orderMove_of_editsSpec)
      hjobs).mono_return fun _ _ _ => trivial
  · refine Safe.write_bind fun v _ => ⟨?_, updateRun_ordered⟩
    exact orderMove_of_neither (d := .pg) (.cancelQueuedForRun runId) (fun _ => rfl) rfl rfl

variable (hload : host.loadWorkflow source.1 = .ok workflow)
  (hnodes : nodesOf host workflow source.2 = .ok nodes) (hsourced : Sourced runId source s)

include hload hnodes hsourced

theorem startRun_ordered :
    OrderSafe runId nodes (startRun host rounds runId) s := by
  refine orderSafe_read_bind hsourced fun t hread => ?_
  obtain ⟨run, hget, rfl⟩ := hread.get?
  rw [hget]
  refine Safe.ofExcept_bind fun loaded hloaded => ?_
  obtain rfl := Except.ok.inj (hload.symm.trans hloaded)
  split
  · exact updateRun_ordered
  · exact Safe.raise _
  · refine (processReady_ordered hnodes rfl hread 0).andThen fun newRows u _ => ?_
    refine updateRun_ordered fun db run => ?_
    split <;> rfl

theorem onNodeCompleted_ordered :
    OrderSafe runId nodes (onNodeCompleted host rounds runId node) s := by
  refine orderSafe_read_bind hsourced fun t hread => ?_
  obtain ⟨run, hget, rfl⟩ := hread.get?
  rw [hget]
  dsimp only
  split
  · exact fun _ _ => trivial
  refine orderSafe_read_bind hread fun u hjobs => ?_
  split
  · exact (safe_of_orderMoves ((finishPatchJob_moves _ _).mono fun _ _ => orderMove_of_editsSpec)
      hjobs).andThen fun _ _ _ => fun _ _ => trivial
  refine Safe.ofExcept_bind fun loaded hloaded => ?_
  obtain rfl := Except.ok.inj (hload.symm.trans hloaded)
  refine (processReady_ordered hnodes rfl hjobs 0).andThen fun newRows v _ => ?_
  refine Safe.read_bind fun w _ => ⟨OrderMove.refl w, ?_⟩
  refine Safe.ofExcept_bind fun found _ => ?_
  split
  · exact updateRun_ordered
  · exact fun _ _ => trivial

theorem reconcileRun_ordered :
    OrderSafe runId nodes (reconcileRun host rounds runId) s := by
  refine orderSafe_read_bind hsourced fun t hread => ?_
  obtain ⟨run, hget, rfl⟩ := hread.get?
  rw [hget]
  dsimp only
  split
  · exact fun _ _ => trivial
  refine orderSafe_read_bind hread fun u hjobs => ?_
  split
  · exact fun _ _ => trivial
  refine Safe.ofExcept_bind fun loaded hloaded => ?_
  obtain rfl := Except.ok.inj (hload.symm.trans hloaded)
  refine Safe.ofExcept_bind fun found _ => ?_
  split
  · exact updateRun_ordered
  refine (processReady_ordered hnodes rfl hjobs 0).andThen fun enqueued v hv => ?_
  split
  · exact updateRun_ordered
  refine Safe.exec_bind fun w hwait => ?_
  -- Nothing was ready and nothing is in progress: the dead rows go, the settled ones stay.
  have hmove : OrderMove runId nodes w (deleteNonTerminalJobsForRun runId w).1 :=
    orderMove_of_neither (d := .pg) (.deleteNonTerminalForRun runId) (fun _ => rfl) rfl rfl
  have hdropped := stable_sourced _ _ hmove (stable_sourced.steps hwait hv)
  refine ⟨hmove, ?_⟩
  split
  · refine (processReady_ordered hnodes rfl hdropped 0).andThen fun requeued x _ => ?_
    split
    · exact updateRun_ordered
    · exact updateRun_ordered
  · exact updateRun_ordered

theorem resumeAfterInput_ordered (value : Value) :
    OrderSafe runId nodes (resumeAfterInput host rounds runId node value) s := by
  refine orderSafe_read_bind hsourced fun t hread => ?_
  split
  · exact Safe.raise _
  rename_i id job hjob
  split
  · exact fun _ _ => trivial
  rename_i hstatus
  refine Safe.ofExcept_bind fun delta _ => ?_
  refine Safe.exec_bind fun u hmore => ?_
  -- The row was queued or parked when it was read, and such a key never shows a skipped row.
  have hsolid : u.Solid id := by
    have hstable : Stable (OrderMove runId nodes) fun db => db.Solid id :=
      fun _ _ hmove => hmove.dag.solid id
    have hrow := (JobMap.get?_eq_some hjob).1
    refine hstable.steps hmore (solid_of_get? hrow fun hskipped => hstatus ?_)
    rw [hskipped]
    decide
  have hmove : OrderMove runId nodes u (markCompletedInTxn id delta 0 none u).1 := by
    have horderly : (QueueOp.markCompleted id delta 0 none).Orderly runId nodes u := by
      refine QueueOp.Orderly.of_solid (by simp [QueueOp.insertedRow]) ?_
      intro other status hmarks
      cases hmarks
      exact hsolid
    exact horderly.orderMove (d := .pg) (congrArg (·.get? runId) (u.transition_jobsOnly id _).runs)
  exact ⟨hmove, onNodeCompleted_ordered hload hnodes
    (stable_sourced _ _ hmove (stable_sourced.steps hmore hread))⟩

theorem call_ordered {call : Call} (hrun : call.runId = runId) :
    OrderSafe runId nodes (call.prog host rounds) s := by
  subst hrun
  cases call with
  | startRun => exact (startRun_ordered hload hnodes hsourced).map fun _ _ _ => trivial
  | onNodeCompleted =>
    exact (onNodeCompleted_ordered hload hnodes hsourced).map fun _ _ _ => trivial
  | onNodeFailed => exact (onNodeFailed_ordered hsourced).map fun _ _ _ => trivial
  | reconcileRun => exact (reconcileRun_ordered hload hnodes hsourced).map fun _ _ _ => trivial
  | resumeAfterInput _ _ value =>
    exact (resumeAfterInput_ordered hload hnodes hsourced value).map fun _ _ _ => trivial

end

/-! ### Histories -/

def World.Held (host : Host) (d : Dialect) (world : World) (history : List Action) (job : HeldJob) :
    Prop :=
  ∃ earlier, earlier <+: history ∧
    (world.run host d earlier).shared.jobs.get? job.id = some job.row ∧ job.row.status = .running

/-- Only the calls insert rows of the run, only a held row is finished or parked, and the run itself
is not replaced. -/
def Action.Ordinary (runId : String) (held : HeldJob → Prop) : Action → Prop
  | .call made _ => made.runId = runId
  | .queue op => (∀ now row, op.insertedRow now = some row → row.runId ≠ runId) ∧
      (∀ id status, op.marks = some (id, status) → ∃ job, held job ∧ job.id = id) ∧
      ∀ run, op ≠ .writeRun runId run
  | _ => True

structure InOrder (runId : String) (nodes : List DagNode) (source : String × Option String)
    (world : World) : Prop where
  safe : world.Safe (OrderMove runId nodes) (OrderMove runId nodes)
    fun _ => Prog.onReturn fun _ _ => True
  sourced : Sourced runId source world.shared
  unique : world.shared.CellsUnique
  ordered : world.shared.Ordered runId nodes

section

variable {world : World} {history : List Action}

theorem DagMove.ordered (hmove : DagMove runId nodes s t) (hordered : s.Ordered runId nodes) :
    t.Ordered runId nodes := by
  intro id htaken
  have hdeps : ∀ node, DepsSettled runId s node → DepsSettled runId t node :=
    fun _ hdeps dep hdep => hmove.keeps dep (hdeps dep hdep)
  rcases hmove.born id htaken with hold | ⟨node, hmem, hid, hready⟩
  · obtain ⟨node, hmem, hid, hready⟩ := hordered id hold
    exact ⟨node, hmem, hid, hdeps node hready⟩
  · exact ⟨node, hmem, hid, hdeps node hready⟩

theorem InOrder.of_move {after : World} (hinorder : InOrder runId nodes source world)
    (hsafe : after.Safe (OrderMove runId nodes) (OrderMove runId nodes)
      fun _ => onReturn fun _ _ => True)
    (hmove : OrderMove runId nodes world.shared after.shared) :
    InOrder runId nodes source after where
  safe := hsafe
  sourced := stable_sourced _ _ hmove hinorder.sourced
  unique := hmove.dag.unique hinorder.unique
  ordered := hmove.dag.ordered hinorder.ordered

theorem step_runs_of_other (d : Dialect) (db : Db) (hop : ∀ run, op ≠ .writeRun runId run) :
    (op.step d db).runs.get? runId = db.runs.get? runId := by
  by_cases hwrite : ∃ target run, op = .writeRun target run
  · obtain ⟨target, run, rfl⟩ := hwrite
    refine OrdDict.get?_insert_of_ne _ _ fun heq => ?_
    subst heq
    exact hop run rfl
  · exact congrArg (·.get? runId)
      (step_runs d db fun target run heq => hwrite ⟨target, run, heq⟩)

theorem InOrder.act (hload : host.loadWorkflow source.1 = .ok workflow)
    (hnodes : nodesOf host workflow source.2 = .ok nodes)
    (hinorder : InOrder runId nodes source world)
    (hordinary : action.Ordinary runId fun job => world.shared.Solid job.id) :
    OrderMove runId nodes world.shared (world.act host d action).shared ∧
      (world.act host d action).Safe (OrderMove runId nodes) (OrderMove runId nodes)
        fun _ => onReturn fun _ _ => True := by
  cases action with
  | call =>
    exact ⟨OrderMove.refl _,
      hinorder.safe.spawn (call_ordered hload hnodes hinorder.sourced hordinary)⟩
  | advance index =>
    refine ⟨?_, hinorder.safe.advance index fun hmove => hmove⟩
    rcases hinorder.safe.advance_shared index with hmove | hsame
    · exact hmove
    · change OrderMove runId nodes _ (world.step (.advance index)).shared
      rw [hsame]
      exact OrderMove.refl _
  | queue op =>
    obtain ⟨hinserts, hmarks, hwrites⟩ := hordinary
    have horderly : op.Orderly runId nodes world.shared := by
      refine QueueOp.Orderly.of_solid hinserts fun id status hsome => ?_
      obtain ⟨job, hsolid, rfl⟩ := hmarks id status hsome
      exact hsolid
    have hmove := horderly.orderMove (step_runs_of_other d world.shared hwrites)
    exact ⟨hmove, hinorder.safe.outside hmove⟩
  | setRunStatus target status =>
    have hmove : OrderMove runId nodes world.shared
        (world.shared.updateRun target fun run => { run with status := status }) :=
      ⟨DagMove.of_sameJobs rfl, source_updateRun world.shared runId target fun _ => rfl⟩
    exact ⟨hmove, hinorder.safe.outside hmove⟩

theorem Action.Ordinary.mono {solid : HeldJob → Prop} (hordinary : action.Ordinary runId held)
    (hle : ∀ job, held job → solid job) : action.Ordinary runId solid := by
  cases action with
  | queue =>
    obtain ⟨hinserts, hmarks, hwrites⟩ := hordinary
    refine ⟨hinserts, fun id status hsome => ?_, hwrites⟩
    obtain ⟨job, hheld, hid⟩ := hmarks id status hsome
    exact ⟨job, hle job hheld, hid⟩
  | _ => exact hordinary

theorem World.Held.concat {rest : List Action} {fact : HeldJob → Prop}
    (hold : ∀ job, world.Held host d rest job → fact job)
    (hnew : ∀ job : HeldJob, job.row.status = .running →
      (world.run host d (rest ++ [action])).shared.jobs.get? job.id = some job.row → fact job) :
    ∀ job, world.Held host d (rest ++ [action]) job → fact job := by
  rintro job ⟨earlier, hearlier, hget, hrunning⟩
  rcases prefix_concat_iff.mp hearlier with rfl | hbefore
  · exact hnew job hrunning hget
  · exact hold job ⟨earlier, hbefore, hget, hrunning⟩

theorem InOrder.run (hload : host.loadWorkflow source.1 = .ok workflow)
    (hnodes : nodesOf host workflow source.2 = .ok nodes)
    (hstart : InOrder runId nodes source world)
    (hordinary : ∀ before action, before ++ [action] <+: history →
      action.Ordinary runId (world.Held host d before)) :
    InOrder runId nodes source (world.run host d history) ∧
      ∀ job, world.Held host d history job → (world.run host d history).shared.Solid job.id := by
  induction history using List.reverseRecOn with
  | nil =>
    refine ⟨hstart, ?_⟩
    rintro job ⟨earlier, hearlier, hget, hrunning⟩
    obtain rfl := prefix_nil.mp hearlier
    exact solid_of_get? hget (by rw [hrunning]; decide)
  | append_singleton rest action ih =>
    obtain ⟨hinorder, hheld⟩ := ih fun before other hinit =>
      hordinary before other (hinit.trans (prefix_append rest [action]))
    have hthis := (hordinary rest action (prefix_refl _)).mono hheld
    obtain ⟨hmove, hsafe⟩ := hinorder.act (d := d) hload hnodes hthis
    have hnext : world.run host d (rest ++ [action]) =
        (world.run host d rest).act host d action := World.run_append host d world rest [action]
    rw [hnext]
    refine ⟨hinorder.of_move hsafe hmove, World.Held.concat ?_ ?_⟩
    · exact fun job hjob => hmove.dag.solid job.id (hheld job hjob)
    · intro job hrunning hget
      exact solid_of_get? (hnext ▸ hget) (by rw [hrunning]; decide)

end

/-- **The rows of a run appear in order.** When a node of a step has a row, the nodes of the steps
it depends on and its own schema dependencies are completed or skipped; and no two rows share a
cell. -/
theorem rows_in_step_order (host : Host) (d : Dialect) (runId : String) (db : Db) (run : Run)
    (workflow : Workflow) (nodes : List DagNode) (history : List Action)
    (hrun : db.runs.get? runId = some run)
    (hload : host.loadWorkflow run.workflowName = .ok workflow)
    (hnodes : nodesOf host workflow run.outDir = .ok nodes) (hwell : workflow.WellFormed host nodes)
    (hfresh : ∀ id, ¬ db.NodeTaken runId id) (hunique : db.CellsUnique)
    (hordinary : ∀ before action, before ++ [action] <+: history →
      action.Ordinary runId (World.Held host d ⟨db, []⟩ before)) :
    let after := (World.run host d ⟨db, []⟩ history).shared
    (∀ step ∈ workflow.steps, ∀ id ∈ step.nodeIds host, after.NodeTaken runId id →
      ∀ other ∈ workflow.steps, other.id ∈ step.dependsOn →
        ∀ need ∈ other.nodeIds host, after.NodeSettled runId need) ∧
    (∀ step ∈ workflow.steps, ∀ inner ∈ step.schemaNodes host,
      after.NodeTaken runId (nodeId step.id inner.id) →
        ∀ dep ∈ inner.dependsOn, after.NodeSettled runId (nodeId step.id dep)) ∧
    after.CellsUnique := by
  have hstart : InOrder runId nodes run.source ⟨db, []⟩ := by
    refine ⟨fun thread hmem => absurd hmem (by simp), ?_, hunique, ?_⟩
    · change (db.runs.get? runId).map Run.source = some run.source
      rw [hrun, Option.map_some]
    · intro id htaken
      exact absurd htaken (hfresh id)
  have hinorder := (hstart.run (d := d) hload hnodes hordinary).1
  obtain ⟨leaves, -, hexpand⟩ := Except.bind_eq_ok_iff.mp hnodes
  refine ⟨?_, ?_, hinorder.unique⟩
  · intro step hstep id hid htaken other hother hdep
    exact hinorder.ordered.steps hnodes hwell hstep hid htaken hother hdep
  · intro step hstep inner hinner htaken
    exact schemaDeps_settled hwell hexpand hinorder.ordered hstep hinner htaken

def freshDb : Db where
  runs := OrdDict.empty.insert "run" { workflowName := "w", status := .queued }

theorem freshDb_untaken (id : String) : ¬ freshDb.NodeTaken "run" id := by
  simp [Db.NodeTaken, freshDb, Table.empty, Table.entries, OrdDict.empty]

theorem cellsUnique_freshDb : freshDb.CellsUnique := by
  intro id other row twin hget
  cases hget

def chainWorkflow : Workflow where
  steps :=
    [{ id := "S", kind := .pipeline "p" [] },
      { id := "T", kind := .input none none, dependsOn := ["S"] }]

def chainHost : Host where
  loadWorkflow := fun _ => .ok chainWorkflow
  pipelineSchema := fun _ => .ok
    ⟨[{ id := "a", skipIf := .bool true }, { id := "b", dependsOn := ["a"], skipIf := .bool true }]⟩
  resolveRef := fun value _ => .ok value

theorem chain_needs {step : Step} {x y : String} (hneeds : step.Needs chainHost x y) :
    x = "b" ∧ y = "a" := by
  obtain ⟨node, hmem, rfl, hdep⟩ := hneeds
  unfold Step.schemaNodes at hmem
  split at hmem
  · simp only [chainHost, mem_cons, not_mem_nil, or_false] at hmem
    rcases hmem with rfl | rfl <;> simp_all
  · cases hmem

theorem chain_wellFormed (hnodes : nodes.map DagNode.id = ["S/a", "S/b", "T"]) :
    chainWorkflow.WellFormed chainHost nodes where
  distinctSteps := by decide
  distinctNodes := by
    rw [hnodes]
    decide
  acyclic := by
    intro step _ x hcycle
    obtain ⟨_, hfirst, -⟩ := Relation.TransGen.head'_iff.mp hcycle
    obtain ⟨_, -, hlast⟩ := Relation.TransGen.tail'_iff.mp hcycle
    rw [(chain_needs hfirst).1] at hlast
    exact absurd (chain_needs hlast).2 (by decide)
  ownDeps := by
    intro step hstep x y hneeds _
    obtain ⟨rfl, rfl⟩ := chain_needs hneeds
    obtain ⟨node, hmem, -⟩ := hneeds
    simp only [chainWorkflow, mem_cons, not_mem_nil, or_false] at hstep
    rcases hstep with rfl | rfl
    · decide
    · cases hmem

def startAlone (rounds statements : ℕ) : List Action :=
  .call (.startRun "run") rounds :: List.replicate statements (.advance 0)

theorem ordinary_of_mem_startAlone {statements : ℕ} (hmem : action ∈ startAlone rounds statements) :
    action.Ordinary "run" held := by
  rcases mem_cons.mp hmem with rfl | hadvance
  · rfl
  · rw [eq_of_mem_replicate hadvance]
    trivial

/-- `start_run` goes through the whole workflow. -/
theorem rows_in_step_order_chain :
    let after := (World.run chainHost .pg ⟨freshDb, []⟩ (startAlone 3 7)).shared
    after.NodeTaken "run" "T" ∧ after.NodeSettled "run" "S/a" := by
  intro after
  have htaken : after.NodeTaken "run" "T" := by decide +kernel
  refine ⟨htaken, ?_⟩
  refine (rows_in_step_order chainHost .pg "run" freshDb _ chainWorkflow _ (startAlone 3 7) rfl rfl
    rfl (chain_wellFormed rfl) freshDb_untaken cellsUnique_freshDb ?_).1
    { id := "T", kind := .input none none, dependsOn := ["S"] } (by simp [chainWorkflow]) "T"
    (by decide +kernel) htaken { id := "S", kind := .pipeline "p" [] } (by simp [chainWorkflow])
    (by simp) "S/a" (by decide +kernel)
  intro before action hinit
  exact ordinary_of_mem_startAlone (hinit.subset (by simp))

def twinWorkflow : Workflow where
  steps :=
    [{ id := "S", kind := .pipeline "first" [] },
      { id := "S", kind := .pipeline "second" [], skipIf := .bool true },
      { id := "T", kind := .input none none, dependsOn := ["S"] }]

def twinHost : Host where
  loadWorkflow := fun _ => .ok twinWorkflow
  pipelineSchema := fun name => .ok ⟨[{ id := name }]⟩
  resolveRef := fun value _ => .ok value

/-- The node of step `S` depends on a node that its schema does not have, and the id of an input
step is the one that this dependency expands to. -/
def aliasWorkflow : Workflow where
  steps :=
    [{ id := "R", kind := .input none none },
      { id := "S", kind := .pipeline "p" [], dependsOn := ["R"] },
      { id := "S/y", kind := .input none none, skipIf := .bool true }]

def aliasHost : Host where
  loadWorkflow := fun _ => .ok aliasWorkflow
  pipelineSchema := fun _ => .ok ⟨[{ id := "a", dependsOn := ["y"] }]⟩
  resolveRef := fun value _ => .ok value

/-- The leaves of the second step overwrite those of the first, and `T` does not wait for it. And a
node that depends on one of another step does not wait for the steps of its own. -/
theorem steps_not_awaited :
    let twin := (World.run twinHost .pg ⟨freshDb, []⟩ (startAlone 2 7)).shared
    let aliased := (World.run aliasHost .pg ⟨freshDb, []⟩ (startAlone 2 7)).shared
    (nodesOf twinHost twinWorkflow none).map (List.map DagNode.id) =
        .ok ["S/first", "S/second", "T"] ∧
      twin.NodeTaken "run" "T" ∧
      (∃ step ∈ twinWorkflow.steps, step.id = "S" ∧ step.nodeIds twinHost = ["S/first"] ∧
        ¬ twin.NodeSettled "run" "S/first") ∧
    (nodesOf aliasHost aliasWorkflow none).map (List.map DagNode.id) = .ok ["R", "S/a", "S/y"] ∧
      aliased.NodeTaken "run" "S/a" ∧
      (∃ step ∈ aliasWorkflow.steps, step.id = "R" ∧ step.nodeIds aliasHost = ["R"] ∧
        ¬ aliased.NodeSettled "run" "R") := by
  intro twin aliased
  refine ⟨rfl, by decide +kernel, ?_, rfl, by decide +kernel, ?_⟩
  · exact ⟨{ id := "S", kind := .pipeline "first" [] }, by simp [twinWorkflow], rfl, rfl,
      by decide +kernel⟩
  · exact ⟨{ id := "R", kind := .input none none }, by simp [aliasWorkflow], rfl, rfl,
      by decide +kernel⟩

end BrokerParrot
