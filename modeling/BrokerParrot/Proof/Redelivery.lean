import BrokerParrot.Proof.FanOut
import BrokerParrot.Proof.SoloExpansion

/-!
# Redelivered events

The outbox delivers an event at least once. A handler does not remember that it ran: it looks at the
run as it stands. So a second delivery changes nothing only if the run leaves the handler nothing to
do. That is so once every completion of the run has been handled and the run was not set going
again; it is not so while another node is completed and its own event still waits.

A delivery runs with nobody else about. Timestamps are left out of what is compared.
-/

namespace BrokerParrot

open Prog OrdDict List

variable {runId node : String} {db after s t : Db} {host : Host} {run : Run} {workflow : Workflow}
  {nodes : List DagNode} {source : String × Option String} {call : Call}

namespace Call

def deliver (host : Host) (call : Call) (db : Db) (delivery : ℕ × ℚ) : Db :=
  (call.prog host delivery.1).left (db.atTime delivery.2)

def redeliver (host : Host) (call : Call) (db : Db) (deliveries : List (ℕ × ℚ)) : Db :=
  deliveries.foldl (call.deliver host) db

end Call

def timelessSpec : Option Value → Option Value
  | some (.dict spec) => some (.dict (spec.filter fun entry => entry.1 ≠ "patched_at"))
  | spec => spec

def NodeJob.timeless (row : NodeJob) : NodeJob :=
  { row with
    inputSpec := timelessSpec row.inputSpec
    createdAt := 0
    startedAt := none
    finishedAt := none }

structure Unchanged (runId : String) (db after : Db) : Prop where
  rows : ∀ id, (after.jobs.get? id).map NodeJob.timeless = (db.jobs.get? id).map NodeJob.timeless
  run : (after.runs.get? runId).map (fun run => (run.status, run.error)) =
    (db.runs.get? runId).map fun run => (run.status, run.error)

theorem Unchanged.refl (db : Db) : Unchanged runId db db := ⟨fun _ => rfl, rfl⟩

theorem Unchanged.trans {last : Db} (hfirst : Unchanged runId db after)
    (hsecond : Unchanged runId after last) : Unchanged runId db last :=
  ⟨fun id => (hsecond.rows id).trans (hfirst.rows id), hsecond.run.trans hfirst.run⟩

/-- The rounds of an expansion and the time of a delivery do not matter. -/
theorem unchanged_redeliver (quiet : Db → Prop)
    (hat : ∀ db now, quiet db → quiet (db.atTime now))
    (hstep : ∀ db rounds, quiet db →
      Unchanged runId db ((call.prog host rounds).left db) ∧
        quiet ((call.prog host rounds).left db))
    (hquiet : quiet db) (deliveries : List (ℕ × ℚ)) :
    Unchanged runId db (call.redeliver host db deliveries) := by
  induction deliveries generalizing db with
  | nil => exact Unchanged.refl db
  | cons delivery rest ih =>
    obtain ⟨hunchanged, hagain⟩ := hstep _ delivery.1 (hat db delivery.2 hquiet)
    exact Unchanged.trans ⟨hunchanged.rows, hunchanged.run⟩ (ih hagain)

/-! ### Ended runs -/

def RunEnded (runId : String) (db : Db) : Prop :=
  ∃ run, db.runs.get? runId = some run ∧ (run.status = .cancelled ∨ run.status = .failed)

theorem runEnded_of_not_alive (hended : ¬ db.Alive runId) : RunEnded runId db := by
  unfold Db.Alive Db.runStatus? at hended
  cases hrun : db.runs.get? runId with
  | none => simp [hrun] at hended
  | some run =>
    rw [hrun, Option.map_some] at hended
    refine ⟨run, hrun, ?_⟩
    simpa [or_iff_not_imp_left] using hended

theorem left_completed_of_ended (rounds : ℕ) (hended : RunEnded runId db) :
    (onNodeCompleted host rounds runId node).left db = db := by
  obtain ⟨run, hrun, hstatus⟩ := hended
  unfold onNodeCompleted getRun
  rw [left_read_bind, hrun]
  dsimp only
  rw [if_pos hstatus]
  rfl

theorem left_failed_of_ended (hended : RunEnded runId db) :
    (onNodeFailed host runId node).left db = db := by
  obtain ⟨run, hrun, hstatus⟩ := hended
  unfold onNodeFailed getRun
  rw [left_read_bind, hrun, Option.any_some, if_pos (decide_eq_true hstatus)]
  rfl

theorem left_of_ended (rounds : ℕ) (hended : RunEnded runId db)
    (hcall : call = .onNodeCompleted runId node ∨ call = .onNodeFailed runId node) :
    (call.prog host rounds).left db = db := by
  rcases hcall with rfl | rfl
  · exact (left_bind_pure _ _ _).trans (left_completed_of_ended rounds hended)
  · exact (left_bind_pure _ _ _).trans (left_failed_of_ended hended)

theorem unchanged_of_ended (hended : ¬ db.Alive runId)
    (hcall : call = .onNodeCompleted runId node ∨ call = .onNodeFailed runId node)
    (deliveries : List (ℕ × ℚ)) : Unchanged runId db (call.redeliver host db deliveries) := by
  refine unchanged_redeliver (fun db => ¬ db.Alive runId) (fun _ _ => id) ?_ hended deliveries
  intro db rounds hended
  rw [left_of_ended rounds (runEnded_of_not_alive hended) hcall]
  exact ⟨Unchanged.refl db, hended⟩

/-! ### Nodes of the graph -/

def PlainNode (runId node : String) (db : Db) : Prop :=
  patchMeta (JobMap.get? (db.listJobsForRun runId) node) = none

/-- Nothing is ready, and the run is completed if it is due. -/
structure AtRest (runId : String) (nodes : List DagNode) (source : String × Option String)
    (db : Db) : Prop where
  sourced : Sourced runId source db
  closed : db.Closed runId nodes
  finished : db.Finished runId nodes

theorem AtRest.none_ready (hrest : AtRest runId nodes source db) :
    findReadyNodes (db.listJobsForRun runId) nodes = [] := by
  refine filter_eq_nil_iff.mpr fun node hmem hready => ?_
  obtain ⟨hfree, hdeps⟩ := of_decide_eq_true hready
  refine JobMap.get?_eq_none.mp (Option.isNone_iff_eq_none.mp hfree) (hrest.closed node hmem ?_)
  exact fun dep hdep => nodeSettled_of_settled (all_eq_true.mp hdeps dep hdep)

theorem AtRest.completed (hrest : AtRest runId nodes source db)
    (hall : allSettled (db.listJobsForRun runId) nodes = true) :
    db.runStatus? runId = some .completed := by
  obtain ⟨hne, hsettled⟩ := of_decide_eq_true hall
  exact hrest.finished hne fun node hmem =>
    nodeSettled_of_settled (all_eq_true.mp hsettled node hmem)

theorem unchanged_finishRun (hcompleted : db.runStatus? runId = some .completed) :
    Unchanged runId db (db.finishRun runId .completed none) := by
  obtain ⟨run, hrun, hstatus⟩ := Option.map_eq_some_iff.mp hcompleted
  refine ⟨fun _ => rfl, ?_⟩
  change ((db.runs.modify runId _).get? runId).map _ = _
  rw [get?_modify_self, hrun, Option.map_some, Option.map_some, Option.map_some, hstatus]
  rfl

theorem atRest_finishRun (hsourced : Sourced runId source db) (hclosed : db.Closed runId nodes) :
    AtRest runId nodes source (db.finishRun runId .completed none) := by
  refine ⟨(source_updateRun db runId runId ?_).trans hsourced, hclosed, fun _ _ => ?_⟩
  · exact fun _ => rfl
  · obtain ⟨run, hrun, -⟩ := hsourced.get?
    unfold Db.finishRun
    rw [runStatus?_updateRun, hrun, Option.map_some]

theorem AtRest.left_completed (hload : host.loadWorkflow source.1 = .ok workflow)
    (hnodes : nodesOf host workflow source.2 = .ok nodes)
    (hrest : AtRest runId nodes source db) (hplain : PlainNode runId node db) (rounds : ℕ) :
    (onNodeCompleted host rounds runId node).left db = db ∨
      allSettled (db.listJobsForRun runId) nodes = true ∧
        (onNodeCompleted host rounds runId node).left db = db.finishRun runId .completed none := by
  obtain ⟨run, hrun, rfl⟩ := hrest.sourced.get?
  unfold onNodeCompleted getRun jobsByNodeId
  rw [left_read_bind, hrun]
  dsimp only
  split
  · exact Or.inl rfl
  rw [left_read_bind]
  split
  · rename_i hpatch
    rw [hplain] at hpatch
    cases hpatch
  change Prog.left (Prog.ofExcept (host.loadWorkflow run.source.1) >>= _) db = _ ∨
    _ ∧ Prog.left (Prog.ofExcept (host.loadWorkflow run.source.1) >>= _) db = _
  rw [hload]
  cases rounds with
  | zero => exact Or.inl rfl
  | succ rounds =>
    change Prog.left (processReady host runId workflow run (rounds + 1) 0 >>= _) db = _ ∨
      _ ∧ Prog.left (processReady host runId workflow run (rounds + 1) 0 >>= _) db = _
    rw [left_bind_of_ok (alone_processReady_of_none hnodes hrest.none_ready rounds 0),
      left_read_bind]
    change Prog.left (Prog.ofExcept (nodesOf host workflow run.source.2) >>= _) db = _ ∨
      _ ∧ Prog.left (Prog.ofExcept (nodesOf host workflow run.source.2) >>= _) db = _
    rw [hnodes]
    by_cases hall : allSettled (db.listJobsForRun runId) nodes = true
    · refine Or.inr ⟨hall, ?_⟩
      change Prog.left (if allSettled (db.listJobsForRun runId) nodes = true then _ else _) db = _
      rw [if_pos hall]
      rfl
    · left
      change Prog.left (if allSettled (db.listJobsForRun runId) nodes = true then _ else _) db = _
      rw [if_neg hall]
      rfl

theorem AtRest.unchanged (hload : host.loadWorkflow source.1 = .ok workflow)
    (hnodes : nodesOf host workflow source.2 = .ok nodes)
    (hrest : AtRest runId nodes source db) (hplain : PlainNode runId node db)
    (deliveries : List (ℕ × ℚ)) :
    Unchanged runId db ((Call.onNodeCompleted runId node).redeliver host db deliveries) := by
  let quiet (db : Db) : Prop := AtRest runId nodes source db ∧ PlainNode runId node db
  have hat (db : Db) (now : ℚ) (hquiet : quiet db) : quiet (db.atTime now) :=
    ⟨⟨hquiet.1.sourced, hquiet.1.closed, hquiet.1.finished⟩, hquiet.2⟩
  refine unchanged_redeliver quiet hat ?_ ⟨hrest, hplain⟩ deliveries
  rintro db rounds ⟨hrest, hplain⟩
  have hprog : ((Call.onNodeCompleted runId node).prog host rounds).left db =
      (onNodeCompleted host rounds runId node).left db := left_bind_pure _ _ _
  rw [hprog]
  rcases hrest.left_completed hload hnodes hplain rounds with hsame | ⟨hall, hfinish⟩
  · rw [hsame]
    exact ⟨Unchanged.refl db, hrest, hplain⟩
  · rw [hfinish]
    exact ⟨unchanged_finishRun (hrest.completed hall),
      atRest_finishRun hrest.sourced hrest.closed, hplain⟩

/-! ### Handled events -/

theorem eq_of_steps (hsteps : Relation.ReflTransGen Eq s t) : t = s := by
  induction hsteps with
  | refl => rfl
  | tail _ hlast ih => exact hlast ▸ ih

theorem expands_alone :
    Expands host .pg runId nodes Eq (fun _ _ => True)
      (fun db => Sourced runId source db ∧ db.CellsUnique) where
  rest := fun _ => trivial
  keeps := by
    rintro s _ rfl node hsettled
    exact hsettled
  stable := by
    rintro s _ rfl hinv
    exact hinv
  inserts := by
    rintro s op node ⟨hsourced, hunique⟩ hmem hdeps hop
    obtain ⟨hmove, hafter⟩ := expands_orderMove.inserts s op node hsourced hmem hdeps hop
    exact ⟨trivial, hafter, hmove.dag.unique hunique⟩

/-- The handler of a completion, run alone, comes to rest wherever it begins. -/
theorem onNodeCompleted_rests (hload : host.loadWorkflow source.1 = .ok workflow)
    (hnodes : nodesOf host workflow source.2 = .ok nodes) (hsourced : Sourced runId source s)
    (hunique : s.CellsUnique) (halive : s.Alive runId) (hplain : PlainNode runId node s)
    (rounds : ℕ) :
    (onNodeCompleted host rounds runId node).Safe Eq (fun _ _ => True)
      (onReturn fun _ => AtRest runId nodes source) s := by
  refine Safe.read_bind fun _ hsteps => ⟨trivial, ?_⟩
  obtain rfl := eq_of_steps hsteps
  obtain ⟨run, hget, rfl⟩ := hsourced.get?
  rw [hget]
  dsimp only
  rw [if_neg (halive.unended hget)]
  refine Safe.read_bind fun _ hsteps => ⟨trivial, ?_⟩
  obtain rfl := eq_of_steps hsteps
  split
  · rename_i hpatch
    rw [hplain] at hpatch
    cases hpatch
  refine Safe.ofExcept_bind fun loaded hloaded => ?_
  obtain rfl := Except.ok.inj (hload.symm.trans hloaded)
  refine (expands_alone.processReady_safe hnodes ⟨hsourced, hunique⟩ rounds 0).andThen ?_
  rintro newRows u ⟨_, ⟨hsourced, hunique⟩, hsteps, hnone⟩
  obtain rfl := eq_of_steps hsteps
  have hclosed := closed_of_none_ready hunique hnone
  refine Safe.read_bind fun _ hsteps => ⟨trivial, ?_⟩
  obtain rfl := eq_of_steps hsteps
  refine Safe.ofExcept_bind fun found hfound => ?_
  obtain rfl := Except.ok.inj (hnodes.symm.trans hfound)
  split
  · refine Safe.write_bind fun _ hsteps => ⟨trivial, fun _ hsteps' => ?_⟩
    obtain rfl := eq_of_steps hsteps
    obtain rfl := eq_of_steps hsteps'
    exact atRest_finishRun hsourced hclosed
  · rename_i hopen
    intro _ hsteps
    obtain rfl := eq_of_steps hsteps
    refine ⟨hsourced, hclosed, fun hne hall => absurd ?_ hopen⟩
    exact allSettled_of_nodeSettled hunique hne hall

/-- Since `handled` no other node was completed or skipped and no row dropped, and the run was not
set going again. -/
structure NothingSince (runId : String) (nodes : List DagNode) (handled later : Db) : Prop where
  settled : ∀ id, later.NodeSettled runId id → handled.NodeSettled runId id
  rows : ∀ node ∈ nodes, handled.NodeTaken runId node.id → later.NodeTaken runId node.id
  source : (later.runs.get? runId).map Run.source = (handled.runs.get? runId).map Run.source
  completed : handled.runStatus? runId = some .completed → later.runStatus? runId = some .completed

theorem AtRest.later {handled later : Db} (hrest : AtRest runId nodes source handled)
    (hsince : NothingSince runId nodes handled later) : AtRest runId nodes source later where
  sourced := hsince.source.trans hrest.sourced
  closed := fun node hmem hdeps => hsince.rows node hmem
    (hrest.closed node hmem fun dep hdep => hsince.settled dep (hdeps dep hdep))
  finished := fun hne hall => hsince.completed
    (hrest.finished hne fun node hmem => hsince.settled node.id (hall node hmem))

/-- The handler of a failure ends the run. -/
theorem not_alive_of_failed {handled : Db} {rounds : ℕ} {value : CallResult}
    (hrun : db.runs.get? runId = some run) (hplain : PlainNode runId node db)
    (halone : ((Call.onNodeFailed runId node).prog host rounds).alone db =
      some (.ok value, handled)) : ¬ handled.Alive runId := by
  have hleft : (onNodeFailed host runId node).left db = handled :=
    (left_bind_pure _ _ _).symm.trans (left_of_alone halone)
  by_cases halive : db.Alive runId
  · have hsourced : Sourced runId run.source (cancelSiblingsAfterFailure runId db) :=
      congrArg (Option.map Run.source) hrun
    rw [← hleft]
    unfold onNodeFailed getRun jobsByNodeId
    rw [left_read_bind, hrun, Option.any_some, if_neg (by simpa using halive.unended hrun),
      left_read_bind, hplain]
    -- The second discriminant decides, but only once the first is a constructor.
    cases JobMap.get? (db.listJobsForRun runId) node with
    | none | some => exact not_alive_finishRun_failed hsourced _
  · rw [left_failed_of_ended (runEnded_of_not_alive halive)] at hleft
    exact hleft ▸ halive

theorem Unchanged.status (hunchanged : Unchanged runId db after) :
    after.runStatus? runId = db.runStatus? runId := by
  have hstatus := congrArg (Option.map Prod.fst) hunchanged.run
  rwa [Option.map_map, Option.map_map] at hstatus

theorem not_unchanged_of_row {id : JobId} (hnone : (db.jobs.get? id).isNone = true)
    (hsome : (after.jobs.get? id).isSome = true) : ¬ Unchanged runId db after := by
  intro hunchanged
  have hrows := hunchanged.rows id
  rw [Option.isNone_iff_eq_none.mp hnone, Option.map_none, Option.map_eq_none_iff] at hrows
  rw [hrows] at hsome
  cases hsome

def parkedInput (pending : String) : NodeJob :=
  { skippedRow "run" "y" "" 0 with
    status := .awaitingInput
    inputSpec := some (.dict [("patch_pending", .bool true), ("patch_node_id", .str pending)]) }

def patchRow : NodeJob :=
  { skippedRow "run" "__patch__/p1" "" 0 with
    status := .completed
    inputs := [("__patch__", .dict [("target_input", .str "y"), ("source_node", .str "x")])] }

def patchDb (pending : String) : Db :=
  { freshDb with jobs := (Table.empty.append (parkedInput pending)).append patchRow }

def forkHost : Host where
  loadWorkflow := fun _ => .ok
    ⟨[{ id := "x", kind := .input none none }, { id := "y", kind := .input none none },
      { id := "z", kind := .input none none, dependsOn := ["y"] }]⟩
  pipelineSchema := fun name => .error (.keyError name)
  resolveRef := fun value _ => .ok value
  str := fun value => match value with
    | .str text => text
    | _ => ""

def forkRun (history : List Action) : World := World.run forkHost .pg ⟨freshDb, []⟩ history

def forkClaim : Action := .queue (.claimCpu { host := some "box" } {})

def forkClaimed : List Action := startAlone 2 6 ++ [forkClaim]

/-- The first node is completed and its event handled. -/
def forkHandled : List Action :=
  forkClaimed ++ .queue (.finaliseCompleted ((forkRun forkClaimed).shared.heldJob 0) [] 1 none) ::
    .call (.onNodeCompleted "run" "x") 2 :: List.replicate 6 (.advance 1)

def NodeJob.patchPending (row : NodeJob) : Bool :=
  match row.inputSpec with
  | some (.dict spec) => (lookupIn spec "patch_pending").isSome
  | _ => false

end BrokerParrot
