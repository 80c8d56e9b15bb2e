import BrokerParrot.Proof.RunStatus
import BrokerParrot.Proof.SoloExpansion

/-!
# An expansion comes to an end

Each round of `_process_ready` leaves fewer nodes without a row, so it stops within as many rounds
as there are nodes and one more, at rows that leave no node ready.
-/

namespace BrokerParrot

open List

def Db.AddsCells (s t : Db) : Prop :=
  ∃ added, t.jobs.entries = s.jobs.entries ++ added ∧
    (added.map fun entry => (entry.2.runId, entry.2.nodeId)).Nodup ∧
    ∀ entry ∈ added, ¬ s.NodeTaken entry.2.runId entry.2.nodeId

def dagNodes (host : Host) (workflow : Workflow) (run : Run) : List DagNode :=
  (nodesOf host workflow run.outDir).toOption.getD []

section

variable {host : Host} {runId : String} {run : Run} {workflow : Workflow} {nodes : List DagNode}
  {s t u : Db}

theorem Db.AddsCells.trans (hst : s.AddsCells t) (htu : t.AddsCells u) : s.AddsCells u := by
  obtain ⟨added, hadded, hdistinct, hfree⟩ := hst
  obtain ⟨more, hmore, hothers, hfreeMore⟩ := htu
  have hmem {entry : JobId × NodeJob} (hold : entry ∈ s.jobs.entries ∨ entry ∈ added) :
      t.NodeTaken entry.2.runId entry.2.nodeId :=
    ⟨entry, by rwa [hadded, mem_append], rfl, rfl⟩
  refine ⟨added ++ more, by rw [hmore, hadded, append_assoc], ?_, fun entry hentry => ?_⟩
  · rw [map_append, nodup_append']
    refine ⟨hdistinct, hothers, fun cell hcell hcellMore => ?_⟩
    obtain ⟨entry, hentry, rfl⟩ := mem_map.mp hcell
    obtain ⟨other, hother, heq⟩ := mem_map.mp hcellMore
    obtain ⟨hrun, hnode⟩ := Prod.mk.inj heq
    refine hfreeMore other hother ?_
    rw [hrun, hnode]
    exact hmem (Or.inr hentry)
  · rcases mem_append.mp hentry with hold | hnew
    · exact hfree entry hold
    · rintro ⟨old, hold, hrun, hnode⟩
      refine hfreeMore entry hnew ?_
      rw [← hrun, ← hnode]
      exact hmem (Or.inl hold)

theorem Db.addsCells_of_insert {row : NodeJob} (hinsert : s.insertOrRaise row = .ok t) :
    s.AddsCells t := by
  obtain ⟨hfree, rfl⟩ := Db.insertOrRaise_ok hinsert
  refine ⟨[(s.jobs.nextKey, row)], Table.entries_append _ _, by simp, fun entry hmem => ?_⟩
  rwa [mem_singleton.mp hmem]

/-- The rows of a run that is gone refer to nothing: the first insert raises. -/
theorem alone_processReady_of_gone (hgone : s.runs.get? runId = none)
    (hnodes : nodesOf host workflow run.outDir = .ok nodes) (rounds newRows : ℕ) :
    ∃ result, (processReady host runId workflow run (rounds + 1) newRows).alone s =
        some (result, s) ∧
      ∀ count, result = .ok count → findReadyNodes (s.listJobsForRun runId) nodes = [] := by
  by_cases hready : findReadyNodes (s.listJobsForRun runId) nodes = []
  · exact ⟨_, alone_processReady_of_none hnodes hready rounds newRows, fun _ _ => hready⟩
  · rw [alone_processReady_of_ready hnodes hready]
    cases hsorted : readySorted (findReadyNodes (s.listJobsForRun runId) nodes) with
    | nil => exact absurd (hsorted ▸ readySorted_perm _).nil_eq.symm hready
    | cons node rest =>
      have hraises : ∃ raised, insertReady host runId run (s.listJobsForRun runId) node s =
          .error raised := by
        cases hrow : readyRow host runId run (s.listJobsForRun runId) node s with
        | error raised => exact ⟨raised, by rw [insertReady, hrow]; rfl⟩
        | ok row =>
          obtain ⟨rfl, -, -⟩ := readyRow_ok hrow
          rw [insertReady, hrow]
          change ∃ raised, s.insertOrRaise row = .error raised
          unfold Db.insertOrRaise Db.insertJob
          rw [if_pos (by rw [hgone]; rfl : (s.runs.get? row.runId).isNone = true)]
          split_ifs <;> exact ⟨_, rfl⟩
      obtain ⟨raised, hraised⟩ := hraises
      exact ⟨.error raised, Prog.alone_bind_of_error
        (Prog.alone_bind_of_error (alone_dispatchNode_of_error hraised)), by simp⟩

/-- The nodes can be listed, and none of the inserts is refused: nothing is ready, or the run is
there and every wave of ready nodes can be dispatched. -/
def InsertsAll (host : Host) (runId : String) (run : Run) (workflow : Workflow) (db : Db) : Prop :=
  ∃ nodes, nodesOf host workflow run.outDir = .ok nodes ∧
    (findReadyNodes (db.listJobsForRun runId) nodes = [] ∨
      (db.runs.get? runId).isSome ∧ (dagWaves host runId run db nodes).Always
        (Dispatchable host runId run db) (JobMap.frontier (db.listJobsForRun runId)))

theorem insertsAll_iff (hnodes : nodesOf host workflow run.outDir = .ok nodes) :
    InsertsAll host runId run workflow s ↔ findReadyNodes (s.listJobsForRun runId) nodes = [] ∨
      (s.runs.get? runId).isSome ∧ (dagWaves host runId run s nodes).Always
        (Dispatchable host runId run s) (JobMap.frontier (s.listJobsForRun runId)) := by
  unfold InsertsAll
  simp only [hnodes, Except.ok.injEq, exists_eq_left']

theorem alone_processReady_ends (hnodes : nodesOf host workflow run.outDir = .ok nodes) :
    ∃ result after,
      (processReady host runId workflow run (nodes.length + 1) 0).alone s = some (result, after) ∧
        ((∃ count, result = .ok count) ↔ InsertsAll host runId run workflow s) ∧
        ∀ count, result = .ok count → findReadyNodes (after.listJobsForRun runId) nodes = [] := by
  rw [insertsAll_iff hnodes]
  cases hrun : s.runs.get? runId with
  | none =>
    obtain ⟨result, halone, hend⟩ := alone_processReady_of_gone hrun hnodes nodes.length 0
    refine ⟨result, s, halone, ?_, hend⟩
    simp only [Option.isSome_none, Bool.false_eq_true, false_and, or_false]
    constructor
    · rintro ⟨count, hcount⟩
      exact hend count hcount
    · intro hready
      rw [alone_processReady_of_none hnodes hready nodes.length 0] at halone
      exact ⟨0, (Prod.mk.inj (Option.some.inj halone)).1.symm⟩
  | some =>
    obtain ⟨result, after, halone, -, hreturns, hend⟩ := alone_processReady (by rw [hrun]; rfl)
      hnodes (Grown.refl s) (nodes.length + 1) 0 (Nat.lt_succ_of_le (length_filter_le _ _))
    refine ⟨result, after, halone, ?_, fun count hcount => (hend count hcount).1⟩
    rw [hreturns, and_iff_right Option.isSome_some, or_iff_right_of_imp]
    exact fun hready => Waves.always_of_none ((ready_frontier _).trans hready) ⟨by simp, by simp⟩

end

/-- The call stops, whatever the graph and the rows: within as many rounds as there are nodes and
one more, with no cell added twice. It returns a count unless an insert is refused, and then
nothing is left to add. -/
theorem process_ready_ends (host : Host) (runId : String) (run : Run) (workflow : Workflow)
    (db : Db) :
    ∃ result after, (processReady host runId workflow run
        ((dagNodes host workflow run).length + 1) 0).alone db = some (result, after) ∧
      db.AddsCells after ∧
      ((∃ count, result = .ok count) ↔ InsertsAll host runId run workflow db) ∧
      ∀ count, result = .ok count →
        ∀ node ∈ dagNodes host workflow run, ¬ after.NodeTaken runId node.id →
          ∃ dep ∈ node.dependsOn, JobMap.settled (after.listJobsForRun runId) dep = false := by
  have hrefl (s : Db) : s.AddsCells s := ⟨[], by simp⟩
  unfold dagNodes
  cases hnodes : nodesOf host workflow run.outDir with
  | error raised =>
    refine ⟨.error raised, db, ?_, hrefl db, by simp [InsertsAll, hnodes], by simp⟩
    change Prog.alone (Prog.ofExcept (nodesOf host workflow run.outDir) >>= _) db = _
    rw [hnodes]
    rfl
  | ok nodes =>
    obtain ⟨result, after, halone, hreturns, hend⟩ := alone_processReady_ends (s := db) hnodes
    refine ⟨result, after, halone, ?_, hreturns, fun count hcount node hmem hfree => ?_⟩
    · rw [← Prog.left_of_alone halone]
      exact Prog.Moves.left hrefl (fun s t u hst => hst.trans)
        (processReady_inserts hrefl (fun s t row => Db.addsCells_of_insert) workflow _ _) db
    · have hwaits := filter_eq_nil_iff.mp (hend count hcount) node hmem
      simpa [JobMap.get?_eq_none.mpr hfree] using hwaits

def cascade : Workflow where
  steps :=
    [{ id := "a", kind := .input none none, skipIf := .bool true },
      { id := "b", kind := .input none none, dependsOn := ["a"] }]

def cascadeHost : Host where
  loadWorkflow := fun _ => .ok cascade
  pipelineSchema := fun _ => .ok ⟨[]⟩
  resolveRef := fun value _ => .ok value

def cascadeDb : Db where
  jobs := Table.empty
  runs := OrdDict.empty.insert "r" { workflowName := "w", status := .queued }

/-- The first step is skipped, which makes the second ready in the same call. -/
theorem process_ready_ends_cascade :
    ∃ count after, (processReady cascadeHost "r" cascade { workflowName := "w", status := .queued }
        ((dagNodes cascadeHost cascade { workflowName := "w", status := .queued }).length + 1)
        0).alone cascadeDb = some (.ok count, after) ∧
      cascadeDb.AddsCells after := by
  obtain ⟨result, after, halone, hadds, hreturns, -⟩ := process_ready_ends cascadeHost "r"
    { workflowName := "w", status := .queued } cascade cascadeDb
  have hinserts : InsertsAll cascadeHost "r" { workflowName := "w", status := .queued } cascade
      cascadeDb := by
    refine ⟨_, rfl, Or.inr ⟨rfl, ?_⟩⟩
    refine Waves.always_iff.mpr ⟨⟨by decide +kernel, fun node hmem => ?_⟩, ?_⟩
    · rcases List.mem_pair.mp (mem_filter.mp hmem).1 with rfl | rfl <;> exact ⟨_, rfl, rfl⟩
    refine Waves.always_iff.mpr ⟨⟨by decide +kernel, fun node hmem => ?_⟩, ?_⟩
    · rcases List.mem_pair.mp (mem_filter.mp hmem).1 with rfl | rfl <;> exact ⟨_, rfl, rfl⟩
    exact Waves.always_of_none (List.isEmpty_iff.mp (by decide +kernel)) ⟨by simp, by simp⟩
  obtain ⟨count, rfl⟩ := hreturns.mpr hinserts
  exact ⟨count, after, halone, hadds⟩

end BrokerParrot
