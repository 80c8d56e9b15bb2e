import BrokerParrot.Lib.Waves
import BrokerParrot.Proof.DagMoves

/-!
# An expansion with nobody else around

`_process_ready` on its own only appends rows, queued or skipped ones, so what its nodes are
resolved against never changes: the row of a node, and whether it is skipped at all, is decided by
the state the expansion begins in. Its rounds are then the waves over the nodes of the workflow, and
it raises exactly when a wave holds a node that has no row to insert, or one id twice.
-/

namespace BrokerParrot

open Prog List

variable {runId : String} {s t : Db} {row : NodeJob} {id : JobId} {run : Run} {host : Host}
  {node : DagNode} {existing : JobMap} {wave : List DagNode}

def Db.atTime (db : Db) (now : ℚ) : Db := { db with now := now }

/-! ### States that only gained rows -/

structure Grown (runId : String) (s t : Db) : Prop where
  rest : t = { s with jobs := t.jobs }
  rows : ∃ added, t.jobs.entries = s.jobs.entries ++ added ∧
    ∀ entry ∈ added, entry.2.runId = runId ∧
      (entry.2.status = .queued ∨ entry.2.status = .skipped)

namespace Grown

variable {u : Db}

theorem refl (s : Db) : Grown runId s s := ⟨rfl, [], by simp, by simp⟩

theorem trans (hst : Grown runId s t) (htu : Grown runId t u) : Grown runId s u := by
  obtain ⟨added, hadded, hkind⟩ := hst.rows
  obtain ⟨more, hmore, hkindMore⟩ := htu.rows
  refine ⟨?_, added ++ more, by rw [hmore, hadded, append_assoc], fun entry hmem => ?_⟩
  · rw [htu.rest, hst.rest]
  · exact (mem_append.mp hmem).elim (hkind entry) (hkindMore entry)

theorem of_insert (hinsert : s.insertOrRaise row = .ok t) (hrun : row.runId = runId)
    (hstatus : row.status = .queued ∨ row.status = .skipped) : Grown runId s t := by
  obtain ⟨-, rfl⟩ := Db.insertOrRaise_ok hinsert
  refine ⟨rfl, [(s.jobs.nextKey, row)], Table.entries_append _ _, fun entry hmem => ?_⟩
  obtain rfl := mem_singleton.mp hmem
  exact ⟨hrun, hstatus⟩

variable (hgrown : Grown runId s t)

include hgrown

theorem runs : t.runs = s.runs := by rw [hgrown.rest]

theorem get? (hget : s.jobs.get? id = some row) : t.jobs.get? id = some row := by
  obtain ⟨added, hadded, -⟩ := hgrown.rows
  rw [← Table.mem_entries, hadded]
  exact mem_append_left _ (Table.mem_entries.mpr hget)

theorem get?_cases (hget : t.jobs.get? id = some row) :
    s.jobs.get? id = some row ∨
      row.runId = runId ∧ (row.status = .queued ∨ row.status = .skipped) := by
  obtain ⟨added, hadded, hkind⟩ := hgrown.rows
  rw [← Table.mem_entries, hadded] at hget
  exact (mem_append.mp hget).imp Table.mem_entries.mp (hkind _)

theorem listJobsForRun :
    ∃ added, t.listJobsForRun runId = s.listJobsForRun runId ++ added ∧
      ∀ entry ∈ added, entry.2.status = .queued ∨ entry.2.status = .skipped := by
  obtain ⟨added, hadded, hkind⟩ := hgrown.rows
  have hall : (added.filter fun entry => entry.2.runId = runId) = added :=
    filter_eq_self.mpr fun entry hmem => decide_eq_true (hkind entry hmem).1
  refine ⟨added, ?_, fun entry hmem => (hkind entry hmem).2⟩
  unfold Db.listJobsForRun
  rw [hadded, filter_append, hall]

end Grown

/-! ### What the nodes are resolved against -/

theorem mergeSiblings_append (context : Context) (existing added : JobMap)
    (hadded : ∀ entry ∈ added, entry.2.status ≠ .completed) :
    mergeSiblings context (existing ++ added) = mergeSiblings context existing := by
  induction existing generalizing context with
  | nil =>
    induction added with
    | nil => rfl
    | cons entry rest ih =>
      have hskip : mergeSiblings context (entry :: rest) = mergeSiblings context rest := by
        rw [mergeSiblings, if_neg fun hmerged => hadded entry mem_cons_self hmerged.1]
      exact hskip.trans (ih fun other hmem => hadded other (mem_cons_of_mem _ hmem))
  | cons entry rest ih =>
    rw [cons_append, mergeSiblings, mergeSiblings]
    split
    · cases mergedDict (OrdDict.lookupIn context entry.2.nodeId) entry.2.contextDelta with
      | none => rfl
      | some => exact ih _
    · exact ih _

theorem evalSkipContext_append (run : Run) (existing added : JobMap)
    (hadded : ∀ entry ∈ added, entry.2.status ≠ .completed) :
    evalSkipContext run (existing ++ added) = evalSkipContext run existing := by
  unfold evalSkipContext
  rw [foldl_append]
  generalize List.foldl _ run.context existing = context
  induction added with
  | nil => rfl
  | cons entry rest ih =>
    have hentry := hadded entry mem_cons_self
    rw [foldl_cons, if_neg fun hmerged => hentry hmerged.1]
    exact ih fun other hmem => hadded other (mem_cons_of_mem _ hmem)

theorem not_completed_of_waiting {status : JobStatus}
    (hstatus : status = .queued ∨ status = .skipped) : status ≠ .completed := by
  rcases hstatus with rfl | rfl <;> decide

theorem Grown.refContext (hgrown : Grown runId s t) :
    refContext runId run t = refContext runId run s := by
  obtain ⟨added, hadded, hkind⟩ := hgrown.listJobsForRun
  have houtDirs : t.outDirs = s.outDirs := by rw [hgrown.rest]
  unfold BrokerParrot.refContext
  rw [hadded, houtDirs, mergeSiblings_append _ _ _ fun entry hmem =>
    not_completed_of_waiting (hkind entry hmem)]

theorem Grown.shouldSkipNode (hgrown : Grown runId s t) (host : Host) (node : DagNode) :
    shouldSkipNode host node run (t.listJobsForRun runId) =
      shouldSkipNode host node run (s.listJobsForRun runId) := by
  obtain ⟨added, hadded, hkind⟩ := hgrown.listJobsForRun
  unfold BrokerParrot.shouldSkipNode
  rw [hadded, evalSkipContext_append _ _ _ fun entry hmem =>
    not_completed_of_waiting (hkind entry hmem)]

/-! ### One node -/

def readyRow (host : Host) (runId : String) (run : Run) (existing : JobMap) (node : DagNode)
    (db : Db) : Except PyError NodeJob := do
  if ← shouldSkipNode host node run existing then
    return skippedRow runId node.id run.project db.now
  else
    match node.kind with
    | .input widget target => (inputJobSpec runId run node widget target).row db.now
    | .node body => do
      let context ← refContext runId run db
      let spec ← body.jobSpec host runId run node context
      spec.row db.now

def insertReady (host : Host) (runId : String) (run : Run) (existing : JobMap) (node : DagNode)
    (db : Db) : Except PyError Db :=
  readyRow host runId run existing node db >>= db.insertOrRaise

theorem alone_dispatchNode_eq (existing : JobMap) (node : DagNode) (db : Db) :
    (dispatchNode host runId run existing node).alone db =
      some ((insertReady host runId run existing node db).map fun _ => (),
        Prog.attempted (insertReady host runId run existing node) db) := by
  unfold dispatchNode Prog.attempted insertReady readyRow
  cases shouldSkipNode host node run existing with
  | error => rfl
  | ok skip =>
    cases skip with
    | true => exact alone_attempt _ db
    | false =>
      unfold enqueue
      cases node.kind with
      | input => exact alone_attempt _ db
      | node body =>
        change Prog.alone (Prog.ofExcept ((refContext runId run db).bind
          (body.jobSpec host runId run node)) >>= _) db = _
        cases refContext runId run db with
        | error => rfl
        | ok context =>
          dsimp only [bind, Except.bind]
          cases body.jobSpec host runId run node context with
          | error => rfl
          | ok => exact alone_attempt _ db

theorem alone_dispatchNode_of_ok (hok : insertReady host runId run existing node s = .ok t) :
    (dispatchNode host runId run existing node).alone s = some (.ok (), t) := by
  rw [alone_dispatchNode_eq, Prog.attempted, hok]
  rfl

theorem alone_dispatchNode_of_error {raised : PyError}
    (herror : insertReady host runId run existing node s = .error raised) :
    (dispatchNode host runId run existing node).alone s = some (.error raised, s) := by
  rw [alone_dispatchNode_eq, Prog.attempted, herror]
  rfl

theorem readyRow_of_grown (hgrown : Grown runId s t)
    (hread : shouldSkipNode host node run existing =
      shouldSkipNode host node run (s.listJobsForRun runId)) :
    readyRow host runId run existing node t =
      readyRow host runId run (s.listJobsForRun runId) node s := by
  have hnow : t.now = s.now := by rw [hgrown.rest]
  unfold readyRow
  rw [hread, hgrown.refContext, hnow]

def skips (host : Host) (run : Run) (existing : JobMap) (node : DagNode) : Bool :=
  (shouldSkipNode host node run existing).toOption.getD false

theorem readyRow_ok (hrow : readyRow host runId run existing node s = .ok row) :
    row.runId = runId ∧ row.nodeId = node.id ∧
      row.status = if skips host run existing node then .skipped else .queued := by
  have hspec {spec : NodeJobSpec} (hmade : spec.row s.now = .ok row) :
      row.runId = spec.runId ∧ row.nodeId = spec.nodeId ∧ row.status = .queued := by
    obtain ⟨_, _, rfl⟩ := NodeJobSpec.row_ok hmade
    exact ⟨rfl, rfl, rfl⟩
  obtain ⟨skip, hskip, hrow⟩ := Except.bind_eq_ok_iff.mp hrow
  have hskips : skips host run existing node = skip := by
    unfold skips
    rw [hskip]
    rfl
  rw [hskips]
  cases skip with
  | true =>
    cases hrow
    exact ⟨rfl, rfl, rfl⟩
  | false =>
    rw [if_neg (by decide)] at hrow ⊢
    split at hrow
    · exact hspec hrow
    · obtain ⟨context, -, hrow⟩ := Except.bind_eq_ok_iff.mp hrow
      obtain ⟨spec, hjob, hrow⟩ := Except.bind_eq_ok_iff.mp hrow
      obtain ⟨hrun, hnode, -⟩ := jobSpec_ok hjob
      rw [← hrun, ← hnode]
      exact hspec hrow

/-! ### Rounds are waves -/

def JobMap.frontier (existing : JobMap) : Frontier String where
  taken := fun node => (existing.get? node).isSome
  settled := existing.settled

def dagWaves (host : Host) (runId : String) (run : Run) (db : Db) (nodes : List DagNode) :
    Waves DagNode String where
  items := nodes
  key := DagNode.id
  needs := DagNode.dependsOn
  settles := skips host run (db.listJobsForRun runId)

/-- The node resolves to a row, and the columns take it. -/
def HasRow (host : Host) (runId : String) (run : Run) (db : Db) (node : DagNode) : Prop :=
  ∃ row, readyRow host runId run (db.listJobsForRun runId) node db = .ok row ∧
    db.stores row = true

structure Dispatchable (host : Host) (runId : String) (run : Run) (db : Db) (wave : List DagNode) :
    Prop where
  distinct : (wave.map DagNode.id).Nodup
  rows : ∀ node ∈ wave, HasRow host runId run db node

theorem dispatchable_iff {db : Db} :
    Dispatchable host runId run db wave ↔
      (wave.map DagNode.id).Nodup ∧ ∀ node ∈ wave, HasRow host runId run db node :=
  ⟨fun hwave => ⟨hwave.distinct, hwave.rows⟩, fun hwave => ⟨hwave.1, hwave.2⟩⟩

section

variable {workflow : Workflow} {nodes : List DagNode} {u : Db}

theorem ready_frontier (existing : JobMap) :
    (dagWaves host runId run s nodes).ready existing.frontier = findReadyNodes existing nodes := by
  unfold Waves.ready findReadyNodes JobMap.frontier dagWaves
  simp only [Option.not_isSome, Bool.decide_and, Bool.decide_eq_true]

theorem taken_frontier (node : String) :
    (JobMap.frontier (t.listJobsForRun runId)).taken node = true ↔ t.NodeTaken runId node := by
  change (JobMap.get? (t.listJobsForRun runId) node).isSome = true ↔ _
  rw [← not_iff_not, ← JobMap.get?_eq_none, Bool.not_eq_true, Option.isSome_eq_false_iff,
    Option.isNone_iff_eq_none]

theorem frontier_append {entry : JobId × NodeJob} (hfree : existing.get? node.id = none)
    (hnode : entry.2.nodeId = node.id) (hstatus : entry.2.status =
      if skips host run (s.listJobsForRun runId) node then .skipped else .queued) :
    JobMap.frontier (existing ++ [entry]) =
      (dagWaves host runId run s nodes).push (JobMap.frontier existing) node := by
  have hget (key : String) : JobMap.get? (existing ++ [entry]) key =
      (JobMap.get? existing key).or (if node.id = key then some entry else none) := by
    unfold JobMap.get?
    rw [find?_append, find?_singleton, hnode]
    simp
  have hsettled : decide entry.2.status.Settled =
      skips host run (s.listJobsForRun runId) node := by
    rw [hstatus]
    cases skips host run (s.listJobsForRun runId) node <;> rfl
  unfold JobMap.frontier Waves.push dagWaves JobMap.settled
  congr 1 <;> funext key <;> rw [hget] <;> by_cases hkey : node.id = key
  · simp [hkey]
  · simp [hkey]
  · subst hkey
    simp [hfree, hsettled]
  · simp [hkey]

theorem insertOrRaise_of_run (hrun : (t.runs.get? runId).isSome) (hrow : row.runId = runId)
    (hstores : t.stores row = true) :
    t.insertOrRaise row = if t.NodeTaken runId row.nodeId then
      .error (.integrity .uniqueViolation) else .ok { t with jobs := t.jobs.append row } := by
  subst hrow
  unfold Db.insertOrRaise Db.insertJob
  rw [if_neg (by simp [hstores]), if_neg (by simpa using Option.isSome_iff_ne_none.mp hrun)]
  split_ifs <;> rfl

theorem insertOrRaise_of_refused (hstores : t.stores row = false) :
    t.insertOrRaise row = .error (.integrity .dataError) := by
  unfold Db.insertOrRaise Db.insertJob
  rw [if_pos hstores]

theorem alone_dispatchNode_cases (nodes : List DagNode) (hrun : (s.runs.get? runId).isSome)
    (hread : shouldSkipNode host node run existing =
      shouldSkipNode host node run (s.listJobsForRun runId)) (hgrown : Grown runId s t) :
    (∃ raised, (dispatchNode host runId run existing node).alone t = some (.error raised, t) ∧
      (HasRow host runId run s node → t.NodeTaken runId node.id)) ∨
    ∃ u, (dispatchNode host runId run existing node).alone t = some (.ok (), u) ∧
      HasRow host runId run s node ∧ ¬ t.NodeTaken runId node.id ∧ Grown runId t u ∧
      JobMap.frontier (u.listJobsForRun runId) = (dagWaves host runId run s nodes).push
        (JobMap.frontier (t.listJobsForRun runId)) node := by
  have hready : insertReady host runId run existing node t =
      readyRow host runId run (s.listJobsForRun runId) node s >>= t.insertOrRaise := by
    rw [insertReady, readyRow_of_grown hgrown hread]
  cases hrow : readyRow host runId run (s.listJobsForRun runId) node s with
  | error raised =>
    rw [hrow] at hready
    exact Or.inl ⟨raised, alone_dispatchNode_of_error hready, by simp [HasRow, hrow]⟩
  | ok row =>
    rw [hrow] at hready
    have hcolumns : t.stores = s.stores := by rw [hgrown.rest]
    obtain ⟨hrowRun, hrowNode, hstatus⟩ := readyRow_ok hrow
    by_cases hstores : s.stores row = true
    swap
    · have hrefused := insertOrRaise_of_refused (hcolumns ▸ Bool.not_eq_true _ ▸ hstores)
      refine Or.inl ⟨_, alone_dispatchNode_of_error (hready.trans hrefused), ?_⟩
      rintro ⟨made, hmade, hmadeStores⟩
      cases hrow.symm.trans hmade
      exact absurd hmadeStores hstores
    have hinsert := insertOrRaise_of_run (hgrown.runs ▸ hrun) hrowRun (hcolumns ▸ hstores)
    rw [hrowNode] at hinsert
    by_cases htaken : t.NodeTaken runId node.id
    · rw [if_pos htaken] at hinsert
      exact Or.inl ⟨_, alone_dispatchNode_of_error (hready.trans hinsert), fun _ => htaken⟩
    · rw [if_neg htaken] at hinsert
      have hadded := Grown.of_insert hinsert hrowRun (by rw [hstatus]; split <;> simp)
      refine Or.inr ⟨_, alone_dispatchNode_of_ok (hready.trans hinsert), ⟨row, hrow, hstores⟩,
        htaken, hadded, ?_⟩
      have hlist : ({ t with jobs := t.jobs.append row } : Db).listJobsForRun runId =
          t.listJobsForRun runId ++ [(t.jobs.nextKey, row)] := by
        unfold Db.listJobsForRun
        rw [Table.entries_append, filter_append]
        simp [hrowRun]
      rw [hlist]
      exact frontier_append (JobMap.get?_eq_none.mpr htaken) hrowNode hstatus

theorem alone_round (nodes : List DagNode) (hrun : (s.runs.get? runId).isSome)
    (hread : ∀ node, shouldSkipNode host node run existing =
      shouldSkipNode host node run (s.listJobsForRun runId)) (items : List DagNode)
    (hgrown : Grown runId s t) :
    ∃ result u, (forEach items (dispatchNode host runId run existing)).alone t =
        some (result, u) ∧ Grown runId t u ∧
      (result = .ok () ↔ Dispatchable host runId run s items ∧
        ∀ node ∈ items, ¬ t.NodeTaken runId node.id) ∧
      (result = .ok () → JobMap.frontier (u.listJobsForRun runId) =
        items.foldl (dagWaves host runId run s nodes).push
          (JobMap.frontier (t.listJobsForRun runId))) := by
  induction items generalizing t with
  | nil => exact ⟨.ok (), t, rfl, Grown.refl t, by simp [dispatchable_iff], fun _ => rfl⟩
  | cons node rest ih =>
    rcases alone_dispatchNode_cases nodes hrun (hread node) hgrown with
      ⟨raised, halone, htaken⟩ | ⟨v, halone, hrow, hfree, hadded, hfrontier⟩
    · refine ⟨.error raised, t, alone_bind_of_error halone, Grown.refl t, ?_, by simp⟩
      simp only [reduceCtorEq, false_iff, not_and]
      intro hrows hfree
      exact hfree node mem_cons_self (htaken (hrows.rows node mem_cons_self))
    · obtain ⟨result, u, hrest, hmore, hok, hwave⟩ := ih (hgrown.trans hadded)
      refine ⟨result, u, (alone_bind_of_ok halone).trans hrest, hadded.trans hmore, ?_,
        fun hresult => (hwave hresult).trans (by rw [hfrontier, foldl_cons])⟩
      have htaken (key : String) : v.NodeTaken runId key ↔
          t.NodeTaken runId key ∨ node.id = key := by
        rw [← taken_frontier, hfrontier, ← taken_frontier]
        exact (Bool.or_eq_true_iff).trans (or_congr_right decide_eq_true_iff)
      rw [hok]
      simp only [dispatchable_iff, map_cons, nodup_cons, mem_cons,
        forall_eq_or_imp, htaken, not_or, hfree, hrow, not_false_eq_true, true_and]
      grind

theorem not_taken_of_ready (hready : node ∈ findReadyNodes (t.listJobsForRun runId) nodes) :
    ¬ t.NodeTaken runId node.id := by
  rw [← JobMap.get?_eq_none, ← Option.isNone_iff_eq_none]
  exact (of_decide_eq_true (mem_filter.mp hready).2).1

theorem dispatchable_of_perm {others : List DagNode} (hperm : wave.Perm others) :
    Dispatchable host runId run s wave ↔ Dispatchable host runId run s others := by
  simp only [dispatchable_iff, hperm.mem_iff, (hperm.map DagNode.id).nodup_iff]

theorem alone_processReady_of_none (hnodes : nodesOf host workflow run.outDir = .ok nodes)
    (hready : findReadyNodes (t.listJobsForRun runId) nodes = []) (rounds newRows : ℕ) :
    (processReady host runId workflow run (rounds + 1) newRows).alone t =
      some (.ok newRows, t) := by
  change Prog.alone (Prog.ofExcept (nodesOf host workflow run.outDir) >>= _) t = _
  rw [hnodes]
  dsimp only [Prog.ofExcept, bind, Prog.bind]
  rw [hready]
  rfl

theorem alone_processReady_of_ready (hnodes : nodesOf host workflow run.outDir = .ok nodes)
    (hready : findReadyNodes (t.listJobsForRun runId) nodes ≠ []) (rounds newRows : ℕ) :
    (processReady host runId workflow run (rounds + 1) newRows).alone t =
      (forEach (readySorted (findReadyNodes (t.listJobsForRun runId) nodes))
        (dispatchNode host runId run (t.listJobsForRun runId)) >>= fun _ =>
          processReady host runId workflow run rounds
            (newRows + (findReadyNodes (t.listJobsForRun runId) nodes).length)).alone t := by
  change Prog.alone (Prog.ofExcept (nodesOf host workflow run.outDir) >>= _) t = _
  rw [hnodes]
  dsimp only [Prog.ofExcept, bind, Prog.bind]
  split
  · contradiction
  · rename_i first rest heq
    rw [heq]

theorem alone_processReady (hrun : (s.runs.get? runId).isSome)
    (hnodes : nodesOf host workflow run.outDir = .ok nodes) (hgrown : Grown runId s t)
    (rounds newRows : ℕ)
    (hrounds : ((dagWaves host runId run s nodes).free
      (JobMap.frontier (t.listJobsForRun runId))).length < rounds) :
    ∃ result u, (processReady host runId workflow run rounds newRows).alone t = some (result, u) ∧
      Grown runId t u ∧
      ((∃ count, result = .ok count) ↔ (dagWaves host runId run s nodes).Always
        (Dispatchable host runId run s) (JobMap.frontier (t.listJobsForRun runId))) ∧
      ∀ count, result = .ok count → findReadyNodes (u.listJobsForRun runId) nodes = [] ∧
        (count = newRows ∧ u = t ∨ newRows < count ∧ u.listJobsForRun runId ≠ []) := by
  induction rounds generalizing t newRows with
  | zero => exact absurd hrounds (Nat.not_lt_zero _)
  | succ rounds ih =>
    have hwave : (dagWaves host runId run s nodes).ready
        (JobMap.frontier (t.listJobsForRun runId)) = _ := ready_frontier _
    by_cases hready : findReadyNodes (t.listJobsForRun runId) nodes = []
    · rw [hready] at hwave
      refine ⟨_, t, alone_processReady_of_none hnodes hready rounds newRows, Grown.refl t, ?_, ?_⟩
      · exact iff_of_true ⟨newRows, rfl⟩ (Waves.always_of_none hwave ⟨by simp, by simp⟩)
      · intro count hcount
        exact ⟨hready, Or.inl ⟨(Except.ok.inj hcount).symm, rfl⟩⟩
    · rw [alone_processReady_of_ready hnodes hready]
      have hperm := readySorted_perm (findReadyNodes (t.listJobsForRun runId) nodes)
      obtain ⟨result, v, hround, hadded, hok, hfront⟩ := alone_round nodes hrun
        (fun node => hgrown.shouldSkipNode host node)
        (readySorted (findReadyNodes (t.listJobsForRun runId) nodes)) hgrown
      have hfree : ∀ node ∈ readySorted (findReadyNodes (t.listJobsForRun runId) nodes),
          ¬ t.NodeTaken runId node.id := fun node hmem =>
        not_taken_of_ready (hperm.mem_iff.mp hmem)
      rw [and_iff_left hfree, dispatchable_of_perm hperm, ← hwave] at hok
      rw [Waves.always_iff]
      cases result with
      | error =>
        have hbad := hok.not.mp (by simp)
        exact ⟨_, v, alone_bind_of_error hround, hadded, by simp [hbad], by simp⟩
      | ok _ =>
        -- The round is the next wave, so fewer nodes are left for the rest.
        have hnext : JobMap.frontier (v.listJobsForRun runId) =
            (dagWaves host runId run s nodes).next
              (JobMap.frontier (t.listJobsForRun runId)) := by
          rw [hfront rfl, Waves.foldl_push_of_perm hperm, ← hwave]
          rfl
        have hless := Waves.length_free_next_lt (hwave ▸ hready)
        rw [← hnext] at hless
        obtain ⟨result, u, hrest, hmore, hreturns, hend⟩ := ih (hgrown.trans hadded)
          (newRows + (findReadyNodes (t.listJobsForRun runId) nodes).length) (by omega)
        refine ⟨result, u, (alone_bind_of_ok hround).trans hrest, hadded.trans hmore,
          ?_, ?_⟩
        · rw [hreturns, hnext, and_iff_right (hok.mp rfl)]
        · intro count hcount
          have hsome := length_pos_iff.mpr hready
          obtain ⟨hnone, ⟨rfl, rfl⟩ | ⟨hlt, hrows⟩⟩ := hend count hcount
          · refine ⟨hnone, Or.inr ⟨by omega, fun hempty => ?_⟩⟩
            obtain ⟨node, hnode⟩ := exists_mem_of_ne_nil _ hready
            have htaken : ((dagWaves host runId run s nodes).next
                (JobMap.frontier (t.listJobsForRun runId))).taken node.id = true :=
              (Waves.taken_foldl_push _ _).mpr (Or.inr ⟨node, hwave ▸ hnode, rfl⟩)
            rw [← hnext, hempty] at htaken
            cases htaken
          · exact ⟨hnone, Or.inr ⟨by omega, hrows⟩⟩

end

end BrokerParrot
