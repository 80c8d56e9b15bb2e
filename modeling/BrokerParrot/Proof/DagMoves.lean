import BrokerParrot.Dispatcher
import BrokerParrot.Proof.TerminalRows

/-!
# How the rows of a graph move

The dispatcher looks at a run through two questions about a node: does it have a row, and is that
row settled, that is completed or skipped. `DagMove` says what every statement may do to the
answers: a settled node stays settled, and a node gets its first row only when all it depends on is
settled.
-/

namespace BrokerParrot

open Prog List Except

variable {nodes : List DagNode}

namespace Db

def NodeSettled (db : Db) (runId node : String) : Prop :=
  ∃ id row, db.jobs.get? id = some row ∧ row.runId = runId ∧ row.nodeId = node ∧ row.status.Settled

def CellsUnique (db : Db) : Prop :=
  ∀ id other row twin, db.jobs.get? id = some row → db.jobs.get? other = some twin →
    row.runId = twin.runId → row.nodeId = twin.nodeId → id = other

def Solid (db : Db) (id : JobId) : Prop :=
  id < db.jobs.nextKey ∧ ∀ row, db.jobs.get? id = some row → row.status ≠ .skipped

variable {db : Db} {runId node : String}

theorem nodeTaken_iff : db.NodeTaken runId node ↔
      ∃ id row, db.jobs.get? id = some row ∧ row.runId = runId ∧ row.nodeId = node := by
  constructor
  · rintro ⟨⟨id, row⟩, hmem, hrun, hnode⟩
    exact ⟨id, row, Table.mem_entries.mp hmem, hrun, hnode⟩
  · rintro ⟨id, row, hget, hrun, hnode⟩
    exact ⟨(id, row), Table.mem_entries.mpr hget, hrun, hnode⟩

theorem NodeSettled.taken (hsettled : db.NodeSettled runId node) : db.NodeTaken runId node := by
  obtain ⟨id, row, hget, hrun, hnode, -⟩ := hsettled
  exact nodeTaken_iff.mpr ⟨id, row, hget, hrun, hnode⟩

theorem nodeSettled_iff :
    (∃ entry ∈ db.jobs.entries, entry.2.runId = runId ∧ entry.2.nodeId = node ∧
      entry.2.status.Settled) ↔ db.NodeSettled runId node := by
  constructor
  · rintro ⟨⟨id, row⟩, hmem, hrow⟩
    exact ⟨id, row, Table.mem_entries.mp hmem, hrow⟩
  · rintro ⟨id, row, hget, hrow⟩
    exact ⟨(id, row), Table.mem_entries.mpr hget, hrow⟩

instance (db : Db) (runId node : String) : Decidable (db.NodeSettled runId node) :=
  decidable_of_iff _ nodeSettled_iff

end Db

/-! ### What the reads show -/

section

variable {db : Db} {runId node : String} {entry : JobId × NodeJob}

theorem mem_listJobsForRun : entry ∈ db.listJobsForRun runId ↔
      db.jobs.get? entry.1 = some entry.2 ∧ entry.2.runId = runId := by
  unfold Db.listJobsForRun
  rw [mem_filter, decide_eq_true_iff]
  exact and_congr_left' Table.mem_entries

theorem JobMap.get?_eq_some (hget : JobMap.get? (db.listJobsForRun runId) node = some entry) :
    db.jobs.get? entry.1 = some entry.2 ∧ entry.2.runId = runId ∧ entry.2.nodeId = node := by
  have hmem := mem_listJobsForRun.mp (mem_of_find?_eq_some hget)
  have hnode := find?_some hget
  exact ⟨hmem.1, hmem.2, of_decide_eq_true hnode⟩

theorem JobMap.get?_eq_none :
    JobMap.get? (db.listJobsForRun runId) node = none ↔ ¬ db.NodeTaken runId node := by
  unfold JobMap.get?
  rw [find?_eq_none, Db.nodeTaken_iff]
  constructor
  · rintro hnone ⟨id, row, hget, hrun, hnode⟩
    exact hnone (id, row) (mem_listJobsForRun.mpr ⟨hget, hrun⟩) (decide_eq_true hnode)
  · intro hfree entry hmem hnode
    obtain ⟨hget, hrun⟩ := mem_listJobsForRun.mp hmem
    exact hfree ⟨entry.1, entry.2, hget, hrun, of_decide_eq_true hnode⟩

theorem nodeSettled_of_settled (hsettled : JobMap.settled (db.listJobsForRun runId) node = true) :
    db.NodeSettled runId node := by
  obtain ⟨entry, hget, hstatus⟩ := Option.any_eq_true _ _ |>.mp hsettled
  obtain ⟨hrow, hrun, hnode⟩ := JobMap.get?_eq_some hget
  exact ⟨entry.1, entry.2, hrow, hrun, hnode, of_decide_eq_true hstatus⟩

theorem JobMap.get?_of_row {id : JobId} {row : NodeJob} (hunique : db.CellsUnique)
    (hrow : db.jobs.get? id = some row) (hrun : row.runId = runId) (hnode : row.nodeId = node) :
    JobMap.get? (db.listJobsForRun runId) node = some (id, row) := by
  cases hget : JobMap.get? (db.listJobsForRun runId) node with
  | none =>
    exact absurd (Db.nodeTaken_iff.mpr ⟨id, row, hrow, hrun, hnode⟩) (JobMap.get?_eq_none.mp hget)
  | some entry =>
    obtain ⟨hentry, hentryRun, hentryNode⟩ := JobMap.get?_eq_some hget
    obtain rfl := hunique id entry.1 row entry.2 hrow hentry (hrun.trans hentryRun.symm)
      (hnode.trans hentryNode.symm)
    obtain rfl := Option.mem_unique hrow hentry
    rfl

theorem settled_of_nodeSettled (hunique : db.CellsUnique) (hsettled : db.NodeSettled runId node) :
    JobMap.settled (db.listJobsForRun runId) node = true := by
  obtain ⟨id, row, hrow, hrun, hnode, hstatus⟩ := hsettled
  unfold JobMap.settled
  rw [JobMap.get?_of_row hunique hrow hrun hnode, Option.any_some]
  exact decide_eq_true hstatus

end

/-! ### Moves -/

def DepsSettled (runId : String) (db : Db) (node : DagNode) : Prop :=
  ∀ dep ∈ node.dependsOn, db.NodeSettled runId dep

structure DagMove (runId : String) (nodes : List DagNode) (s t : Db) : Prop where
  keeps : ∀ node, s.NodeSettled runId node → t.NodeSettled runId node
  born : ∀ node, t.NodeTaken runId node → s.NodeTaken runId node ∨
    ∃ ready ∈ nodes, ready.id = node ∧ DepsSettled runId s ready
  unique : s.CellsUnique → t.CellsUnique
  solid : ∀ id, s.Solid id → t.Solid id

structure QueueOp.Orderly (runId : String) (nodes : List DagNode) (db : Db) (op : QueueOp) :
    Prop where
  inserts : ∀ now row, op.insertedRow now = some row → row.runId = runId →
    ∃ ready ∈ nodes, ready.id = row.nodeId ∧ DepsSettled runId db ready
  spares : ¬ op.MarksSkipped db

section

variable {d : Dialect} {runId : String} {s t : Db} {op : QueueOp}

theorem JobStatus.Settled.terminal {status : JobStatus} (hsettled : status.Settled) :
    status.Terminal :=
  hsettled.elim Or.inl fun hskipped => Or.inr (Or.inr (Or.inr hskipped))

variable {id : JobId} {row after : NodeJob}

theorem get?_step_of_settled (d : Dialect) (op : QueueOp)
    (hget : s.jobs.get? id = some row) (hsettled : row.status.Settled) :
    ∃ after, (op.step d s).jobs.get? id = some after := by
  have hstep := step_row d s op id
  rw [hget] at hstep
  cases hafter : (op.step d s).jobs.get? id with
  | some after => exact ⟨after, rfl⟩
  | none =>
    rw [hafter] at hstep
    cases hstep with
    | delete _ hcompleted hskipped => exact (hsettled.elim hcompleted hskipped).elim

theorem nodeSettled_step (hspares : ¬ op.MarksSkipped s) {node : String}
    (hsettled : s.NodeSettled runId node) : (op.step d s).NodeSettled runId node := by
  obtain ⟨id, row, hget, hrun, hnode, hstatus⟩ := hsettled
  obtain ⟨after, hafter⟩ := get?_step_of_settled d op hget hstatus
  have hcell := step_sameCell hget hafter
  have hsame := terminal_step hspares hget hstatus.terminal hafter
  exact ⟨id, after, hafter, hcell.runId.trans hrun, hcell.nodeId.trans hnode, hsame ▸ hstatus⟩

theorem QueueOp.step_insert_cases (d : Dialect) (s : Db) (op : QueueOp) :
    (∃ row, op.step d s = s.orSame (s.insertOrRaise row)) ∨ op.step d s = s ∨
      ∀ now, op.insertedRow now = none := by
  cases op with
  | enqueue spec =>
    change (∃ row, s.orSame (enqueueNodeJob spec s) = _) ∨
      s.orSame (enqueueNodeJob spec s) = s ∨ _
    cases hinsert : enqueueNodeJob spec s with
    | error => exact Or.inr (Or.inl rfl)
    | ok =>
      obtain ⟨row, -, hrow⟩ := enqueueNodeJob_ok hinsert
      exact Or.inl ⟨row, congrArg s.orSame hrow.symm⟩
  | insertSkipped => exact Or.inl ⟨_, rfl⟩
  | _ => exact Or.inr (Or.inr fun _ => rfl)

theorem free_of_insertOrRaise (hnone : s.jobs.get? id = none)
    (hafter : (s.orSame (s.insertOrRaise row)).jobs.get? id = some after) :
    ¬ s.NodeTaken after.runId after.nodeId := by
  cases hinsert : s.insertOrRaise row with
  | error =>
    rw [hinsert] at hafter
    cases hnone.symm.trans hafter
  | ok =>
    rw [hinsert] at hafter
    obtain ⟨hfree, rfl⟩ := Db.insertOrRaise_ok hinsert
    rcases Table.get?_append_eq_some hafter with ⟨-, rfl⟩ | hold
    · exact hfree
    · cases hnone.symm.trans hold

theorem free_of_insert {now : ℚ} (hnone : s.jobs.get? id = none)
    (hafter : (op.step d s).jobs.get? id = some after) (hrow : op.insertedRow now = some after) :
    ¬ s.NodeTaken after.runId after.nodeId := by
  rcases op.step_insert_cases d s with ⟨inserted, hstep⟩ | hstep | hno
  · rw [hstep] at hafter
    exact free_of_insertOrRaise hnone hafter
  · rw [hstep] at hafter
    cases hnone.symm.trans hafter
  · cases (hno now).symm.trans hrow

theorem row_after_step (hafter : (op.step d s).jobs.get? id = some after) :
    (∃ row, s.jobs.get? id = some row ∧ row.SameCell after) ∨
      ¬ s.NodeTaken after.runId after.nodeId ∧ ∃ now, op.insertedRow now = some after := by
  cases hget : s.jobs.get? id with
  | some row => exact Or.inl ⟨row, rfl, step_sameCell hget hafter⟩
  | none =>
    have hstep := step_row d s op id
    rw [hget, hafter] at hstep
    cases hstep with
    | insert now hrow => exact Or.inr ⟨free_of_insert hget hafter hrow, now, hrow⟩

section

variable (hunique : s.CellsUnique)

include hunique

theorem cellsUnique_append (hfree : ¬ s.NodeTaken row.runId row.nodeId) :
    Db.CellsUnique { s with jobs := s.jobs.append row } := by
  intro id other mine twin hmine htwin hrun hnode
  rcases Table.get?_append_eq_some hmine with ⟨hid, hrow⟩ | hold
  · rcases Table.get?_append_eq_some htwin with ⟨hother, -⟩ | holdTwin
    · rw [hid, hother]
    · rw [hrow] at hrun hnode
      exact absurd (Db.nodeTaken_iff.mpr ⟨other, twin, holdTwin, hrun.symm, hnode.symm⟩) hfree
  · rcases Table.get?_append_eq_some htwin with ⟨-, hrow⟩ | holdTwin
    · rw [hrow] at hrun hnode
      exact absurd (Db.nodeTaken_iff.mpr ⟨id, mine, hold, hrun, hnode⟩) hfree
    · exact hunique id other mine twin hold holdTwin hrun hnode

theorem cellsUnique_insert (row : NodeJob) : (s.orSame (s.insertOrRaise row)).CellsUnique := by
  cases hinsert : s.insertOrRaise row with
  | error => exact hunique
  | ok =>
    obtain ⟨hfree, rfl⟩ := Db.insertOrRaise_ok hinsert
    exact cellsUnique_append hunique hfree

theorem cellsUnique_of_no_insert (hnone : ∀ now, op.insertedRow now = none) :
    (op.step d s).CellsUnique := by
  have hold : ∀ {id : JobId} {after : NodeJob}, (op.step d s).jobs.get? id = some after →
      ∃ row, s.jobs.get? id = some row ∧ row.SameCell after := by
    intro id after hafter
    rcases row_after_step hafter with hold | ⟨-, now, hrow⟩
    · exact hold
    · rw [hnone now] at hrow
      cases hrow
  intro id other mine twin hmine htwin hrun hnode
  obtain ⟨row, hget, hcell⟩ := hold hmine
  obtain ⟨oldTwin, hgetTwin, hcellTwin⟩ := hold htwin
  refine hunique id other row oldTwin hget hgetTwin ?_ ?_
  · rw [← hcell.runId, ← hcellTwin.runId, hrun]
  · rw [← hcell.nodeId, ← hcellTwin.nodeId, hnode]

theorem cellsUnique_step : (op.step d s).CellsUnique := by
  rcases op.step_insert_cases d s with ⟨row, hstep⟩ | hstep | hno
  · rw [hstep]
    exact cellsUnique_insert hunique row
  · rwa [hstep]
  · exact cellsUnique_of_no_insert hunique hno

end

theorem solid_step (hsolid : s.Solid id) : (op.step d s).Solid id := by
  refine ⟨Nat.lt_of_lt_of_le hsolid.1 (step_extends d s op).nextKey_le, ?_⟩
  intro after hafter
  have hstep := step_row d s op id
  cases hget : s.jobs.get? id with
  | none =>
    rw [(step_extends d s op).gone id hsolid.1 hget] at hafter
    cases hafter
  | some row =>
    have hrow := hsolid.2 row hget
    rw [hget, hafter] at hstep
    cases hstep with
    | same => exact hrow
    -- No operation turns a row into a skipped one: markers are only ever inserted.
    | take _ _ _ _ _ => exact fun hstatus => absurd hstatus (by simp [ClaimSql.take])
    | leave _ hstatus => rcases hstatus with hstatus | hstatus <;> simp [hstatus]
    | finish hmarks => exact marks_ne_skipped hmarks
    | cancel _ hstatus => simp [hstatus]
    | edit hstatus => exact hstatus ▸ hrow

theorem QueueOp.Orderly.dagMove (horderly : op.Orderly runId nodes s) :
    DagMove runId nodes s (op.step d s) where
  keeps := fun _ hsettled => nodeSettled_step horderly.spares hsettled
  born := fun node htaken => by
    obtain ⟨id, after, hafter, hrun, hnode⟩ := Db.nodeTaken_iff.mp htaken
    rcases row_after_step hafter with ⟨row, hget, hcell⟩ | ⟨-, now, hrow⟩
    · refine Or.inl (Db.nodeTaken_iff.mpr ⟨id, row, hget, ?_, ?_⟩)
      · rw [← hcell.runId, hrun]
      · rw [← hcell.nodeId, hnode]
    · obtain ⟨ready, hmem, hid, hdeps⟩ := horderly.inserts now after hrow hrun
      exact Or.inr ⟨ready, hmem, hid.trans hnode, hdeps⟩
  unique := cellsUnique_step
  solid := fun _ => solid_step

theorem DagMove.of_sameJobs (hjobs : t.jobs = s.jobs) : DagMove runId nodes s t := by
  constructor
  · rintro node ⟨id, row, hget, hrow⟩
    exact ⟨id, row, hjobs ▸ hget, hrow⟩
  · intro node htaken
    unfold Db.NodeTaken at htaken ⊢
    rw [hjobs] at htaken
    exact Or.inl htaken
  · intro hunique
    unfold Db.CellsUnique at hunique ⊢
    rwa [hjobs]
  · intro id hsolid
    unfold Db.Solid at hsolid ⊢
    rwa [hjobs]

theorem DagMove.refl (s : Db) : DagMove runId nodes s s := DagMove.of_sameJobs rfl

end

/-! ### Expanding a run -/

def DagNode.Plain (host : Host) (node : DagNode) : Prop :=
  match node.kind with
  | .input _ _ => True
  | .node body => ∀ context inputs, NodeBody.resolveAll host context body.inputs = .ok inputs →
      patchMarker inputs = none

def QueueOp.InsertsFor (host : Host) (runId : String) (node : DagNode) : QueueOp → Prop
  | .insertSkipped target id _ => target = runId ∧ id = node.id
  | .enqueue spec => spec.runId = runId ∧ spec.nodeId = node.id ∧
      (node.Plain host → patchMarker spec.inputs = none)
  | _ => False

structure Expands (host : Host) (d : Dialect) (runId : String) (nodes : List DagNode)
    (R G : Db → Db → Prop) (Inv : Db → Prop) : Prop where
  rest : ∀ s, G s s
  keeps : ∀ s t, R s t → ∀ node, s.NodeSettled runId node → t.NodeSettled runId node
  stable : Prog.Stable R Inv
  inserts : ∀ s (op : QueueOp) node, Inv s → node ∈ nodes → DepsSettled runId s node →
    op.InsertsFor host runId node → G s (op.step d s) ∧ Inv (op.step d s)

variable {host : Host} {node : DagNode} {context : Context} {runId : String}

theorem QueueOp.InsertsFor.orderly {s : Db} {op : QueueOp} (hop : op.InsertsFor host runId node)
    (hmem : node ∈ nodes) (hdeps : DepsSettled runId s node) : op.Orderly runId nodes s := by
  have hcell : ∀ now row, op.insertedRow now = some row → row.nodeId = node.id := by
    intro now row hrow
    cases op with
    | insertSkipped =>
      cases hrow
      exact hop.2
    | enqueue =>
      obtain ⟨_, _, rfl⟩ := QueueOp.insertedRow_enqueue hrow
      exact hop.2.1
    | _ => exact hop.elim
  constructor
  · intro now row hrow _
    exact ⟨node, hmem, (hcell now row hrow).symm, hdeps⟩
  · rintro ⟨id, status, row, hmarks, -⟩
    cases op with
    | insertSkipped | enqueue => cases hmarks
    | _ => exact hop.elim

def DagNode.inputNames (node : DagNode) : List String :=
  match node.kind with
  | .input _ _ => []
  | .node body => body.inputs.map Prod.fst

theorem names_resolveAll {declared resolved : Context}
    (hresolve : NodeBody.resolveAll host context declared = .ok resolved) :
    resolved.map Prod.fst = declared.map Prod.fst := by
  induction declared generalizing resolved with
  | nil =>
    cases hresolve
    rfl
  | cons entry rest ih =>
    obtain ⟨value, -, hrest⟩ := bind_eq_ok_iff.mp hresolve
    obtain ⟨others, hothers, hlist⟩ := bind_eq_ok_iff.mp hrest
    cases hlist
    rw [map_cons, map_cons, ih hothers]

theorem DagNode.plain_of_inputNames
    (hnames : patchInputKey ∉ node.inputNames) : node.Plain host := by
  unfold DagNode.inputNames at hnames
  unfold DagNode.Plain
  split
  · trivial
  · rename_i body hkind
    rw [hkind] at hnames
    intro context inputs hresolve
    unfold patchMarker
    rw [OrdDict.lookupIn_eq_none (names_resolveAll hresolve ▸ hnames)]

theorem jobSpec_ok {run : Run} {body : NodeBody} {spec : NodeJobSpec}
    (hspec : body.jobSpec host runId run node context = .ok spec) :
    spec.runId = runId ∧ spec.nodeId = node.id ∧
      NodeBody.resolveAll host context body.inputs = .ok spec.inputs := by
  obtain ⟨inputs, hinputs, hspec⟩ := bind_eq_ok_iff.mp hspec
  obtain ⟨queue, -, hspec⟩ := bind_eq_ok_iff.mp hspec
  obtain ⟨dedupKey, -, hspec⟩ := bind_eq_ok_iff.mp hspec
  obtain ⟨contextLength, -, hspec⟩ := bind_eq_ok_iff.mp hspec
  cases hspec
  exact ⟨rfl, rfl, hinputs⟩

section

variable {d : Dialect} {host : Host} {runId : String} {R G : Db → Db → Prop} {Inv : Db → Prop}
  {run : Run} {s : Db}

def Todo (runId : String) (nodes : List DagNode) (Inv : Db → Prop) (todo : List DagNode) (db : Db) :
    Prop :=
  Inv db ∧ ∀ node ∈ todo, node ∈ nodes ∧ DepsSettled runId db node

theorem attempted_eq_orSame (statement : Db → Except PyError Db) (db : Db) :
    Prog.attempted statement db = db.orSame (statement db) := by
  unfold Prog.attempted Db.orSame
  cases statement db <;> rfl

theorem readySorted_perm (ready : List DagNode) : (readySorted ready).Perm ready :=
  perm_insertionSort _ ready

theorem todo_of_ready {t : Db} (hinv : Inv t) :
    Todo runId nodes Inv (readySorted (findReadyNodes (t.listJobsForRun runId) nodes)) t := by
  refine ⟨hinv, ?_⟩
  intro node hmem
  have hready : node ∈ findReadyNodes (t.listJobsForRun runId) nodes :=
    (readySorted_perm _).mem_iff.mp hmem
  obtain ⟨hnode, hchosen⟩ := mem_filter.mp hready
  obtain ⟨-, hdeps⟩ := of_decide_eq_true hchosen
  exact ⟨hnode, fun dep hdep => nodeSettled_of_settled (all_eq_true.mp hdeps dep hdep)⟩

variable (hexpands : Expands host d runId nodes R G Inv)

include hexpands

theorem Expands.stable_todo (todo : List DagNode) : Stable R (Todo runId nodes Inv todo) := by
  rintro s t hmove ⟨hinv, hready⟩
  refine ⟨hexpands.stable s t hmove hinv, ?_⟩
  intro node hmem
  obtain ⟨hnode, hdeps⟩ := hready node hmem
  exact ⟨hnode, fun dep hdep => hexpands.keeps s t hmove dep (hdeps dep hdep)⟩

variable {node : DagNode} {rest : List DagNode}

theorem Expands.insert_safe (op : QueueOp) {insert : Db → Except PyError Db}
    (hop : op.InsertsFor host runId node) (hstep : ∀ db, op.step d db = db.orSame (insert db))
    (htodo : Todo runId nodes Inv (node :: rest) s) :
    (Prog.attempt insert).Safe R G (onReturn fun _ => Todo runId nodes Inv rest) s := by
  refine Safe.attempt fun t hsteps => ?_
  obtain ⟨hinv, hready⟩ := (hexpands.stable_todo _).steps hsteps htodo
  obtain ⟨hnode, hdeps⟩ := hready node mem_cons_self
  obtain ⟨hmove, hafter⟩ := hexpands.inserts t op node hinv hnode hdeps hop
  have hdag := (hop.orderly hnode hdeps).dagMove (d := d)
  rw [attempted_eq_orSame, ← hstep]
  refine ⟨hmove, fun u hmore => (hexpands.stable_todo rest).steps hmore ⟨hafter, ?_⟩⟩
  intro other hmem
  obtain ⟨hother, hotherDeps⟩ := hready other (mem_cons_of_mem node hmem)
  exact ⟨hother, fun dep hdep => hdag.keeps dep (hotherDeps dep hdep)⟩

theorem Expands.enqueue_safe (htodo : Todo runId nodes Inv (node :: rest) s) :
    (enqueue host runId node run).Safe R G
      (onReturn fun _ => Todo runId nodes Inv rest) s := by
  unfold enqueue
  split
  · rename_i widget target hkind
    refine hexpands.insert_safe (.enqueue (inputJobSpec runId run node widget target)) ?_
      (fun _ => rfl) htodo
    exact ⟨rfl, rfl, fun _ => rfl⟩
  · rename_i body hkind
    refine Safe.read_bind fun t hsteps => ⟨hexpands.rest t, ?_⟩
    have hthere := (hexpands.stable_todo _).steps hsteps htodo
    refine Safe.ofExcept_bind fun spec hspec => ?_
    obtain ⟨context, -, hspec⟩ := bind_eq_ok_iff.mp hspec
    obtain ⟨hrun, hnode, hinputs⟩ := jobSpec_ok hspec
    refine hexpands.insert_safe (.enqueue spec) ⟨hrun, hnode, ?_⟩ (fun _ => rfl) hthere
    intro hplain
    unfold DagNode.Plain at hplain
    rw [hkind] at hplain
    exact hplain context spec.inputs hinputs

theorem Expands.dispatchNode_safe {existing : JobMap}
    (htodo : Todo runId nodes Inv (node :: rest) s) :
    (dispatchNode host runId run existing node).Safe R G
      (onReturn fun _ => Todo runId nodes Inv rest) s := by
  refine Safe.ofExcept_bind fun skip _ => ?_
  split
  · exact hexpands.insert_safe (.insertSkipped runId node.id run.project) ⟨rfl, rfl⟩
      (fun _ => rfl) htodo
  · exact hexpands.enqueue_safe htodo

theorem Expands.processReady_safe {workflow : Workflow}
    (hnodes : nodesOf host workflow run.outDir = .ok nodes) (hinv : Inv s) (rounds newRows : ℕ) :
    (processReady host runId workflow run rounds newRows).Safe R G
      (onReturn fun _ u => ∃ t, Inv t ∧ Relation.ReflTransGen R t u ∧
        findReadyNodes (t.listJobsForRun runId) nodes = []) s := by
  induction rounds generalizing s newRows with
  | zero => trivial
  | succ rounds ih =>
    refine Safe.read_bind fun t hsteps => ⟨hexpands.rest t, ?_⟩
    have hthere := hexpands.stable.steps hsteps hinv
    refine Safe.ofExcept_bind fun found hfound => ?_
    obtain rfl := Except.ok.inj (hnodes.symm.trans hfound)
    split
    -- The read found nothing ready. What is returned later only knows that this read once did.
    · rename_i hnone
      exact fun u hmore => ⟨t, hthere, hmore, hnone⟩
    · rename_i ready first others hready
      have htodo : Todo runId nodes Inv (readySorted _) t := todo_of_ready hthere
      rw [hready] at htodo
      refine Safe.andThen (Safe.forEach hexpands.stable_todo htodo
        fun node rest u hu => hexpands.dispatchNode_safe hu) fun _ u hu => ?_
      exact ih hu.1 _

end

end BrokerParrot
