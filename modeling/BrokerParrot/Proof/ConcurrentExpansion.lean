import BrokerParrot.Lib.Serial
import BrokerParrot.Proof.FanOut
import BrokerParrot.Proof.SoloExpansion

/-!
# Expansions at the same time

Two calls that have read the same rows insert the same node, and the second one raises. As long as
no call changes what another one under way has read, and none is interrupted between its first
change and its last, each call ends as it would have in some serial order, and the rows are those of
that order.
-/

namespace BrokerParrot

open Prog Option

variable {s t : Db} {set : Run → Run} {host : Host} {runId : String} {α β : Type} {rounds : ℕ}
  {row : NodeJob}

/-! ### What an expansion depends on -/

def Run.kept (run : Run) : Run := { run with status := .queued, error := none, finishedAt := none }

def Run.closed (run : Run) : Bool := run.status = .cancelled ∨ run.status = .failed

def Run.plan (run : Run) : Run × Bool := (run.kept, run.closed)

structure ExpansionView where
  jobs : Table NodeJob
  outDirs : String → Option (List (String × Value))
  plan : String → Option (Run × Bool)
  stores : NodeJob → Bool

def expansion : ClockView Db ℚ ExpansionView where
  tune := fun now db => db.atTime now
  view := fun db => ⟨db.jobs, db.outDirs, fun id => (db.runs.get? id).map Run.plan, db.stores⟩
  view_tune := fun _ _ => rfl

section

variable (hview : expansion.view s = expansion.view t)

include hview

theorem jobs_of_view : s.jobs = t.jobs := congrArg ExpansionView.jobs hview

theorem plan_of_view (runId : String) :
    (s.runs.get? runId).map Run.plan = (t.runs.get? runId).map Run.plan :=
  congrFun (congrArg ExpansionView.plan hview) runId

theorem listJobsForRun_of_view (runId : String) :
    s.listJobsForRun runId = t.listJobsForRun runId := by
  unfold Db.listJobsForRun
  rw [jobs_of_view hview]

theorem refContext_of_view (runId : String) (run : Run) :
    refContext runId run s = refContext runId run t := by
  have hdirs : s.outDirs = t.outDirs := congrArg ExpansionView.outDirs hview
  unfold refContext
  rw [listJobsForRun_of_view hview, hdirs]

theorem rewriteJobs_of_view (rewrite : Table NodeJob → Table NodeJob) :
    expansion.view { s with jobs := rewrite s.jobs } =
      expansion.view { t with jobs := rewrite t.jobs } :=
  congrArg (fun view : ExpansionView => { view with jobs := rewrite view.jobs }) hview

theorem insertOrRaise_of_view (row : NodeJob) :
    (s.insertOrRaise row).map expansion.view = (t.insertOrRaise row).map expansion.view := by
  have hjobs := jobs_of_view hview
  have horphan : (s.runs.get? row.runId).isNone = (t.runs.get? row.runId).isNone := by
    have hplan := congrArg Option.isNone (plan_of_view hview row.runId)
    rwa [isNone_map, isNone_map] at hplan
  have htaken : s.NodeTaken row.runId row.nodeId ↔ t.NodeTaken row.runId row.nodeId := by
    unfold Db.NodeTaken
    rw [hjobs]
  have hstores : s.stores row = t.stores row :=
    congrFun (congrArg ExpansionView.stores hview) row
  unfold Db.insertOrRaise Db.insertJob
  rw [horphan]
  by_cases hrefused : t.stores row = false
  · rw [if_pos hrefused, if_pos (hstores.trans hrefused)]
  rw [if_neg hrefused, if_neg (hstores ▸ hrefused)]
  by_cases hnone : (t.runs.get? row.runId).isNone = true
  · rw [if_pos hnone, if_pos hnone]
  rw [if_neg hnone, if_neg hnone]
  by_cases htwin : t.NodeTaken row.runId row.nodeId
  · rw [if_pos htwin, if_pos (htaken.mpr htwin)]
  rw [if_neg htwin, if_neg (mt htaken.mp htwin)]
  exact congrArg Except.ok (rewriteJobs_of_view hview fun jobs => jobs.append row)

theorem enqueueNodeJob_of_view (spec : NodeJobSpec) (now : ℚ) :
    (enqueueNodeJob spec (s.atTime now)).map expansion.view =
      (enqueueNodeJob spec (t.atTime now)).map expansion.view := by
  change ((spec.row now).bind _).map _ = ((spec.row now).bind _).map _
  cases spec.row now with
  | error => rfl
  | ok row => exact insertOrRaise_of_view (s := s.atTime now) (t := t.atTime now) hview row

theorem markCompletedInTxn_of_view (id : JobId) (delta : Context) (seconds : ℚ) (peak : Option ℤ)
    (now : ℚ) :
    expansion.view (markCompletedInTxn id delta seconds peak (s.atTime now)).1 =
        expansion.view (markCompletedInTxn id delta seconds peak (t.atTime now)).1 ∧
      (markCompletedInTxn id delta seconds peak (s.atTime now)).2 =
        (markCompletedInTxn id delta seconds peak (t.atTime now)).2 := by
  have hget : (s.atTime now).jobs.get? id = (t.atTime now).jobs.get? id :=
    congrArg (fun jobs : Table NodeJob => jobs.get? id) (jobs_of_view hview)
  unfold markCompletedInTxn Db.transition
  rw [hget]
  cases (t.atTime now).jobs.get? id with
  | none => exact ⟨hview, rfl⟩
  | some row =>
    dsimp only
    by_cases hopen : row.status.Open
    · rw [if_pos hopen, if_pos hopen]
      exact ⟨rewriteJobs_of_view (s := s.atTime now) (t := t.atTime now) hview fun jobs =>
        jobs.modify id (NodeJob.complete now delta seconds peak), rfl⟩
    · rw [if_neg hopen, if_neg hopen]
      exact ⟨hview, rfl⟩

end

def ExpansionView.updatePlan (view : ExpansionView) (runId : String)
    (effect : Run × Bool → Run × Bool) : ExpansionView :=
  { view with
    plan := fun id => if id = runId then (view.plan id).map effect else view.plan id }

theorem view_updateRun (runId : String) (effect : Run × Bool → Run × Bool)
    (hset : ∀ run, (set run).plan = effect run.plan) (db : Db) :
    expansion.view (db.updateRun runId set) = (expansion.view db).updatePlan runId effect := by
  have hplan (id : String) : ((db.updateRun runId set).runs.get? id).map Run.plan =
      if id = runId then ((db.runs.get? id).map Run.plan).map effect
      else (db.runs.get? id).map Run.plan := by
    unfold Db.updateRun
    by_cases heq : id = runId
    · subst heq
      rw [if_pos rfl, OrdDict.get?_modify_self, map_map, map_map]
      exact congrArg (fun plan => (db.runs.get? id).map plan) (funext hset)
    · rw [if_neg heq, OrdDict.get?_modify_of_ne _ _ heq]
  exact congrArg (ExpansionView.mk db.jobs db.outDirs · db.stores) (funext hplan)

theorem view_markRunRunningIfExpanded (runId : String) (db : Db) :
    expansion.view (db.markRunRunningIfExpanded runId) = expansion.view db := by
  have hset (run : Run) : (if run.status = .queued ∧ db.listJobsForRun runId ≠ [] then
      { run with status := .running } else run).plan = id run.plan := by
    split
    · next hqueued => simp [Run.plan, Run.kept, Run.closed, hqueued.1]
    · rfl
  unfold Db.markRunRunningIfExpanded
  rw [view_updateRun runId id hset, ExpansionView.updatePlan]
  simp only [map_id, id_eq, ite_self]

/-! ### The calls are steady -/

section

variable {run other : Run}

theorem steady_enqueueNodeJob (spec : NodeJobSpec) :
    (Prog.attempt (enqueueNodeJob spec)).Steady expansion :=
  Steady.attempt fun time _ _ hview => enqueueNodeJob_of_view hview spec time

theorem steady_jobsByNodeId : (jobsByNodeId runId).Steady expansion :=
  Steady.read fun _ _ _ hview => listJobsForRun_of_view hview runId

theorem steady_dispatchNode (existing : JobMap) (node : DagNode) :
    (dispatchNode host runId run existing node).Steady expansion := by
  refine (Steady.ofExcept _).bind fun skip => ?_
  split
  · refine Steady.attempt fun time s t hview => ?_
    exact insertOrRaise_of_view (s := s.atTime time) (t := t.atTime time) hview _
  · unfold enqueue
    split
    · exact steady_enqueueNodeJob _
    · refine Steady.bind (Steady.read fun time s t hview => ?_) fun context => ?_
      · exact refContext_of_view (s := s.atTime time) (t := t.atTime time) hview runId run
      · exact (Steady.ofExcept _).bind fun spec => steady_enqueueNodeJob spec

theorem steady_processReady (workflow : Workflow) (rounds newRows : ℕ) :
    (processReady host runId workflow run rounds newRows).Steady expansion := by
  induction rounds generalizing newRows with
  | zero => trivial
  | succ rounds ih =>
    refine steady_jobsByNodeId.bind fun existing => ?_
    refine (Steady.ofExcept _).bind fun nodes => ?_
    split
    · trivial
    · exact (Steady.forEach (steady_dispatchNode existing)).bind fun _ => ih _

theorem steady_finishRun (status : RunStatus) (error : Option String) :
    (finishRun runId status error).Steady expansion := by
  refine Steady.write fun time s t hview => ?_
  -- The new status decides alone whether the run is given up.
  let effect (plan : Run × Bool) : Run × Bool :=
    (plan.1, decide (status = .cancelled ∨ status = .failed))
  change expansion.view ((s.atTime time).updateRun runId _) =
    expansion.view ((t.atTime time).updateRun runId _)
  rw [view_updateRun runId effect fun _ => rfl, view_updateRun runId effect fun _ => rfl]
  exact congrArg (fun view : ExpansionView => view.updatePlan runId effect) hview

theorem steady_bumpInputSpec (target : String) (fields : List (String × Option Value)) :
    (bumpInputSpec runId target fields).Steady expansion := by
  unfold bumpInputSpec
  split
  · trivial
  refine steady_jobsByNodeId.bind fun existing => ?_
  split
  · refine Steady.write fun time s t hview => ?_
    exact rewriteJobs_of_view (s := s.atTime time) (t := t.atTime time) hview fun jobs =>
      jobs.update fun _ => editSpec runId target _
  · trivial

theorem steady_finishPatchJob (job : NodeJob) (patch : Context) :
    (finishPatchJob host runId run job patch).Steady expansion := by
  refine steady_jobsByNodeId.bind fun existing => ?_
  refine (Steady.ofExcept _).bind fun _ => ?_
  refine Steady.bind (Steady.read fun _ _ _ _ => rfl) fun now => ?_
  exact steady_bumpInputSpec _ _

theorem processReady_kept (workflow : Workflow) (rounds : ℕ) :
    processReady host runId workflow run rounds =
      processReady host runId workflow run.kept rounds := by
  induction rounds with
  | zero => rfl
  | succ rounds ih =>
    funext newRows
    unfold processReady
    rw [ih]
    rfl

theorem processReady_of_kept (hkept : run.kept = other.kept) (workflow : Workflow) (rounds : ℕ) :
    processReady host runId workflow run rounds =
      processReady host runId workflow other rounds := by
  rw [processReady_kept, hkept, ← processReady_kept]

theorem steady_getRun_bind {next : Option Run → DbProg α}
    (hnext : ∀ found, (next found).Steady expansion)
    (hsame : ∀ run other : Run, run.plan = other.plan → next (some run) = next (some other)) :
    (getRun runId >>= next).Steady expansion := by
  intro time s t hview
  refine ⟨hview, ?_, hnext _⟩
  have hplan := plan_of_view hview runId
  change next (s.runs.get? runId) = next (t.runs.get? runId)
  cases hs : s.runs.get? runId with
  | none =>
    rw [hs] at hplan
    rw [map_eq_none_iff.mp hplan.symm]
  | some run =>
    rw [hs, map_some] at hplan
    obtain ⟨other, hother, heq⟩ := map_eq_some_iff.mp hplan.symm
    rw [hother]
    exact hsame run other heq.symm

theorem steady_startRun (rounds : ℕ) : (startRun host rounds runId).Steady expansion := by
  refine steady_getRun_bind ?_ ?_
  · rintro (_ | run)
    · trivial
    refine (Steady.ofExcept _).bind fun workflow => ?_
    split
    · exact (steady_finishRun _ _).bind fun _ => trivial
    · trivial
    · refine (steady_processReady workflow rounds 0).bind fun newRows => ?_
      refine Steady.bind (Steady.write fun time s t hview => ?_) fun _ => trivial
      rwa [view_markRunRunningIfExpanded, view_markRunRunningIfExpanded]
  · intro run other hplan
    obtain ⟨hkept, -⟩ := Prod.mk.inj hplan
    have hname : run.workflowName = other.workflowName := congrArg (·.workflowName) hkept
    have hassert (workflow : Workflow) : assertGpuNodesDeclareModel host workflow run =
        assertGpuNodesDeclareModel host workflow other := by
      unfold assertGpuNodesDeclareModel
      rw [show run.outDir = other.outDir from congrArg (·.outDir) hkept]
    simp only [hname, hassert, processReady_of_kept hkept]

theorem steady_onNodeCompleted (rounds : ℕ) (node : String) :
    (onNodeCompleted host rounds runId node).Steady expansion := by
  refine steady_getRun_bind ?_ ?_
  · rintro (_ | run)
    · trivial
    dsimp only
    split
    · trivial
    refine steady_jobsByNodeId.bind fun jobs => ?_
    split
    · exact (steady_finishPatchJob _ _).bind fun _ => trivial
    refine (Steady.ofExcept _).bind fun workflow => ?_
    refine (steady_processReady workflow rounds 0).bind fun newRows => ?_
    refine steady_jobsByNodeId.bind fun existing => ?_
    refine (Steady.ofExcept _).bind fun nodes => ?_
    split
    · exact (steady_finishRun _ _).bind fun _ => trivial
    · trivial
  · intro run other hplan
    obtain ⟨hkept, hclosed⟩ := Prod.mk.inj hplan
    have hname : run.workflowName = other.workflowName := congrArg (·.workflowName) hkept
    have hdir : run.outDir = other.outDir := congrArg (·.outDir) hkept
    have hpatch : finishPatchJob host runId run = finishPatchJob host runId other := by
      unfold finishPatchJob
      rw [hdir]
    have hgone : (run.status = .cancelled ∨ run.status = .failed) ↔
        (other.status = .cancelled ∨ other.status = .failed) := by
      exact decide_eq_decide.mp hclosed
    simp only [hname, hdir, processReady_of_kept hkept, hpatch, hgone]

theorem steady_resumeAfterInput (rounds : ℕ) (node : String) (value : Value) :
    (resumeAfterInput host rounds runId node value).Steady expansion := by
  refine steady_jobsByNodeId.bind fun jobs => ?_
  split
  · trivial
  split
  · trivial
  refine (Steady.ofExcept _).bind fun delta => ?_
  refine Steady.bind (Steady.exec fun time s t hview => ?_) fun _ => ?_
  · exact markCompletedInTxn_of_view hview _ delta 0 none time
  · exact steady_onNodeCompleted rounds node

end

/-! ### Errors that are not about a taken node -/

def clash : PyError := .integrity .uniqueViolation

structure Host.Honest (host : Host) : Prop where
  loadWorkflow : ∀ name, host.loadWorkflow name ≠ .error clash
  pipelineSchema : ∀ name, host.pipelineSchema name ≠ .error clash
  resolveRef : ∀ value context, host.resolveRef value context ≠ .error clash
  copyFiles : ∀ files, host.copyFiles files ≠ .error clash

section

variable (hhonest : host.Honest)

theorem bind_ne_clash {result : Except PyError α} {next : α → Except PyError β}
    (hresult : result ≠ .error clash) (hnext : ∀ value, next value ≠ .error clash) :
    result >>= next ≠ .error clash := by
  cases result with
  | error => exact fun heq => hresult (congrArg Except.error (Except.error.inj heq))
  | ok value => exact hnext value

theorem guard_ne_clash {wrong : Prop} [Decidable wrong] {text : String}
    {next : Unit → Except PyError β} (hnext : next () ≠ .error clash) :
    (if wrong then throw (.valueError text) >>= next else next ()) ≠ .error clash := by
  split
  · simp [clash, throw, throwThe, MonadExceptOf.throw, bind, Except.bind]
  · exact hnext

theorem schemaLeaves_ne_clash (stepId : String) (nodes : List SchemaNode) :
    schemaLeaves stepId nodes ≠ .error clash := by
  unfold schemaLeaves
  dsimp only
  split
  · simp
  · split <;> simp [clash]

theorem validateContextLength_ne_clash (length : Option ℤ) :
    validateContextLength length ≠ .error clash := by
  unfold validateContextLength
  split
  · simp
  · split <;> simp [clash]

theorem row_ne_clash (spec : NodeJobSpec) (now : ℚ) : spec.row now ≠ .error clash := by
  have hslots (slots : Option GpuSlots) : normaliseGpuSlots slots ≠ .error clash := by
    unfold normaliseGpuSlots
    split <;> try simp
    split <;> simp [clash]
  have hvalidated : spec.validated ≠ .error clash := by
    unfold NodeJobSpec.validated
    refine guard_ne_clash ?_
    refine bind_ne_clash (validateContextLength_ne_clash _) fun length => ?_
    refine guard_ne_clash (guard_ne_clash ?_)
    refine bind_ne_clash (hslots _) fun slots => ?_
    exact guard_ne_clash (by simp [pure, Except.pure])
  unfold NodeJobSpec.row
  cases hresult : spec.validated with
  | ok => simp [Except.map]
  | error =>
    rw [hresult] at hvalidated
    exact fun heq => hvalidated (congrArg Except.error (Except.error.inj heq))

theorem addFiles_ne_clash (context : Context) (dirs : List (String × Value)) :
    addFiles context dirs ≠ .error clash := by
  induction dirs generalizing context with
  | nil => simp [addFiles]
  | cons dir rest ih =>
    unfold addFiles
    split
    · exact ih _
    · simp [clash]

theorem refContext_ne_clash (runId : String) (run : Run) (db : Db) :
    refContext runId run db ≠ .error clash := by
  unfold refContext
  dsimp only
  split
  · simp
  · exact addFiles_ne_clash _ _

theorem submittedDelta_ne_clash (job : NodeJob) (value : Value) :
    submittedDelta host job value ≠ .error clash := by
  unfold submittedDelta
  split <;> simp [clash]

include hhonest

theorem stepLeaves_ne_clash (leaves : OrdDict String (List String)) (steps : List Step) :
    stepLeaves host leaves steps ≠ .error clash := by
  induction steps generalizing leaves with
  | nil => simp [stepLeaves]
  | cons step rest ih =>
    unfold stepLeaves
    split
    · exact ih _
    · refine bind_ne_clash (hhonest.pipelineSchema _) fun schema => ?_
      exact bind_ne_clash (schemaLeaves_ne_clash _ _) fun ids => ih _
    · exact ih _

theorem expandSteps_ne_clash (leaves : OrdDict String (List String)) (outDir : Option String)
    (steps : List Step) : expandSteps host leaves outDir steps ≠ .error clash := by
  have hstep (step : Step) : stepNodes host leaves outDir step ≠ .error clash := by
    unfold stepNodes
    split
    · simp
    · exact bind_ne_clash (hhonest.pipelineSchema _) fun schema => by simp [pure, Except.pure]
    · simp
  induction steps with
  | nil => simp [expandSteps]
  | cons step rest ih =>
    refine bind_ne_clash (hstep step) fun nodes => ?_
    exact bind_ne_clash ih fun others => by simp [pure, Except.pure]

theorem nodesOf_ne_clash (workflow : Workflow) (outDir : Option String) :
    nodesOf host workflow outDir ≠ .error clash :=
  bind_ne_clash (stepLeaves_ne_clash hhonest _ _) fun leaves =>
    expandSteps_ne_clash hhonest leaves outDir _

theorem assertGpuNodesDeclareModel_ne_clash (workflow : Workflow) (run : Run) :
    assertGpuNodesDeclareModel host workflow run ≠ .error clash := by
  refine bind_ne_clash (nodesOf_ne_clash hhonest workflow run.outDir) fun nodes => ?_
  dsimp only
  split <;> simp [clash, throw, throwThe, MonadExceptOf.throw, pure, Except.pure]

theorem shouldSkipNode_ne_clash (node : DagNode) (run : Run) (existing : JobMap) :
    shouldSkipNode host node run existing ≠ .error clash := by
  unfold shouldSkipNode
  split
  · have hresolve := hhonest.resolveRef node.skipIf (evalSkipContext run existing)
    split
    · simp
    · simp
    · simp
    · next raised _ _ hraised =>
      rw [hraised] at hresolve
      exact fun heq => hresolve (congrArg Except.error (Except.error.inj heq))
  · simp

theorem resolveAll_ne_clash (context inputs : Context) :
    NodeBody.resolveAll host context inputs ≠ .error clash := by
  induction inputs with
  | nil => simp [NodeBody.resolveAll]
  | cons input rest ih =>
    refine bind_ne_clash (hhonest.resolveRef _ _) fun value => ?_
    exact bind_ne_clash ih fun others => by simp [pure, Except.pure]

theorem contextLengthOf_ne_clash (id : String) (body : NodeBody) (context : Context) :
    body.contextLengthOf host id context ≠ .error clash := by
  unfold NodeBody.contextLengthOf
  split
  · simp
  · refine bind_ne_clash (hhonest.resolveRef _ _) fun value => ?_
    split
    · simp [pure, Except.pure]
    · simp [pure, Except.pure]
    · split
      · simp [pure, Except.pure]
      · simp [clash, throw, throwThe, MonadExceptOf.throw]
      · next raised _ hraised =>
        obtain ⟨whole, -, hwhole⟩ := map_eq_some_iff.mp hraised
        rintro heq
        obtain rfl : raised = clash := Except.error.inj heq
        exact validateContextLength_ne_clash (some whole) hwhole
      · simp [clash, throw, throwThe, MonadExceptOf.throw]

theorem jobSpec_ne_clash (runId : String) (run : Run) (node : DagNode) (body : NodeBody)
    (context : Context) : body.jobSpec host runId run node context ≠ .error clash := by
  have hqueue : body.queueOf host node.id ≠ .error clash := by
    unfold NodeBody.queueOf
    split
    · split <;> simp [clash]
    · simp
  have hdedup : body.dedupKeyOf host context ≠ .error clash := by
    unfold NodeBody.dedupKeyOf
    split
    · simp
    · exact bind_ne_clash (hhonest.resolveRef _ _) fun value => by simp [pure, Except.pure]
  refine bind_ne_clash (resolveAll_ne_clash hhonest context _) fun inputs => ?_
  refine bind_ne_clash hqueue fun queue => ?_
  refine bind_ne_clash hdedup fun key => ?_
  refine bind_ne_clash (contextLengthOf_ne_clash hhonest node.id body context) fun length => ?_
  simp [pure, Except.pure]

end

/-! ### A call alone -/

/-- With nobody else about, the program does not find a node taken that it has read to be free. -/
def ClashFree {α : Type} (post : α → Db → Prop) (prog : DbProg α) (s : Db) : Prop :=
  prog.Safe expansion.Ticks (fun _ _ => True) (Prog.onEnd (· ≠ clash) post) s

def Untaken (runId : String) (nodes : List DagNode) (db : Db) : Prop :=
  (nodes.map DagNode.id).Nodup ∧ ∀ node ∈ nodes, ¬ db.NodeTaken runId node.id

def DistinctNodes (host : Host) (runId : String) (db : Db) : Prop :=
  ∀ run workflow nodes, db.runs.get? runId = some run →
    host.loadWorkflow run.workflowName = .ok workflow →
    nodesOf host workflow run.outDir = .ok nodes → (nodes.map DagNode.id).Nodup

section

variable {run : Run} {node : DagNode} {rest nodes : List DagNode}

theorem ClashFree.bind {prog : DbProg α} {next : α → DbProg β} {mid : α → Db → Prop}
    {post : β → Db → Prop} (hprog : ClashFree mid prog s)
    (hnext : ∀ value t, mid value t → ClashFree post (next value) t) :
    ClashFree post (prog >>= next) s :=
  Safe.bind hprog hnext fun _ _ herror => herror

theorem ClashFree.read_bind {look : Db → α} {next : α → DbProg β} {post : β → Db → Prop}
    (hnext : ∀ t, Relation.ReflTransGen expansion.Ticks s t → ClashFree post (next (look t)) t) :
    ClashFree post (Prog.read look >>= next) s :=
  Safe.read_bind fun t hsteps => ⟨trivial, hnext t hsteps⟩

theorem ClashFree.ofExcept_bind {result : Except PyError α} {next : α → DbProg β}
    {post : β → Db → Prop} (hresult : result ≠ .error clash)
    (hnext : ∀ value, result = .ok value → ClashFree post (next value) s) :
    ClashFree post (ofExcept result >>= next) s := by
  refine Safe.ofExcept_bind_onEnd ?_ hnext
  rintro raised hraised rfl
  exact hresult hraised

theorem stable_untaken (nodes : List DagNode) :
    Stable expansion.Ticks (Untaken runId nodes) := by
  rintro s _ ⟨time, rfl⟩ huntaken
  exact huntaken

theorem stable_distinctNodes : Stable expansion.Ticks (DistinctNodes host runId) := by
  rintro s _ ⟨time, rfl⟩ hdistinct
  exact hdistinct

theorem nodeTaken_of_clash (hclash : s.insertOrRaise row = .error clash) :
    s.NodeTaken row.runId row.nodeId := by
  by_contra hfree
  unfold Db.insertOrRaise Db.insertJob at hclash
  split at hclash
  · simp at hclash
  · next violation hviolation =>
    obtain rfl : violation = .uniqueViolation := by cases hclash; rfl
    split_ifs at hviolation <;> cases hviolation

section

variable (huntaken : Untaken runId (node :: rest) s)

include huntaken

theorem Untaken.insert (hnode : row.nodeId = node.id) (hinsert : s.insertOrRaise row = .ok t) :
    Untaken runId rest t := by
  obtain ⟨hdistinct, hfree⟩ := huntaken
  obtain ⟨hfirst, hothers⟩ := List.nodup_cons.mp hdistinct
  obtain ⟨-, rfl⟩ := Db.insertOrRaise_ok hinsert
  refine ⟨hothers, fun other hmem htaken => ?_⟩
  obtain ⟨id, found, hget, hrun, hid⟩ := Db.nodeTaken_iff.mp htaken
  rcases Table.get?_append_eq_some hget with ⟨-, rfl⟩ | hold
  · rw [hnode] at hid
    exact hfirst (hid ▸ List.mem_map_of_mem hmem)
  · exact hfree other (List.mem_cons_of_mem node hmem)
      (Db.nodeTaken_iff.mpr ⟨id, found, hold, hrun, hid⟩)

theorem clashFree_insert {statement : Db → Except PyError Db}
    (hrow : ∀ t, statement t ≠ .error clash ∨ ∃ row : NodeJob, row.runId = runId ∧
      row.nodeId = node.id ∧ statement t = t.insertOrRaise row)
    (hok : ∀ t u, statement t = .ok u → ∃ row : NodeJob, row.nodeId = node.id ∧
      t.insertOrRaise row = .ok u) :
    ClashFree (fun _ => Untaken runId rest) (Prog.attempt statement) s := by
  intro t hsteps
  have hnow := (stable_untaken (node :: rest)).steps hsteps huntaken
  refine ⟨trivial, ?_⟩
  dsimp only [Prog.attempted]
  cases hresult : statement t with
  | ok u =>
    obtain ⟨row, hnode, hinsert⟩ := hok t u hresult
    exact fun v hmore => (stable_untaken rest).steps hmore (hnow.insert hnode hinsert)
  | error raised =>
    rintro v -
    rintro (rfl : raised = clash)
    rcases hrow t with hother | ⟨row, hrun, hnode, hinsert⟩
    · exact hother hresult
    · have htaken := nodeTaken_of_clash (hinsert.symm.trans hresult)
      rw [hrun, hnode] at htaken
      exact hnow.2 node List.mem_cons_self htaken

theorem clashFree_enqueueNodeJob {spec : NodeJobSpec} (hrun : spec.runId = runId)
    (hnode : spec.nodeId = node.id) :
    ClashFree (fun _ => Untaken runId rest) (Prog.attempt (enqueueNodeJob spec)) s := by
  have hcell {now : ℚ} {row : NodeJob} (hrow : spec.row now = .ok row) :
      row.runId = runId ∧ row.nodeId = node.id := by
    obtain ⟨_, _, rfl⟩ := NodeJobSpec.row_ok hrow
    exact ⟨hrun, hnode⟩
  refine clashFree_insert huntaken ?_ ?_
  · intro t
    unfold enqueueNodeJob
    cases hrow : spec.row t.now with
    | error =>
      refine Or.inl fun heq => row_ne_clash spec t.now ?_
      exact hrow.trans (congrArg Except.error (Except.error.inj heq))
    | ok row => exact Or.inr ⟨row, (hcell hrow).1, (hcell hrow).2, rfl⟩
  · intro t u hok
    obtain ⟨row, hrow, hinsert⟩ := enqueueNodeJob_ok hok
    exact ⟨row, (hcell hrow).2, hinsert⟩

end

theorem untaken_readySorted (runId : String) (s : Db) (hdistinct : (nodes.map DagNode.id).Nodup) :
    Untaken runId (readySorted (findReadyNodes (s.listJobsForRun runId) nodes)) s := by
  have hperm := readySorted_perm (findReadyNodes (s.listJobsForRun runId) nodes)
  constructor
  · refine (hperm.map DagNode.id).nodup_iff.mpr ?_
    exact hdistinct.sublist (List.filter_sublist.map DagNode.id)
  · intro node hmem
    have hready := (List.mem_filter.mp (hperm.mem_iff.mp hmem)).2
    have hnone := (of_decide_eq_true hready).1
    exact JobMap.get?_eq_none.mp (isNone_iff_eq_none.mp hnone)

theorem DistinctNodes.of_source (hdistinct : DistinctNodes host runId s)
    (hsource : (t.runs.get? runId).map Run.source = (s.runs.get? runId).map Run.source) :
    DistinctNodes host runId t := by
  intro run workflow nodes hget hload hnodes
  rw [hget, map_some] at hsource
  obtain ⟨before, hbefore, hsame⟩ := map_eq_some_iff.mp hsource.symm
  obtain ⟨hname, hdir⟩ := Prod.mk.inj hsame
  exact hdistinct before workflow nodes hbefore (hname ▸ hload) (hdir ▸ hnodes)

variable (hhonest : host.Honest)

include hhonest

theorem clashFree_dispatchNode (existing : JobMap) (huntaken : Untaken runId (node :: rest) s) :
    ClashFree (fun _ => Untaken runId rest) (dispatchNode host runId run existing node) s := by
  refine ClashFree.ofExcept_bind (shouldSkipNode_ne_clash hhonest node run existing) ?_
  intro skip _
  split
  · refine clashFree_insert huntaken ?_ ?_
    · exact fun t => Or.inr ⟨_, rfl, rfl, rfl⟩
    · exact fun t u hok => ⟨_, rfl, hok⟩
  unfold enqueue
  split
  · exact clashFree_enqueueNodeJob huntaken rfl rfl
  · next body _ =>
    refine ClashFree.read_bind fun t hsteps => ?_
    have hnow := (stable_untaken (node :: rest)).steps hsteps huntaken
    refine ClashFree.ofExcept_bind (bind_ne_clash (refContext_ne_clash runId run t) fun context =>
      jobSpec_ne_clash hhonest runId run node body context) ?_
    intro spec hspec
    obtain ⟨context, -, hjob⟩ := Except.bind_eq_ok_iff.mp hspec
    obtain ⟨hrun, hnode, -⟩ := jobSpec_ok hjob
    exact clashFree_enqueueNodeJob hnow hrun hnode

theorem clashFree_forEach (existing : JobMap) (huntaken : Untaken runId nodes s) :
    ClashFree (fun _ => Untaken runId [])
      (forEach nodes (dispatchNode host runId run existing)) s :=
  Safe.forEach_onEnd stable_untaken huntaken fun _ _ _ hfree =>
    clashFree_dispatchNode hhonest existing hfree

theorem clashFree_processReady {workflow : Workflow}
    (hdistinct : ∀ nodes, nodesOf host workflow run.outDir = .ok nodes →
      (nodes.map DagNode.id).Nodup) (rounds newRows : ℕ) (s : Db) :
    ClashFree (fun _ _ => True) (processReady host runId workflow run rounds newRows) s := by
  induction rounds generalizing newRows s with
  | zero => trivial
  | succ rounds ih =>
    refine ClashFree.read_bind fun t hsteps => ?_
    refine ClashFree.ofExcept_bind (nodesOf_ne_clash hhonest workflow run.outDir) ?_
    intro nodes hnodes
    have huntaken := untaken_readySorted runId t (hdistinct nodes hnodes)
    split
    · exact fun _ _ => trivial
    · next hready =>
      rw [hready] at huntaken
      exact (clashFree_forEach hhonest _ huntaken).bind fun _ u _ => ih _ u

theorem clashFree_finishPatchJob (job : NodeJob) (patch : Context) :
    ClashFree (fun _ _ => True) (finishPatchJob host runId run job patch) s := by
  refine ClashFree.read_bind fun t _ => ?_
  refine ClashFree.ofExcept_bind (hhonest.copyFiles _) fun _ _ => ?_
  refine ClashFree.read_bind fun u _ => ?_
  unfold bumpInputSpec
  split
  · exact fun _ _ => trivial
  refine ClashFree.read_bind fun v _ => ?_
  split
  · exact fun _ _ => ⟨trivial, fun _ _ => trivial⟩
  · exact fun _ _ => trivial

variable (hdistinct : DistinctNodes host runId s)

include hdistinct

theorem clashFree_startRun (rounds : ℕ) :
    ClashFree (fun _ _ => True) (startRun host rounds runId) s := by
  refine ClashFree.read_bind fun t hsteps => ?_
  have hnow := stable_distinctNodes.steps hsteps hdistinct
  cases hget : t.runs.get? runId with
  | none => exact fun _ _ => by simp [onEnd, clash]
  | some run =>
    refine ClashFree.ofExcept_bind (hhonest.loadWorkflow _) fun workflow hload => ?_
    have hassert := assertGpuNodesDeclareModel_ne_clash hhonest workflow run
    split
    · exact fun _ _ => ⟨trivial, fun _ _ => trivial⟩
    · next raised _ hraised =>
      rintro _ -
      rintro (rfl : raised = clash)
      exact hassert hraised
    · refine (clashFree_processReady hhonest (hnow run workflow · hget hload) rounds 0 t).bind
        fun newRows u _ => ?_
      exact fun _ _ => ⟨trivial, fun _ _ => trivial⟩

theorem clashFree_onNodeCompleted (rounds : ℕ) (node : String) :
    ClashFree (fun _ _ => True) (onNodeCompleted host rounds runId node) s := by
  refine ClashFree.read_bind fun t hsteps => ?_
  have hnow := stable_distinctNodes.steps hsteps hdistinct
  cases hget : t.runs.get? runId with
  | none => exact fun _ _ => trivial
  | some run =>
    dsimp only
    split
    · exact fun _ _ => trivial
    refine ClashFree.read_bind fun u _ => ?_
    split
    · exact (clashFree_finishPatchJob hhonest _ _).bind fun _ _ _ => fun _ _ => trivial
    refine ClashFree.ofExcept_bind (hhonest.loadWorkflow _) fun workflow hload => ?_
    refine (clashFree_processReady hhonest (hnow run workflow · hget hload) rounds 0 u).bind
      fun newRows v _ => ?_
    refine ClashFree.read_bind fun w _ => ?_
    refine ClashFree.ofExcept_bind (nodesOf_ne_clash hhonest workflow run.outDir) ?_
    intro nodes _
    split
    · exact fun _ _ => ⟨trivial, fun _ _ => trivial⟩
    · exact fun _ _ => trivial

theorem clashFree_resumeAfterInput (rounds : ℕ) (node : String) (value : Value) :
    ClashFree (fun _ _ => True) (resumeAfterInput host rounds runId node value) s := by
  refine ClashFree.read_bind fun t hsteps => ?_
  have hnow := stable_distinctNodes.steps hsteps hdistinct
  split
  · exact fun _ _ => by simp [onEnd, clash]
  split
  · exact fun _ _ => trivial
  refine ClashFree.ofExcept_bind (submittedDelta_ne_clash _ _) fun delta _ => ?_
  refine Safe.exec_bind fun u hmore => ⟨trivial, ?_⟩
  have hlater := stable_distinctNodes.steps hmore hnow
  refine clashFree_onNodeCompleted hhonest (hlater.of_source ?_) rounds node
  exact congrArg (fun runs : OrdDict String Run => (runs.get? runId).map Run.source)
    (u.transition_jobsOnly _ _).runs

end

/-! ### The calls together -/

inductive Expander where
  | startRun
  | onNodeCompleted (node : String)
  | resumeAfterInput (node : String) (value : Value)

def Expander.call (runId : String) : Expander → Call
  | startRun => .startRun runId
  | onNodeCompleted node => .onNodeCompleted runId node
  | resumeAfterInput node value => .resumeAfterInput runId node value

def expanders {ι : Type} (host : Host) (runId : String) (db : Db) (calls : ι → Expander × ℕ) :
    Crew ι Db PyError CallResult where
  shared := db
  progs := fun i => ((calls i).1.call runId).prog host (calls i).2

theorem steady_call (expander : Expander) (rounds : ℕ) :
    ((expander.call runId).prog host rounds).Steady expansion := by
  cases expander with
  | startRun => exact (steady_startRun rounds).bind fun _ => trivial
  | onNodeCompleted node => exact (steady_onNodeCompleted rounds node).bind fun _ => trivial
  | resumeAfterInput node value =>
    exact (steady_resumeAfterInput rounds node value).bind fun _ => trivial

theorem clashFree_call (hhonest : host.Honest) (hdistinct : DistinctNodes host runId s)
    (expander : Expander) (rounds : ℕ) :
    ClashFree (fun _ _ => True) ((expander.call runId).prog host rounds) s := by
  cases expander with
  | startRun =>
    exact (clashFree_startRun hhonest hdistinct rounds).bind fun _ _ _ _ _ => trivial
  | onNodeCompleted node =>
    exact (clashFree_onNodeCompleted hhonest hdistinct rounds node).bind fun _ _ _ _ _ => trivial
  | resumeAfterInput node value =>
    exact (clashFree_resumeAfterInput hhonest hdistinct rounds node value).bind
      fun _ _ _ _ _ => trivial

def SameSource (runId : String) (s t : Db) : Prop :=
  (t.runs.get? runId).map Run.source = (s.runs.get? runId).map Run.source

theorem SameSource.of_sameRuns (hsame : SameRuns s t) : SameSource runId s t :=
  congrArg (fun runs : OrdDict String Run => (runs.get? runId).map Run.source) hsame

theorem SameSource.of_updateRun (hset : ∀ run, (set run).source = run.source) :
    SameSource runId s (s.updateRun runId set) :=
  source_updateRun s runId runId hset

theorem sameSource_call (expander : Expander) (rounds : ℕ) :
    ((expander.call runId).prog host rounds).Moves (SameSource runId) := by
  have hmoves := call_movesTo host (expander.call runId) rounds
  have hrun : (expander.call runId).runId = runId := by cases expander <;> rfl
  rw [hrun] at hmoves
  refine hmoves.moves (fun _ _ => SameSource.of_sameRuns) ?_
  rintro s _ ⟨set, rfl, hset⟩
  exact SameSource.of_updateRun hset

theorem DistinctNodes.of_ends {expander : Expander} {result : Except PyError CallResult}
    (hdistinct : DistinctNodes host runId s)
    (hends : Ends expansion.Ticks ((expander.call runId).prog host rounds) s result t) :
    DistinctNodes host runId t := by
  have hmoves : ((expander.call runId).prog host rounds).Moves (SameSource runId) :=
    sameSource_call expander rounds
  have hown : Stable (SameSource runId) (DistinctNodes host runId) :=
    fun _ _ hsource hnodes => hnodes.of_source hsource
  exact (Safe.of_moves (G := fun _ _ => True) hmoves (fun _ _ _ _ => trivial)
    stable_distinctNodes hown hdistinct).of_ends hends

section

variable {ι : Type} {db : Db} {calls : ι → Expander × ℕ}

theorem serially_clashFree (hhonest : host.Honest) (hdistinct : DistinctNodes host runId db)
    {order : List (ι × Except PyError CallResult)}
    (hserially : (expanders host runId db calls).Serially expansion order t) :
    DistinctNodes host runId t ∧ ∀ entry ∈ order, entry.2 ≠ .error clash := by
  induction order generalizing t with
  | nil =>
    obtain rfl : t = db := hserially
    exact ⟨hdistinct, by simp⟩
  | cons last before ih =>
    obtain ⟨s, hbefore, hends⟩ := hserially
    obtain ⟨hstart, hothers⟩ := ih hbefore
    refine ⟨hstart.of_ends hends, ?_⟩
    intro entry hmem
    rcases List.mem_cons.mp hmem with rfl | hmem
    · have hend := (clashFree_call hhonest hstart _ _).of_ends hends
      intro hclash
      rw [hclash] at hend
      exact hend rfl
    · exact hothers entry hmem

theorem outcome_call (expander : Expander) (rounds : ℕ) :
    ((expander.call runId).prog host rounds).outcome = none := by
  cases expander <;> rfl

variable [DecidableEq ι]

/-- **Considerate expansions amount to a serial order.** And nobody has found a node taken, unless
the workflow or the host is to blame. -/
theorem expansion_serializable (host : Host) (runId : String) (db : Db) (calls : ι → Expander × ℕ)
    (history : List (ι × ℚ))
    (hconsiderate : (expanders host runId db calls).Considerate expansion history) :
    let crew := expanders host runId db calls
    let after := crew.run expansion history
    (∃ order t, (order.map Prod.fst).Nodup ∧ crew.Serially expansion order t ∧
      (∀ i result, (after.progs i).outcome = some result → (i, result) ∈ order) ∧
      ((∀ i, (after.progs i).outcome.isSome) → after.shared.jobs = t.jobs)) ∧
    (host.Honest → DistinctNodes host runId db →
      ∀ i, (after.progs i).outcome ≠ some (.error clash)) := by
  intro crew after
  obtain ⟨order, t, hnodup, hserially, hmem, hview⟩ :=
    Crew.serializable (fun i => steady_call (calls i).1 (calls i).2) hconsiderate
  have hresult : ∀ i result, (after.progs i).outcome = some result → (i, result) ∈ order := by
    intro i result houtcome
    refine hmem i result (fun hnil => ?_) houtcome
    have hinitial : after.progs i = crew.progs i := Crew.progs_eq_of_times_nil hnil
    rw [hinitial] at houtcome
    cases (outcome_call _ _).symm.trans houtcome
  refine ⟨⟨order, t, hnodup, hserially, hresult, ?_⟩, ?_⟩
  · exact fun hended => (jobs_of_view (hview hended)).symm
  · intro hhonest hdistinct i hclash
    exact (serially_clashFree hhonest hdistinct hserially).2 _ (hresult i _ hclash) rfl

end

/-! ### Two starts -/

def twoStarts : Crew Bool Db PyError CallResult :=
  expanders oneInputHost "run" freshDb fun _ => (.startRun, 2)

theorem twoStarts_mayMove {history : List (Bool × ℚ)} (mover : Bool) (time : ℚ)
    (hclean : ¬ twoStarts.Wrote expansion history !mover)
    (hfree : twoStarts.Undisturbed expansion (history ++ [(mover, time)]) !mover) :
    twoStarts.MayMove expansion history (mover, time) := by
  refine Or.inr fun other hne => Or.inr ?_
  obtain rfl : other = !mover := Bool.eq_not.mpr hne
  exact ⟨hclean, hfree⟩

/-- The second call has read the run when the first one inserts, and the first one is not over when
the second one goes on. -/
def overlap : List (Bool × ℚ) :=
  [(false, 0), (true, 0), (false, 0), (false, 1), (false, 1), (true, 2), (true, 2), (false, 3)]

theorem settled_mark (newRows : ℕ) :
    Settled expansion (do
      Prog.write fun db => db.markRunRunningIfExpanded "run"
      return CallResult.rows newRows : DbProg CallResult) :=
  ⟨.ok (.rows newRows), fun db => ⟨view_markRunRunningIfExpanded "run" db, rfl⟩⟩

theorem overlap_considerate : twoStarts.Considerate expansion overlap := by
  have hfirst : ¬ twoStarts.Wrote expansion (overlap.take 1) false :=
    Crew.not_wrote_snoc Crew.not_wrote_nil fun _ => rfl
  have hstart : ¬ twoStarts.Wrote expansion (overlap.take 1) true :=
    Crew.not_wrote_snoc Crew.not_wrote_nil (by simp)
  have hreads : ¬ twoStarts.Wrote expansion (overlap.take 2) true :=
    Crew.not_wrote_snoc hstart fun _ => rfl
  have hwaits : ¬ twoStarts.Wrote expansion (overlap.take 3) true :=
    Crew.not_wrote_snoc hreads (by simp)
  have hinserted : ¬ twoStarts.Wrote expansion (overlap.take 4) true :=
    Crew.not_wrote_snoc hwaits (by simp)
  -- The first call inserts while the second has only read the run.
  have hbefore : twoStarts.Considerate expansion (overlap.take 5) := by
    refine Crew.Considerate.snoc ?_ (twoStarts_mayMove false 1 hinserted ⟨rfl, rfl⟩)
    refine Crew.Considerate.snoc ?_ (twoStarts_mayMove false 1 hwaits ⟨rfl, rfl⟩)
    refine Crew.Considerate.snoc ?_ (twoStarts_mayMove false 0 hreads ⟨rfl, rfl⟩)
    refine Crew.Considerate.snoc ?_ (twoStarts_mayMove true 0 hfirst ⟨rfl, rfl⟩)
    exact Crew.Considerate.nil.snoc (twoStarts_mayMove false 0 Crew.not_wrote_nil ⟨rfl, rfl⟩)
  -- Then it is settled, and so is the second one after its look at the rows.
  have hlook : twoStarts.MayMove expansion (overlap.take 5) (true, 2) := by
    refine Or.inr fun other hne => Or.inl ?_
    obtain rfl : other = false := Bool.eq_not.mpr hne
    exact settled_mark 1
  have hmark : twoStarts.MayMove expansion (overlap.take 6) (true, 2) := Or.inl (settled_mark 0)
  have hlast : twoStarts.MayMove expansion (overlap.take 7) (false, 3) := Or.inl (settled_mark 1)
  exact ((hbefore.snoc hlook).snoc hmark).snoc hlast

theorem expansion_serializable_overlap :
    let after := twoStarts.run expansion overlap
    ∃ order t, (order.map Prod.fst).Nodup ∧ twoStarts.Serially expansion order t ∧
      (false, .ok (.rows 1)) ∈ order ∧ (true, .ok (.rows 0)) ∈ order ∧
      after.shared.jobs = t.jobs := by
  intro after
  obtain ⟨⟨order, t, hnodup, hserially, hmem, hrows⟩, -⟩ :=
    expansion_serializable oneInputHost "run" freshDb (fun _ => (.startRun, 2)) overlap
      overlap_considerate
  refine ⟨order, t, hnodup, hserially, hmem false _ rfl, hmem true _ rfl, hrows ?_⟩
  rintro (_ | _) <;> rfl

/-- Both calls look at the rows before either inserts. -/
theorem concurrent_starts_clash :
    let history := [(false, 0), (false, 0), (true, 0), (true, 0), (false, 0), (true, 0)]
    oneInputHost.Honest ∧ DistinctNodes oneInputHost "run" freshDb ∧
      ((twoStarts.run expansion history).progs true).outcome = some (.error clash) := by
  intro history
  refine ⟨⟨?_, ?_, ?_, ?_⟩, ?_, rfl⟩
  · simp [oneInputHost]
  · simp [oneInputHost, clash]
  · simp [oneInputHost]
  · simp [oneInputHost]
  · rintro run workflow nodes hget hload hnodes
    cases hload
    cases hnodes
    decide

end BrokerParrot
