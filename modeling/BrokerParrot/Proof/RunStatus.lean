import BrokerParrot.Dispatcher
import BrokerParrot.Proof.RowSteps

/-!
# The status of a finished run

Every call of the dispatcher reads the run first and writes its status at the end, and the write has
no guard. So a status that became terminal in between is overwritten. What is true: every such write
is the last statement of its call, and a call that begins on a finished run leaves the status alone,
with two exceptions.
-/

namespace BrokerParrot

open Prog Option

variable {α : Type} {host : Host} {runId : String}

/-! ### Statements that leave the runs alone -/

def SameRuns (s t : Db) : Prop := t.runs = s.runs

theorem SameRuns.refl (s : Db) : SameRuns s s := rfl

def EditsSpec (s t : Db) : Prop := t = s ∨ ∃ target node spec, t = setInputSpec target node spec s

theorem EditsSpec.refl (s : Db) : EditsSpec s s := Or.inl rfl

section

variable {target other node : String} {db : Db}

def editSpec (runId target : String) (spec : Option Value) (row : NodeJob) : NodeJob :=
  if row.runId = runId ∧ row.nodeId = target ∧ row.status = .awaitingInput then
    { row with inputSpec := spec }
  else
    row

theorem editSpec_fields (runId target : String) (spec : Option Value) (row : NodeJob) :
    (editSpec runId target spec row).runId = row.runId ∧
      (editSpec runId target spec row).nodeId = row.nodeId ∧
      (editSpec runId target spec row).status = row.status ∧
      (editSpec runId target spec row).inputs = row.inputs ∧
      (editSpec runId target spec row).error = row.error ∧
      (editSpec runId target spec row).contextDelta = row.contextDelta := by
  unfold editSpec
  split <;> exact ⟨rfl, rfl, rfl, rfl, rfl, rfl⟩

theorem get?_setInputSpec (spec : Option Value) (id : JobId) :
    (setInputSpec runId target spec db).jobs.get? id =
      (db.jobs.get? id).map (editSpec runId target spec) :=
  Table.get?_update _ _ _

theorem jobMap_setInputSpec (spec : Option Value) :
    JobMap.get? ((setInputSpec runId target spec db).listJobsForRun other) node =
      (JobMap.get? (db.listJobsForRun other) node).map fun entry =>
        (entry.1, editSpec runId target spec entry.2) := by
  have hlist : (setInputSpec runId target spec db).listJobsForRun other =
      (db.listJobsForRun other).map fun entry => (entry.1, editSpec runId target spec entry.2) := by
    change (db.jobs.entries.map fun entry =>
      (entry.1, editSpec runId target spec entry.2)).filter _ = (db.jobs.entries.filter _).map _
    rw [List.filter_map]
    congr 1
    apply List.filter_congr
    intro entry _
    simp only [Function.comp_apply, (editSpec_fields runId target spec entry.2).1]
  unfold JobMap.get?
  rw [hlist, List.find?_map]
  congr 2
  funext entry
  simp only [Function.comp_apply, (editSpec_fields runId target spec entry.2).2.1]

end

theorem sameRuns_of_editsSpec {s t : Db} (hedit : EditsSpec s t) : SameRuns s t := by
  rcases hedit with rfl | ⟨_, _, _, rfl⟩ <;> rfl

theorem insertOrRaise_sameRuns {s t : Db} {row : NodeJob} (hinsert : s.insertOrRaise row = .ok t) :
    SameRuns s t := by
  rw [(Db.insertOrRaise_ok hinsert).2]
  rfl

section

variable {run : Run}

theorem bumpInputSpec_moves (target : String) (fields : List (String × Option Value)) :
    (bumpInputSpec runId target fields).Moves EditsSpec := by
  unfold bumpInputSpec
  split
  · trivial
  · refine (Moves.read EditsSpec.refl _).bind fun existing => ?_
    split
    · exact Moves.write fun _ => Or.inr ⟨_, _, _, rfl⟩
    · trivial

theorem finishPatchJob_moves (job : NodeJob) (patch : Context) :
    (finishPatchJob host runId run job patch).Moves EditsSpec := by
  refine (Moves.read EditsSpec.refl _).bind fun existing => ?_
  refine (Moves.ofExcept _).bind fun _ => ?_
  exact (Moves.read EditsSpec.refl _).bind fun now => bumpInputSpec_moves _ _

theorem flagPatchError_moves (job : NodeJob) (patch : Context) :
    (flagPatchError host runId job patch).Moves EditsSpec :=
  bumpInputSpec_moves _ _

/-- What the expansion of a run depends on. No statement writes it. -/
def Run.source (run : Run) : String × Option String := (run.workflowName, run.outDir)

variable {W L : Db → Db → Prop} (hrefl : ∀ s, W s s)
  (hinsert : ∀ s t row, s.insertOrRaise row = .ok t → W s t)
  (hupdate : ∀ s (set : Run → Run), (∀ run, (set run).source = run.source) →
    L s (s.updateRun runId set))

include hrefl hinsert

theorem enqueue_inserts (node : DagNode) : (enqueue host runId node run).Moves W := by
  have hattempt (spec : NodeJobSpec) : (Prog.attempt (enqueueNodeJob spec)).Moves W := by
    refine Moves.attempt hrefl fun s t hok => ?_
    obtain ⟨row, -, hrow⟩ := enqueueNodeJob_ok hok
    exact hinsert s t row hrow
  unfold enqueue
  split
  · exact hattempt _
  · refine (Moves.read hrefl _).bind fun context => ?_
    exact (Moves.ofExcept _).bind fun spec => hattempt spec

theorem dispatchNode_inserts (existing : JobMap) (node : DagNode) :
    (dispatchNode host runId run existing node).Moves W := by
  refine (Moves.ofExcept _).bind fun skip => ?_
  split
  · exact Moves.attempt hrefl fun s t => hinsert s t _
  · exact enqueue_inserts hrefl hinsert node

theorem processReady_inserts (workflow : Workflow) (rounds newRows : ℕ) :
    (processReady host runId workflow run rounds newRows).Moves W := by
  induction rounds generalizing newRows with
  | zero => trivial
  | succ rounds ih =>
    refine (Moves.read hrefl _).bind fun existing => ?_
    refine (Moves.ofExcept _).bind fun nodes => ?_
    split
    · trivial
    · refine (Moves.forEach ?_).bind fun _ => ih _
      exact dispatchNode_inserts hrefl hinsert existing

omit hrefl hinsert in
theorem processReady_moves (workflow : Workflow) (rounds newRows : ℕ) :
    (processReady host runId workflow run rounds newRows).Moves SameRuns :=
  processReady_inserts SameRuns.refl (fun _ _ _ => insertOrRaise_sameRuns) workflow rounds newRows

include hupdate

omit hrefl hinsert in
theorem movesTo_write (value : α) {set : Db → Run → Run}
    (hset : ∀ db run, (set db run).source = run.source := by intros; rfl) :
    (Prog.write (fun db => db.updateRun runId (set db)) >>= fun _ =>
      (pure value : DbProg α)).MovesTo W L :=
  fun db => ⟨Or.inr ⟨hupdate db (set db) (hset db), rfl⟩, trivial⟩

theorem onNodeCompleted_movesTo (hedit : ∀ s t, EditsSpec s t → W s t) (rounds : ℕ)
    (node : String) : (onNodeCompleted host rounds runId node).MovesTo W L := by
  refine MovesTo.bind (Moves.read hrefl _) fun found => ?_
  cases found with
  | none => trivial
  | some =>
    dsimp only
    split
    · trivial
    refine MovesTo.bind (Moves.read hrefl _) fun jobs => ?_
    split
    · exact MovesTo.of_moves (((finishPatchJob_moves _ _).mono hedit).bind fun _ => trivial)
    refine MovesTo.bind (Moves.ofExcept _) fun workflow => ?_
    refine MovesTo.bind (processReady_inserts hrefl hinsert workflow rounds 0) fun newRows => ?_
    refine MovesTo.bind (Moves.read hrefl _) fun existing => ?_
    refine MovesTo.bind (Moves.ofExcept _) fun nodes => ?_
    split
    · exact movesTo_write hupdate newRows
    · trivial

theorem reconcileRun_movesTo (hdelete : ∀ s, W s (deleteNonTerminalJobsForRun runId s).1)
    (rounds : ℕ) : (reconcileRun host rounds runId).MovesTo W L := by
  have hexpand (workflow : Workflow) (run : Run) :
      (processReady host runId workflow run rounds 0).Moves W :=
    processReady_inserts hrefl hinsert workflow rounds 0
  refine MovesTo.bind (Moves.read hrefl _) fun found => ?_
  cases found with
  | none => trivial
  | some =>
    dsimp only
    split
    · trivial
    refine MovesTo.bind (Moves.read hrefl _) fun existing => ?_
    split
    · trivial
    refine MovesTo.bind (Moves.ofExcept _) fun workflow => ?_
    refine MovesTo.bind (Moves.ofExcept _) fun nodes => ?_
    split
    · exact movesTo_write hupdate _
    refine MovesTo.bind (hexpand _ _) fun enqueued => ?_
    split
    · exact movesTo_write hupdate _
    refine MovesTo.bind (Moves.exec hdelete) fun dropped => ?_
    split
    · refine MovesTo.bind (hexpand _ _) fun requeued => ?_
      split
      · exact movesTo_write hupdate _
      · exact movesTo_write hupdate _
    · exact movesTo_write hupdate _

end

/-! ### Ending a run and keeping it ended -/

def EndsRun (runId : String) (s t : Db) : Prop :=
  ∃ status : RunStatus, status.Terminal ∧ t.runStatus? runId = some status ∧
    s.runStatus? runId ≠ some status

structure KeepsRun (runId : String) (s t : Db) : Prop where
  source : (t.runs.get? runId).map Run.source = (s.runs.get? runId).map Run.source
  terminal : ∀ status : RunStatus, status.Terminal → s.runStatus? runId = some status →
    t.runStatus? runId = some status

def Rejects (host : Host) (run : Run) : Prop :=
  ∃ workflow text, host.loadWorkflow run.workflowName = .ok workflow ∧
    assertGpuNodesDeclareModel host workflow run = .error (.valueError text)

theorem Rejects.of_source {run other : Run} (hsource : run.source = other.source)
    (hrejects : Rejects host run) : Rejects host other := by
  obtain ⟨workflow, text, hload, hassert⟩ := hrejects
  obtain ⟨hname, hdir⟩ := Prod.mk.inj hsource
  refine ⟨workflow, text, hname ▸ hload, ?_⟩
  unfold assertGpuNodesDeclareModel at hassert ⊢
  rwa [← hdir]

/-- Whatever the others do to a run that is over, the program leaves its status alone. -/
abbrev SparesRun {α : Type} (runId : String) (prog : DbProg α) (s : Db) : Prop :=
  prog.Safe (KeepsRun runId) (KeepsRun runId) (onReturn fun _ _ => True) s

section

variable {node : String} {rounds : ℕ} {s t : Db} {status : RunStatus}

theorem KeepsRun.refl (s : Db) : KeepsRun runId s s := ⟨rfl, fun _ _ hstatus => hstatus⟩

theorem KeepsRun.of_sameRuns (hsame : SameRuns s t) : KeepsRun runId s t := by
  refine ⟨by rw [hsame], ?_⟩
  intro status _ hstatus
  unfold Db.runStatus? at hstatus ⊢
  rwa [hsame]

theorem not_endsRun_of_sameRuns (hsame : SameRuns s t) : ¬ EndsRun runId s t := by
  rintro ⟨status, -, hafter, hbefore⟩
  unfold Db.runStatus? at hafter hbefore
  rw [hsame] at hafter
  exact hbefore hafter

theorem runStatus?_updateRun (db : Db) (runId : String) (set : Run → Run) :
    (db.updateRun runId set).runStatus? runId =
      (db.runs.get? runId).map fun run => (set run).status := by
  unfold Db.updateRun Db.runStatus?
  rw [OrdDict.get?_modify_self, map_map]
  rfl

theorem source_updateRun (db : Db) (runId target : String) {set : Run → Run}
    (hset : ∀ run, (set run).source = run.source) :
    ((db.updateRun target set).runs.get? runId).map Run.source =
      (db.runs.get? runId).map Run.source := by
  unfold Db.updateRun
  by_cases heq : runId = target
  · subst heq
    rw [OrdDict.get?_modify_self, map_map]
    exact congrArg (fun f => (db.runs.get? runId).map f) (funext hset)
  · rw [OrdDict.get?_modify_of_ne _ _ heq]

theorem KeepsRun.of_updateRun {set : Run → Run} (hsource : ∀ run, (set run).source = run.source)
    (hset : ∀ run, s.runs.get? runId = some run → run.status.Terminal →
      (set run).status = run.status) :
    KeepsRun runId s (s.updateRun runId set) := by
  constructor
  · exact source_updateRun s runId runId hsource
  · intro status hterminal hstatus
    rw [runStatus?_updateRun]
    obtain ⟨run, hget, rfl⟩ := map_eq_some_iff.mp hstatus
    rw [hget, map_some, hset run hget hterminal]

theorem stable_source (run : Option Run) :
    Stable (KeepsRun runId) fun db =>
      (db.runs.get? runId).map Run.source = run.map Run.source :=
  fun _ _ hkeeps hsource => hkeeps.source.trans hsource

theorem finishRun_completed_keeps (hstatus : t.runStatus? runId = some .completed)
    (error : Option String) : KeepsRun runId t (t.finishRun runId .completed error) := by
  refine KeepsRun.of_updateRun (fun _ => rfl) ?_
  intro run hget _
  unfold Db.runStatus? at hstatus
  rw [hget, map_some] at hstatus
  exact (Option.some.inj hstatus).symm

theorem markRunRunningIfExpanded_keeps (t : Db) :
    KeepsRun runId t (t.markRunRunningIfExpanded runId) := by
  refine KeepsRun.of_updateRun (fun run => by split <;> rfl) ?_
  intro run _ hterminal
  split
  · rename_i hqueued
    rw [hqueued.1] at hterminal
    exact absurd hterminal (by decide)
  · rfl

variable (hterminal : status.Terminal) (hstatus : s.runStatus? runId = some status)

include hterminal

theorem stable_status : Stable (KeepsRun runId) fun db => db.runStatus? runId = some status :=
  fun _ _ hkeeps hstatus => hkeeps.terminal status hterminal hstatus

include hstatus

theorem safe_of_sameRuns {prog : DbProg α} (hmoves : prog.Moves SameRuns) :
    prog.Safe (KeepsRun runId) (KeepsRun runId)
      (onReturn fun _ db => db.runStatus? runId = some status) s := by
  have hsafe := Safe.of_moves (R := KeepsRun runId) (G := KeepsRun runId) hmoves
    (fun _ _ _ => KeepsRun.of_sameRuns) (stable_status hterminal)
    (fun _ _ hsame => (KeepsRun.of_sameRuns hsame).terminal status hterminal) hstatus
  exact hsafe.mono_return fun _ _ hfact => hfact

theorem sparesRun_read_bind {β : Type} {look : Db → α} {next : α → DbProg β}
    (hnext : ∀ t, t.runStatus? runId = some status → SparesRun runId (next (look t)) t) :
    SparesRun runId (Prog.read look >>= next) s :=
  Safe.read_bind fun t hsteps =>
    ⟨KeepsRun.refl t, hnext t ((stable_status hterminal).steps hsteps hstatus)⟩

theorem onNodeCompleted_safe :
    SparesRun runId (onNodeCompleted host rounds runId node) s := by
  refine sparesRun_read_bind hterminal hstatus fun t hread => ?_
  cases hget : t.runs.get? runId with
  | none => exact fun _ _ => trivial
  | some run =>
    dsimp only
    split
    · exact fun _ _ => trivial
    -- The call goes on, so the terminal status it read is `completed`.
    rename_i hopen
    obtain rfl : status = .completed := by
      have hsame : run.status = status := by
        unfold Db.runStatus? at hread
        rw [hget] at hread
        exact Option.some.inj hread
      rw [hsame] at hopen
      rcases hterminal with hcompleted | hfailed | hcancelled
      · exact hcompleted
      · exact absurd (Or.inr hfailed) hopen
      · exact absurd (Or.inl hcancelled) hopen
    refine sparesRun_read_bind hterminal hread fun u hjobs => ?_
    split
    · exact (safe_of_sameRuns hterminal hjobs ((finishPatchJob_moves _ _).mono fun _ _ =>
        sameRuns_of_editsSpec)).andThen fun _ _ _ => fun _ _ => trivial
    refine Safe.ofExcept_bind fun workflow _ => ?_
    refine (safe_of_sameRuns hterminal hjobs (processReady_moves workflow rounds 0)).andThen
      fun newRows w hw => ?_
    refine sparesRun_read_bind hterminal hw fun x hchecked => ?_
    refine Safe.ofExcept_bind fun nodes _ => ?_
    split
    · refine Safe.write_bind fun z hwait => ⟨?_, fun _ _ => trivial⟩
      exact finishRun_completed_keeps ((stable_status hterminal).steps hwait hchecked) none
    · exact fun _ _ => trivial

theorem onNodeFailed_safe (hopen : status ≠ .completed) :
    SparesRun runId (onNodeFailed host runId node) s := by
  refine sparesRun_read_bind hterminal hstatus fun t hread => ?_
  obtain ⟨run, hget, hsame⟩ := map_eq_some_iff.mp hread
  have hstops : ((t.runs.get? runId).any fun run =>
      run.status = .cancelled ∨ run.status = .failed) = true := by
    rw [hget, any_some, hsame]
    rcases hterminal with hcompleted | hfailed | hcancelled
    · exact absurd hcompleted hopen
    · exact decide_eq_true (Or.inr hfailed)
    · exact decide_eq_true (Or.inl hcancelled)
  rw [if_pos hstops]
  exact fun _ _ => trivial

theorem reconcileRun_safe :
    SparesRun runId (reconcileRun host rounds runId) s := by
  refine sparesRun_read_bind hterminal hstatus fun t hread => ?_
  obtain ⟨run, hget, hsame⟩ := map_eq_some_iff.mp hread
  rw [hget]
  dsimp only
  rw [if_pos (hsame ▸ hterminal)]
  exact fun _ _ => trivial

theorem startRun_safe (haccepted : ∀ run, s.runs.get? runId = some run → ¬ Rejects host run) :
    SparesRun runId (startRun host rounds runId) s := by
  refine Safe.read_bind fun t hsteps => ⟨KeepsRun.refl t, ?_⟩
  have hread := (stable_status hterminal).steps hsteps hstatus
  obtain ⟨run, hget, hsame⟩ := map_eq_some_iff.mp hread
  have hstill : ¬ Rejects host run := by
    obtain ⟨before, hbefore, -⟩ := map_eq_some_iff.mp hstatus
    have hsource := (stable_source (s.runs.get? runId)).steps hsteps rfl
    rw [hget, hbefore] at hsource
    exact fun hrejects => haccepted before hbefore (hrejects.of_source (Option.some.inj hsource))
  rw [hget]
  refine Safe.ofExcept_bind fun workflow hload => ?_
  split
  · rename_i text hassert
    exact absurd ⟨workflow, text, hload, hassert⟩ hstill
  · exact Safe.raise _
  · refine (safe_of_sameRuns hterminal hread (processReady_moves workflow rounds 0)).andThen
      fun newRows u hu => ?_
    refine Safe.write_bind fun v hwait => ⟨?_, fun _ _ => trivial⟩
    exact markRunRunningIfExpanded_keeps v

theorem resumeAfterInput_safe (value : Value) :
    SparesRun runId (resumeAfterInput host rounds runId node value) s := by
  refine sparesRun_read_bind hterminal hstatus fun t hread => ?_
  split
  · exact Safe.raise _
  split
  · exact fun _ _ => trivial
  refine Safe.ofExcept_bind fun delta _ => ?_
  refine (safe_of_sameRuns hterminal hread (Moves.exec fun db =>
    (db.transition_jobsOnly _ _).runs)).andThen fun _ u hu => ?_
  exact onNodeCompleted_safe hterminal hu

theorem call_safe {call : Call} (hrun : call.runId = runId)
    (hfailed : ∀ node, call = .onNodeFailed runId node → status ≠ .completed)
    (hstart : call = .startRun runId → ∀ run, s.runs.get? runId = some run → ¬ Rejects host run) :
    SparesRun runId (call.prog host rounds) s := by
  subst hrun
  cases call with
  | startRun => exact (startRun_safe hterminal hstatus (hstart rfl)).map fun _ _ _ => trivial
  | onNodeCompleted => exact (onNodeCompleted_safe hterminal hstatus).map fun _ _ _ => trivial
  | onNodeFailed _ node =>
    exact (onNodeFailed_safe hterminal hstatus (hfailed node rfl)).map fun _ _ _ => trivial
  | reconcileRun => exact (reconcileRun_safe hterminal hstatus).map fun _ _ _ => trivial
  | resumeAfterInput _ _ value =>
    exact (resumeAfterInput_safe hterminal hstatus value).map fun _ _ _ => trivial

end

/-! ### The write that ends a run is the last statement -/

def UpdatesRun (runId : String) (s t : Db) : Prop :=
  ∃ set : Run → Run, t = s.updateRun runId set ∧ ∀ run, (set run).source = run.source

theorem sameRuns_read (view : Db → α) : (Prog.read view : DbProg α).Moves SameRuns :=
  Moves.read SameRuns.refl view

theorem updatesRun_update (s : Db) (set : Run → Run) (hset : ∀ run, (set run).source = run.source) :
    UpdatesRun runId s (s.updateRun runId set) :=
  ⟨set, rfl, hset⟩

theorem startRun_movesTo (rounds : ℕ) :
    (startRun host rounds runId).MovesTo SameRuns (UpdatesRun runId) := by
  refine MovesTo.bind (sameRuns_read _) fun found => ?_
  cases found with
  | none => trivial
  | some =>
    refine MovesTo.bind (Moves.ofExcept _) fun workflow => ?_
    split
    · exact movesTo_write updatesRun_update _
    · trivial
    · refine MovesTo.bind (processReady_moves workflow rounds 0) fun newRows => ?_
      exact movesTo_write updatesRun_update newRows fun _ _ => by split <;> rfl

theorem onNodeFailed_movesTo (node : String) :
    (onNodeFailed host runId node).MovesTo SameRuns (UpdatesRun runId) := by
  refine MovesTo.bind (sameRuns_read _) fun found => ?_
  split
  · trivial
  refine MovesTo.bind (sameRuns_read _) fun jobs => ?_
  split
  · exact MovesTo.of_moves ((flagPatchError_moves _ _).mono fun _ _ => sameRuns_of_editsSpec)
  · refine MovesTo.bind (Moves.write fun _ => rfl) fun _ => ?_
    exact fun _ => ⟨Or.inr ⟨⟨_, rfl, fun _ => rfl⟩, rfl⟩, trivial⟩

theorem completed_movesTo (rounds : ℕ) (node : String) :
    (onNodeCompleted host rounds runId node).MovesTo SameRuns (UpdatesRun runId) :=
  onNodeCompleted_movesTo SameRuns.refl (fun _ _ _ => insertOrRaise_sameRuns) updatesRun_update
    (fun _ _ => sameRuns_of_editsSpec) rounds node

theorem resumeAfterInput_movesTo (rounds : ℕ) (node : String) (value : Value) :
    (resumeAfterInput host rounds runId node value).MovesTo SameRuns (UpdatesRun runId) := by
  refine MovesTo.bind (sameRuns_read _) fun jobs => ?_
  split
  · trivial
  split
  · trivial
  refine MovesTo.bind (Moves.ofExcept _) fun delta => ?_
  refine MovesTo.bind (Moves.exec fun db => (db.transition_jobsOnly _ _).runs) fun _ => ?_
  exact completed_movesTo rounds node

theorem call_movesTo (host : Host) (call : Call) (rounds : ℕ) :
    (call.prog host rounds).MovesTo SameRuns (UpdatesRun call.runId) := by
  cases call with
  | startRun => exact (startRun_movesTo rounds).map _
  | onNodeCompleted _ node => exact (completed_movesTo rounds node).map _
  | onNodeFailed _ node => exact (onNodeFailed_movesTo node).map _
  | reconcileRun =>
    exact (reconcileRun_movesTo SameRuns.refl (fun _ _ _ => insertOrRaise_sameRuns)
      updatesRun_update (fun _ => rfl) rounds).map _
  | resumeAfterInput _ node value => exact (resumeAfterInput_movesTo rounds node value).map _

/-! ### Histories -/

def Action.On (runId : String) : Action → Prop
  | .call made _ => made.runId = runId
  | .queue op => ∀ target run, op ≠ .writeRun target run
  | _ => True

/-- No failure is reported on a completed run, and no run that is over is started with a workflow
that is rejected. -/
structure MayBegin (host : Host) (runId : String) (db : Db) (call : Call) : Prop where
  failed : ∀ node, call = .onNodeFailed runId node → db.runStatus? runId ≠ some .completed
  start : call = .startRun runId → ∀ run, db.runs.get? runId = some run → run.status.Terminal →
    ¬ Rejects host run

/-- The call is over, or it has read nothing yet and may begin now. -/
def Unexposed (host : Host) (runId : String) (db : Db)
    (thread : Thread CallLabel Db PyError CallResult) : Prop :=
  thread.prog.ended = true ∨
    (∃ rounds, thread.prog = thread.label.call.prog host rounds) ∧
      MayBegin host runId db thread.label.call

/-- The run gets a terminal status only while no other call is under way, and a call begins only
where it may. -/
structure Calm (host : Host) (d : Dialect) (runId : String) (world : World) (action : Action) :
    Prop where
  alone : EndsRun runId world.shared (world.act host d action).shared →
    ∀ index thread, world.threads[index]? = some thread →
      Unexposed host runId (world.act host d action).shared thread ∨ action = .advance index
  begins : ∀ call rounds, action = .call call rounds → MayBegin host runId world.shared call

/-- What calm actions keep: a statement that ends the run is its call's last, and on a run that is
over every call in progress leaves the status alone. -/
structure Guarded (runId : String) (world : World) : Prop where
  on : ∀ thread ∈ world.threads, thread.label.call.runId = runId
  last : ∀ thread ∈ world.threads, thread.prog.LastMove (EndsRun runId)
  safe : ∀ status : RunStatus, status.Terminal → world.status? runId = some status →
    world.Safe (KeepsRun runId) (KeepsRun runId) fun _ => Prog.onReturn fun _ _ => True

section

variable {d : Dialect} {world : World}

theorem not_endsRun_self (s : Db) : ¬ EndsRun runId s s := not_endsRun_of_sameRuns rfl

theorem safe_of_ended {prog : DbProg CallResult} (hended : prog.ended = true) (s : Db) :
    SparesRun runId prog s := by
  cases prog with
  | ret | raise => exact fun _ _ => trivial
  | stmt | hang => cases hended

theorem MayBegin.spares {call : Call} {s : Db} {status : RunStatus}
    (hbegin : MayBegin host runId s call) (hon : call.runId = runId) (hterminal : status.Terminal)
    (hstatus : s.runStatus? runId = some status) (rounds : ℕ) :
    SparesRun runId (call.prog host rounds) s := by
  refine call_safe hterminal hstatus hon ?_ ?_
  · rintro node hcall rfl
    exact hbegin.failed node hcall hstatus
  · intro hcall run hget
    obtain ⟨found, hfound, rfl⟩ := map_eq_some_iff.mp hstatus
    obtain rfl := Option.some.inj (hget.symm.trans hfound)
    exact hbegin.start hcall run hget hterminal

theorem Unexposed.spares {thread : Thread CallLabel Db PyError CallResult} {s : Db}
    {status : RunStatus} (hthread : Unexposed host runId s thread)
    (hon : thread.label.call.runId = runId) (hterminal : status.Terminal)
    (hstatus : s.runStatus? runId = some status) : SparesRun runId thread.prog s := by
  rcases hthread with hended | ⟨⟨rounds, hprog⟩, hbegin⟩
  · exact safe_of_ended hended s
  · rw [hprog]
    exact hbegin.spares hon hterminal hstatus rounds

theorem Guarded.call (hguarded : Guarded runId world) {call : Call} {rounds : ℕ}
    (hon : call.runId = runId) (hcalm : Calm host d runId world (.call call rounds)) :
    Guarded runId (world.act host d (.call call rounds)) := by
  constructor
  · intro thread hmem
    rcases List.mem_append.mp hmem with hold | hnew
    · exact hguarded.on thread hold
    · obtain rfl := List.mem_singleton.mp hnew
      exact hon
  · intro thread hmem
    rcases List.mem_append.mp hmem with hold | hnew
    · exact hguarded.last thread hold
    · obtain rfl := List.mem_singleton.mp hnew
      subst hon
      exact (call_movesTo host call rounds).lastMove fun _ _ => not_endsRun_of_sameRuns
  · intro status hterminal hstatus
    exact (hguarded.safe status hterminal hstatus).spawn
      ((hcalm.begins call rounds rfl).spares hon hterminal hstatus rounds)

theorem Guarded.advance (hguarded : Guarded runId world) {index : ℕ}
    (hcalm : Calm host d runId world (.advance index)) :
    Guarded runId (world.act host d (.advance index)) := by
  constructor
  · intro thread hmem
    rcases Pool.mem_advance hmem with ⟨other, -, hget⟩ | ⟨old, hget, rfl, -⟩
    · exact hguarded.on thread (List.mem_of_getElem? hget)
    · exact hguarded.on old (List.mem_of_getElem? hget)
  · intro thread hmem
    rcases Pool.mem_advance hmem with ⟨other, -, hget⟩ | ⟨old, hget, rfl, -⟩
    · exact hguarded.last thread (List.mem_of_getElem? hget)
    · exact (hguarded.last old (List.mem_of_getElem? hget)).advance world.shared
  · intro status hterminal hstatus
    by_cases hbefore : world.status? runId = some status
    · exact (hguarded.safe status hterminal hbefore).advance index fun hmove => hmove
    -- This statement ended the run: it was its call's last one, and no other call has read the run.
    have hends : EndsRun runId world.shared (world.act host d (.advance index)).shared :=
      ⟨status, hterminal, hstatus, hbefore⟩
    intro thread hmem
    rcases Pool.mem_advance hmem with ⟨other, hne, hget⟩ | ⟨old, hget, rfl, hshared⟩
    · rcases hcalm.alone hends other thread hget with hthread | hself
      · exact hthread.spares (hguarded.on thread (List.mem_of_getElem? hget)) hterminal hstatus
      · exact absurd (Action.advance.inj hself).symm hne
    · change EndsRun runId world.shared (world.step (.advance index)).shared at hends
      rw [hshared] at hends
      exact safe_of_ended
        ((hguarded.last old (List.mem_of_getElem? hget)).ended_of_advance not_endsRun_self hends) _

theorem Guarded.outside (hguarded : Guarded runId world) {set : Db → Db}
    (hsource : ((set world.shared).runs.get? runId).map Run.source =
      (world.shared.runs.get? runId).map Run.source)
    (halone : EndsRun runId world.shared (set world.shared) →
      ∀ thread ∈ world.threads, Unexposed host runId (set world.shared) thread) :
    Guarded runId (world.step (.outside set)) := by
  refine ⟨hguarded.on, hguarded.last, ?_⟩
  intro status hterminal hstatus
  by_cases hbefore : world.status? runId = some status
  · refine (hguarded.safe status hterminal hbefore).outside ⟨hsource, ?_⟩
    intro other _ hother
    rw [← hother]
    exact hstatus.trans hbefore.symm
  · intro thread hmem
    exact (halone ⟨status, hterminal, hstatus, hbefore⟩ thread hmem).spares
      (hguarded.on thread hmem) hterminal hstatus

theorem Guarded.act (hguarded : Guarded runId world) {action : Action} (hon : action.On runId)
    (hcalm : Calm host d runId world action) : Guarded runId (world.act host d action) := by
  have halone : EndsRun runId world.shared (world.act host d action).shared →
      (∀ index, action ≠ .advance index) →
        ∀ thread ∈ world.threads, Unexposed host runId (world.act host d action).shared thread := by
    intro hends hnot thread hmem
    obtain ⟨index, hget⟩ := List.mem_iff_getElem?.mp hmem
    exact (hcalm.alone hends index thread hget).resolve_right (hnot index)
  cases action with
  | call => exact hguarded.call hon hcalm
  | advance => exact hguarded.advance hcalm
  | queue op =>
    have hruns : (op.step d world.shared).runs = world.shared.runs := step_runs d _ hon
    exact hguarded.outside (by rw [hruns]) fun hends => halone hends (by simp)
  | setRunStatus target status =>
    exact hguarded.outside (source_updateRun world.shared runId target fun _ => rfl)
      fun hends => halone hends (by simp)

theorem World.run_append (host : Host) (d : Dialect) (world : World) (before after : List Action) :
    world.run host d (before ++ after) = (world.run host d before).run host d after :=
  List.foldl_append

theorem Guarded.run {history : List Action} (hstart : Guarded runId world)
    (hon : ∀ action ∈ history, action.On runId)
    (hcalm : ∀ before action, before ++ [action] <+: history →
      Calm host d runId (world.run host d before) action) :
    Guarded runId (world.run host d history) := by
  induction history using List.reverseRecOn with
  | nil => exact hstart
  | append_singleton rest action ih =>
    have hbefore : Guarded runId (world.run host d rest) := by
      refine ih (fun other hmem => hon other (by simp [hmem])) ?_
      intro before other hinit
      exact hcalm before other (hinit.trans (List.prefix_append rest [action]))
    rw [World.run_append]
    exact hbefore.act (hon action (by simp)) (hcalm rest action (List.prefix_refl _))

end

/-- **A terminal run status lasts, while it is reached alone.** If every action is calm, no
statement of a call changes a status that is completed, failed or cancelled. -/
theorem terminal_status_lasts (host : Host) (d : Dialect) (runId : String) (db : Db)
    (history : List Action) (hon : ∀ action ∈ history, action.On runId)
    (hcalm : ∀ before action, before ++ [action] <+: history →
      Calm host d runId (World.run host d ⟨db, []⟩ before) action) :
    ∀ before index, before ++ [.advance index] <+: history → ∀ status : RunStatus,
      status.Terminal → (World.run host d ⟨db, []⟩ before).status? runId = some status →
        (World.run host d ⟨db, []⟩ (before ++ [.advance index])).status? runId = some status := by
  intro before index hinit status hterminal hstatus
  have hstart : Guarded runId (⟨db, []⟩ : World) := by
    constructor
    · simp
    · simp
    · intro _ _ _ thread hmem
      cases hmem
  have hguarded : Guarded runId (World.run host d ⟨db, []⟩ before) := by
    have hsub : before <+: history := (List.prefix_append before _).trans hinit
    refine hstart.run (fun action hmem => hon action (hsub.subset hmem)) ?_
    intro earlier action hearlier
    exact hcalm earlier action (hearlier.trans hsub)
  rw [World.run_append]
  rcases ((hguarded.safe status hterminal hstatus).advance_shared index) with hkeeps | hsame
  · exact hkeeps.terminal status hterminal hstatus
  · exact (congrArg (fun db => Db.runStatus? db runId) hsame).trans hstatus

def oneInputHost : Host where
  loadWorkflow := fun _ => .ok ⟨[{ id := "ask", kind := .input none none }]⟩
  pipelineSchema := fun name => .error (.keyError name)
  resolveRef := fun value _ => .ok value

def oneInputDb : Db where
  jobs := Table.ofRows
    [{ runId := "run", nodeId := "ask", nodeModule := "__input__None", queue := .cpu,
       project := "", status := .completed, createdAt := 0 }]
  runs := OrdDict.empty.insert "run" { workflowName := "w", status := .running }

theorem forall_snoc_prefix_cons {p : List α → α → Prop} {first : α} {rest : List α} :
    (∀ before last, before ++ [last] <+: first :: rest → p before last) ↔
      p [] first ∧ ∀ before last, before ++ [last] <+: rest → p (first :: before) last := by
  constructor
  · intro hall
    refine ⟨hall [] first (by simp), fun before last hinit => hall (first :: before) last ?_⟩
    exact List.cons_prefix_cons.mpr ⟨rfl, hinit⟩
  · rintro ⟨hfirst, hrest⟩ before last hinit
    cases before with
    | nil =>
      obtain ⟨rfl, -⟩ := List.cons_prefix_cons.mp hinit
      exact hfirst
    | cons =>
      obtain ⟨rfl, htail⟩ := List.cons_prefix_cons.mp hinit
      exact hrest _ last htail

/-- The host cancels while a call has been made that has not looked at the run yet. -/
theorem terminal_status_lasts_cancelled :
    (World.run oneInputHost .pg ⟨oneInputDb, []⟩
      [.call (.onNodeCompleted "run" "ask") 1, .setRunStatus "run" .cancelled,
        .advance 0]).status? "run" = some .cancelled := by
  refine terminal_status_lasts oneInputHost .pg "run" oneInputDb
    [.call (.onNodeCompleted "run" "ask") 1, .setRunStatus "run" .cancelled, .advance 0] ?_ ?_
    [.call (.onNodeCompleted "run" "ask") 1, .setRunStatus "run" .cancelled] 0 (List.prefix_refl _)
    .cancelled (by decide) (by decide +kernel)
  · simp [Action.On, Call.runId]
  · simp only [forall_snoc_prefix_cons]
    refine ⟨⟨by simp [World.run], ?_⟩, ⟨fun _ index thread hget => Or.inl ?_, by simp⟩,
      ⟨fun _ index thread hget => Or.inr ?_, by simp⟩, by simp⟩
    · rintro _ _ ⟨⟩
      exact ⟨nofun, nofun⟩
    · obtain rfl := List.mem_singleton.mp (List.mem_of_getElem? hget)
      exact Or.inr ⟨⟨1, rfl⟩, nofun, nofun⟩
    · have hlt : index < 1 := (List.getElem?_eq_some_iff.mp hget).1
      rw [Nat.lt_one_iff.mp hlt]

/-- The host cancels between a call's last read and its write. -/
theorem cancelled_run_completed :
    let before : List Action :=
      [.call (.onNodeCompleted "run" "ask") 1, .advance 0, .advance 0, .advance 0, .advance 0,
        .setRunStatus "run" .cancelled]
    (World.run oneInputHost .pg ⟨oneInputDb, []⟩ before).status? "run" = some .cancelled ∧
      (World.run oneInputHost .pg ⟨oneInputDb, []⟩ (before ++ [.advance 0])).status? "run" =
        some .completed := by
  decide +kernel

end BrokerParrot
