import BrokerParrot.InputListener
import BrokerParrot.Proof.FanOut

/-!
# Answers to input nodes

The resume writes the row and fans out in two transactions, and it looks at the row's status before
the first: so an answer that is processed again after a crash finds the row completed and does
nothing, and one that is processed while a worker holds the row is dropped. On its way the answer is
read as JSON text one time more than it was written.
-/

namespace BrokerParrot

open Prog OrdDict Option

variable {host : Host} {d : Dialect} {env : ListenerEnv} {rounds : ℕ} {row : ClaimedSubmission}
  {value : Value} {state : InputDb} {id : JobId} {job : NodeJob} {delta : Context}
  {nodes : List DagNode} {run : Run} {workflow : Workflow} {target : String}

/-! ### What the fan-out leaves alone -/

structure KeepsCompleted (s t : Db) : Prop where
  rows : ∀ id row, s.jobs.get? id = some row → row.status = .completed → t.jobs.get? id = some row
  unique : s.CellsUnique → t.CellsUnique

structure SameCells (runId : String) (s t : Db) : Prop where
  taken : ∀ node, t.NodeTaken runId node ↔ s.NodeTaken runId node
  settled : ∀ node, t.NodeSettled runId node ↔ s.NodeSettled runId node

section

variable {runId node : String} {s t u : Db}

theorem KeepsCompleted.of_jobs (hjobs : t.jobs = s.jobs) : KeepsCompleted s t := by
  constructor
  · intro id row hget _
    rwa [hjobs]
  · intro hunique
    unfold Db.CellsUnique
    rwa [hjobs]

theorem KeepsCompleted.trans (hfirst : KeepsCompleted s t) (hsecond : KeepsCompleted t u) :
    KeepsCompleted s u where
  rows := fun id row hget hstatus =>
    hsecond.rows id row (hfirst.rows id row hget hstatus) hstatus
  unique := fun hunique => hsecond.unique (hfirst.unique hunique)

theorem KeepsCompleted.of_insert {row : NodeJob} (hinsert : s.insertOrRaise row = .ok t) :
    KeepsCompleted s t := by
  constructor
  · exact fun id found hget _ => Db.get?_of_insertOrRaise hinsert hget
  · intro hunique
    have hafter := cellsUnique_insert hunique row
    rwa [hinsert] at hafter

theorem get?_of_editsSpec (hedit : EditsSpec s t) (id : JobId) :
    t.jobs.get? id = s.jobs.get? id ∨
      ∃ row spec, s.jobs.get? id = some row ∧ row.status = .awaitingInput ∧
        t.jobs.get? id = some { row with inputSpec := spec } := by
  rcases hedit with rfl | ⟨target, cell, spec, rfl⟩
  · exact Or.inl rfl
  · unfold setInputSpec Db.updateJobs
    rw [Table.get?_update]
    cases hget : s.jobs.get? id with
    | none => exact Or.inl rfl
    | some row =>
      rw [map_some]
      split
      · next hrow => exact Or.inr ⟨row, spec, rfl, hrow.2.2, rfl⟩
      · exact Or.inl rfl

theorem KeepsCompleted.of_editsSpec (hedit : EditsSpec s t) : KeepsCompleted s t := by
  constructor
  · intro id row hget hstatus
    rcases get?_of_editsSpec hedit id with hsame | ⟨found, spec, hfound, hawaits, -⟩
    · rwa [hsame]
    · obtain rfl := mem_unique hget hfound
      cases hstatus.symm.trans hawaits
  · intro hunique
    rcases hedit with rfl | ⟨target, cell, spec, rfl⟩
    · exact hunique
    · change (QueueOp.step .pg s (.setInputSpec target cell spec)).CellsUnique
      exact cellsUnique_step hunique

theorem onNodeCompleted_keeps (rounds : ℕ) :
    (onNodeCompleted host rounds runId node).Moves KeepsCompleted :=
  (onNodeCompleted_movesTo (fun _ => KeepsCompleted.of_jobs rfl)
    (fun _ _ _ => KeepsCompleted.of_insert) (fun _ _ _ => KeepsCompleted.of_jobs rfl)
    (fun _ _ => KeepsCompleted.of_editsSpec) rounds node).moves (fun _ _ => id) fun _ _ => id

theorem SameCells.of_jobs (hjobs : t.jobs = s.jobs) : SameCells runId s t := by
  constructor <;> intro cell
  · simp only [Db.nodeTaken_iff, hjobs]
  · simp only [Db.NodeSettled, hjobs]

theorem SameCells.trans (hfirst : SameCells runId s t) (hsecond : SameCells runId t u) :
    SameCells runId s u :=
  ⟨fun cell => (hsecond.taken cell).trans (hfirst.taken cell),
    fun cell => (hsecond.settled cell).trans (hfirst.settled cell)⟩

theorem SameCells.of_editsSpec (hedit : EditsSpec s t) : SameCells runId s t := by
  have hrow (id : JobId) (p : NodeJob → Prop)
      (hspec : ∀ row spec, p { row with inputSpec := spec } ↔ p row) :
      (∃ row, t.jobs.get? id = some row ∧ p row) ↔ ∃ row, s.jobs.get? id = some row ∧ p row := by
    rcases get?_of_editsSpec hedit id with hsame | ⟨row, spec, hget, -, hedited⟩
    · rw [hsame]
    · simp only [hget, hedited, Option.some.injEq, exists_eq_left', hspec]
  constructor <;> intro cell
  · simp only [Db.nodeTaken_iff]
    exact exists_congr fun id => hrow id _ fun _ _ => Iff.rfl
  · exact exists_congr fun id => hrow id _ fun _ _ => Iff.rfl

end

/-! ### The statements of the listener -/

structure AnswerFor (db : Db) (row : ClaimedSubmission) (id : JobId) (job : NodeJob) : Prop where
  unique : db.CellsUnique
  get : db.jobs.get? id = some job
  runId : job.runId = row.runId
  nodeId : job.nodeId = row.nodeId

abbrev JobStatus.Awaits (status : JobStatus) : Prop :=
  ¬ (status ≠ .awaitingInput ∧ status ≠ .queued)

def InputDb.answered (id : JobId) (delta : Context) (state : InputDb) : InputDb :=
  { state with db := (markCompletedInTxn id delta 0 none state.db).1 }

def answers (env : ListenerEnv) (d : Dialect) (rounds : ℕ) (row : ClaimedSubmission) (id : JobId)
    (job : NodeJob) (value : Value) : DbProg ℕ :=
  if job.status ≠ .awaitingInput ∧ job.status ≠ .queued then
    pure 0
  else
    completeInput d env.host rounds row.runId row.nodeId id job value

def afterMark (env : ListenerEnv) (rounds : ℕ) (row : ClaimedSubmission) :
    Prog InputDb PyError Unit :=
  ((onNodeCompleted env.host rounds row.runId row.nodeId).zoom InputDb.engine).tried >>=
    finishSubmission env row.id

section

theorem process_eq (hvalue : submittedValue env.depth row.value = .ok value) :
    process env d rounds row =
      ((resumeStored d env.host rounds row.runId row.nodeId value).zoom InputDb.engine).tried >>=
        finishSubmission env row.id := by
  unfold process
  rw [hvalue]
  rfl

theorem completeInput_eq (hdelta : storedDelta d env.host job value = .ok delta) :
    completeInput d env.host rounds row.runId row.nodeId id job value =
      Prog.exec (markCompletedInTxn id delta 0 none) >>= fun _ =>
        onNodeCompleted env.host rounds row.runId row.nodeId := by
  unfold completeInput
  rw [hdelta]
  rfl

variable (hfor : AnswerFor state.db row id job)

include hfor

theorem AnswerFor.jobMap :
    JobMap.get? (state.db.listJobsForRun row.runId) row.nodeId = some (id, job) := by
  cases hget : JobMap.get? (state.db.listJobsForRun row.runId) row.nodeId with
  | none =>
    have htaken := Db.nodeTaken_iff.mpr ⟨id, job, hfor.get, hfor.runId, hfor.nodeId⟩
    exact absurd htaken (JobMap.get?_eq_none.mp hget)
  | some entry =>
    obtain ⟨hentry, hrun, hnode⟩ := JobMap.get?_eq_some hget
    obtain rfl := hfor.unique id entry.1 job entry.2 hfor.get hentry
      (hfor.runId.trans hrun.symm) (hfor.nodeId.trans hnode.symm)
    obtain rfl := mem_unique hfor.get hentry
    rfl

theorem advance_resumeStored :
    (resumeStored d env.host rounds row.runId row.nodeId value).advance state.db =
      (state.db, answers env d rounds row id job value) := by
  unfold resumeStored jobsByNodeId Prog.read answers
  simp only [bind, Prog.bind, Prog.advance, id_eq, hfor.jobMap]

variable (hvalue : submittedValue env.depth row.value = .ok value)

include hvalue

theorem advance_process :
    (process env d rounds row).advance state =
      (state, ((answers env d rounds row id job value).zoom InputDb.engine).tried >>=
        finishSubmission env row.id) := by
  rw [process_eq hvalue, advance_bind _ _ rfl, advance_tried, advance_zoom]
  rw [show InputDb.engine.get state = state.db from rfl, advance_resumeStored hfor]
  rfl

theorem left_process_of_closed (hclosed : job.status ≠ .awaitingInput ∧ job.status ≠ .queued) :
    (process env d rounds row).left state = markSubmissionProcessed row.id state := by
  rw [← left_advance, advance_process hfor hvalue, answers, if_pos hclosed]
  rfl

variable (hawaits : job.status.Awaits)
  (hdelta : storedDelta d env.host job value = .ok delta)

include hawaits hdelta

theorem advance_advance_process :
    ((process env d rounds row).advance state).2.advance
        ((process env d rounds row).advance state).1 =
      (state.answered id delta, afterMark env rounds row) := by
  rw [advance_process hfor hvalue, answers, if_neg hawaits, completeInput_eq hdelta]
  rfl

theorem killed_process (count : ℕ) :
    (process env d rounds row).killed (count + 2) state =
      (afterMark env rounds row).killed count (state.answered id delta) := by
  change (((process env d rounds row).advance state).2.advance
    ((process env d rounds row).advance state).1).2.killed count
      (((process env d rounds row).advance state).2.advance
        ((process env d rounds row).advance state).1).1 = _
  rw [advance_advance_process hfor hvalue hawaits hdelta]

theorem left_process :
    (process env d rounds row).left state =
      (afterMark env rounds row).left (state.answered id delta) := by
  rw [← left_advance, ← left_advance,
    advance_advance_process hfor hvalue hawaits hdelta]

end

/-! ### The row that was marked -/

section

theorem open_of_awaits {status : JobStatus} (hawaits : status.Awaits) : status.Open := by
  cases status <;> revert hawaits <;> decide

theorem get?_answered_self (hget : state.db.jobs.get? id = some job) (hopen : job.status.Open) :
    (state.answered id delta).db.jobs.get? id = some (job.complete state.db.now delta 0 none) :=
  Db.get?_transition_of_open _ hget hopen

theorem get?_answered_of_ne {other : JobId} (hne : other ≠ id) :
    (state.answered id delta).db.jobs.get? other = state.db.jobs.get? other := by
  unfold InputDb.answered markCompletedInTxn
  rcases state.db.transition_cases id (NodeJob.complete state.db.now delta 0 none)
    with hmiss | ⟨found, -, -, hhit⟩
  · rw [hmiss]
  · rw [hhit]
    exact Table.get?_modify_of_ne _ _ hne

theorem runs_answered : (state.answered id delta).db.runs = state.db.runs :=
  (state.db.transition_jobsOnly id _).runs

variable (hfor : AnswerFor state.db row id job) (hopen : job.status.Open)

include hfor hopen

theorem nodeTaken_answered {cell : String} :
    (state.answered id delta).db.NodeTaken row.runId cell ↔ state.db.NodeTaken row.runId cell := by
  simp only [Db.nodeTaken_iff]
  refine exists_congr fun other => ?_
  by_cases hother : other = id
  · subst hother
    rw [get?_answered_self hfor.get hopen, hfor.get]
    simp only [Option.some.injEq, exists_eq_left']
    exact Iff.rfl
  · rw [get?_answered_of_ne hother]

theorem nodeSettled_answered (cell : String) :
    (state.answered id delta).db.NodeSettled row.runId cell ↔
      state.db.NodeSettled row.runId cell ∨ cell = row.nodeId := by
  constructor
  · rintro ⟨other, found, hget, hrun, hnode, hsettled⟩
    by_cases hother : other = id
    · subst hother
      rw [get?_answered_self hfor.get hopen] at hget
      cases hget
      exact Or.inr (hnode.symm.trans hfor.nodeId)
    · rw [get?_answered_of_ne hother] at hget
      exact Or.inl ⟨other, found, hget, hrun, hnode, hsettled⟩
  · rintro (⟨other, found, hget, hrun, hnode, hsettled⟩ | rfl)
    · by_cases hother : other = id
      · subst hother
        obtain rfl := mem_unique hget hfor.get
        exact ⟨other, _, get?_answered_self hget hopen, hrun, hnode, Or.inl rfl⟩
      · exact ⟨other, found, (get?_answered_of_ne hother).trans hget, hrun, hnode, hsettled⟩
    · exact ⟨id, _, get?_answered_self hfor.get hopen, hfor.runId, hfor.nodeId, Or.inl rfl⟩

theorem closed_answered_iff (delta : Context) :
    (state.answered id delta).db.Closed row.runId nodes ↔
      ∀ node ∈ nodes,
        (∀ dep ∈ node.dependsOn, state.db.NodeSettled row.runId dep ∨ dep = row.nodeId) →
          state.db.NodeTaken row.runId node.id := by
  unfold Db.Closed DepsSettled
  simp only [nodeSettled_answered hfor hopen, nodeTaken_answered hfor hopen]

end

/-! ### A resume that is stopped -/

section

variable {runId node : String} {s t : Db}

theorem none_ready_of_closed (hclosed : s.Closed runId nodes) :
    findReadyNodes (s.listJobsForRun runId) nodes = [] := by
  refine List.filter_eq_nil_iff.mpr fun ready hmem hready => ?_
  obtain ⟨hnone, hdeps⟩ := of_decide_eq_true hready
  have htaken := hclosed ready hmem fun dep hdep =>
    nodeSettled_of_settled (List.all_eq_true.mp hdeps dep hdep)
  exact JobMap.get?_eq_none.mp (isNone_iff_eq_none.mp hnone) htaken

theorem processReady_of_closed (hnodes : nodesOf host workflow run.outDir = .ok nodes)
    (hclosed : s.Closed runId nodes) (rounds newRows : ℕ) :
    Safe Nobody (SameCells runId) (fun _ t => t = s)
      (processReady host runId workflow run rounds newRows) s := by
  cases rounds with
  | zero => trivial
  | succ =>
    refine Safe.read_bind fun t hsteps => ?_
    obtain rfl := eq_of_nobody hsteps
    refine ⟨SameCells.of_jobs rfl, ?_⟩
    rw [hnodes]
    simp only [Prog.ofExcept, bind, Prog.bind]
    split
    · exact fun u hsteps => eq_of_nobody hsteps
    · next hready =>
        rw [none_ready_of_closed hclosed] at hready
        cases hready

theorem onNodeCompleted_sameCells (hrun : s.runs.get? runId = some run)
    (hload : host.loadWorkflow run.workflowName = .ok workflow)
    (hnodes : nodesOf host workflow run.outDir = .ok nodes) (hclosed : s.Closed runId nodes)
    (rounds : ℕ) :
    Safe Nobody (SameCells runId) (fun _ _ => True)
      (onNodeCompleted host rounds runId node) s := by
  have hsame (db : Db) : SameCells runId db db := SameCells.of_jobs rfl
  refine Safe.read_bind fun t hsteps => ?_
  obtain rfl := eq_of_nobody hsteps
  refine ⟨hsame t, ?_⟩
  rw [hrun]
  dsimp only
  split
  · exact fun _ _ => trivial
  refine Safe.read_bind fun u hsteps => ?_
  obtain rfl := eq_of_nobody hsteps
  refine ⟨hsame u, ?_⟩
  split
  · exact Safe.of_moves ((finishPatchJob_moves _ _).bind fun _ => trivial)
      (fun _ _ _ => SameCells.of_editsSpec) (fun _ _ _ _ => trivial) (fun _ _ _ _ => trivial)
      trivial
  rw [hload]
  refine (processReady_of_closed hnodes hclosed rounds 0).bind (fun newRows v hv => ?_)
    fun _ _ _ => trivial
  refine Safe.read_bind fun w hsteps => ⟨hsame w, ?_⟩
  rw [hnodes]
  change Safe _ _ _ (ite _ _ _) w
  split
  · exact Safe.write_bind fun x _ => ⟨SameCells.of_jobs rfl, fun _ _ => trivial⟩
  · exact fun _ _ => trivial

end

theorem afterMark_keeps :
    (afterMark env rounds row).Moves fun s t => KeepsCompleted s.db t.db := by
  refine ((onNodeCompleted_keeps rounds).zoom fun _ _ hkeeps => hkeeps).tried.bind fun resumed => ?_
  unfold finishSubmission
  split <;> exact Moves.write fun _ => KeepsCompleted.of_jobs rfl

theorem afterMark_sameCells (rounds : ℕ) (hrun : state.db.runs.get? row.runId = some run)
    (hload : env.host.loadWorkflow run.workflowName = .ok workflow)
    (hnodes : nodesOf env.host workflow run.outDir = .ok nodes)
    (hclosed : state.db.Closed row.runId nodes) (count : ℕ) :
    SameCells row.runId state.db ((afterMark env rounds row).killed count state).db := by
  let kept (s t : InputDb) : Prop := SameCells row.runId s.db t.db
  have hcallback : Safe Nobody kept (fun _ _ => True)
      ((onNodeCompleted env.host rounds row.runId row.nodeId).zoom InputDb.engine) state :=
    (onNodeCompleted_sameCells hrun hload hnodes hclosed rounds).zoom (fun _ _ hmove => hmove)
      (fun _ _ hsame => hsame) fun _ _ _ => trivial
  have hsafe : Safe Nobody kept (fun _ _ => True) (afterMark env rounds row) state := by
    refine hcallback.tried_bind fun resumed t _ => ?_
    unfold finishSubmission
    split <;> exact fun u _ => ⟨SameCells.of_jobs rfl, fun _ _ => trivial⟩
  have hmoves := hsafe.killed count
  generalize (afterMark env rounds row).killed count state = stopped at hmoves ⊢
  induction hmoves with
  | refl => exact SameCells.of_jobs rfl
  | tail _ hlast ih => exact ih.trans hlast

theorem answerFor_killed (env : ListenerEnv) (rounds : ℕ) (hfor : AnswerFor state.db row id job)
    (hopen : job.status.Open) (delta : Context) (count : ℕ) :
    AnswerFor ((afterMark env rounds row).killed count (state.answered id delta)).db row id
      (job.complete state.db.now delta 0 none) := by
  have hunique : (state.answered id delta).db.CellsUnique := by
    change (QueueOp.step .pg state.db (.markCompleted id delta 0 none)).CellsUnique
    exact cellsUnique_step hfor.unique
  have hkeeps := Moves.killed (W := fun s t : InputDb => KeepsCompleted s.db t.db)
    (fun _ => KeepsCompleted.of_jobs rfl) (fun _ _ _ => KeepsCompleted.trans)
    (afterMark_keeps : (afterMark env rounds row).Moves _) count (state.answered id delta)
  exact ⟨hkeeps.unique hunique, hkeeps.rows _ _ (get?_answered_self hfor.get hopen) rfl,
    hfor.runId, hfor.nodeId⟩

def InputDb.atTime (state : InputDb) (now : ℚ) : InputDb :=
  { state with db := { state.db with now := now } }

/-- Wherever the first attempt stopped, the second one leaves the rows alone. -/
theorem nodeTaken_retry {stopped : InputDb} (hfor : AnswerFor stopped.db row id job)
    (hvalue : submittedValue env.depth row.value = .ok value)
    (hclosed : job.status ≠ .awaitingInput ∧ job.status ≠ .queued) (again : ℕ) (later : ℚ)
    (cell : String) :
    ((process env d again row).left (stopped.atTime later)).db.NodeTaken row.runId cell ↔
      stopped.db.NodeTaken row.runId cell := by
  have hlater : AnswerFor (stopped.atTime later).db row id job :=
    ⟨hfor.unique, hfor.get, hfor.runId, hfor.nodeId⟩
  rw [left_process_of_closed hlater hvalue hclosed]
  exact Iff.rfl

theorem resume_crash_safe_iff (env : ListenerEnv) (d : Dialect) (rounds : ℕ)
    (row : ClaimedSubmission) (state : InputDb) (id : JobId) (job : NodeJob) (value : Value)
    (delta : Context) (run : Run) (workflow : Workflow) (nodes : List DagNode)
    (hfor : AnswerFor state.db row id job) (hawaits : job.status = .awaitingInput)
    (hvalue : submittedValue env.depth row.value = .ok value)
    (hdelta : storedDelta d env.host job value = .ok delta)
    (hrun : state.db.runs.get? row.runId = some run)
    (hload : env.host.loadWorkflow run.workflowName = .ok workflow)
    (hnodes : nodesOf env.host workflow run.outDir = .ok nodes) :
    (∀ count again later stopped, stopped = (process env d rounds row).killed count state →
        (∃ found, stopped.db.jobs.get? id = some found ∧ found.status = .completed) →
          ∀ node ∈ nodes, DepsSettled row.runId stopped.db node →
            ((process env d again row).left (stopped.atTime later)).db.NodeTaken row.runId
              node.id) ↔
      ∀ node ∈ nodes,
        (∀ dep ∈ node.dependsOn, state.db.NodeSettled row.runId dep ∨ dep = row.nodeId) →
          state.db.NodeTaken row.runId node.id := by
  have hopened : job.status.Awaits := fun h => h.1 hawaits
  have hopen := open_of_awaits hopened
  have hretry (count : ℕ) := nodeTaken_retry (d := d)
    (answerFor_killed env rounds hfor hopen delta count) hvalue ⟨nofun, nofun⟩
  rw [← closed_answered_iff hfor hopen delta]
  constructor
  · intro hsafe node hmem hdeps
    have hstopped : state.answered id delta = (process env d rounds row).killed 2 state :=
      (killed_process hfor hvalue hopened hdelta 0).symm
    have htaken := hsafe 2 0 0 _ hstopped ⟨_, get?_answered_self hfor.get hopen, rfl⟩ node hmem
      hdeps
    exact (hretry 0 0 0 node.id).mp htaken
  · rintro hclosed count again later stopped rfl ⟨found, hget, hcompleted⟩ node hmem hdeps
    have hbefore : state.db.jobs.get? id ≠ some found := by
      rintro hfound
      obtain rfl := mem_unique hfor.get hfound
      cases hawaits.symm.trans hcompleted
    rcases count with _ | _ | count
    · exact absurd hget hbefore
    · change ((process env d rounds row).advance state).1.db.jobs.get? id = some found at hget
      rw [advance_process hfor hvalue] at hget
      exact absurd hget hbefore
    · rw [killed_process hfor hvalue hopened hdelta count] at hdeps ⊢
      have hrunAfter : (state.answered id delta).db.runs.get? row.runId = some run := by
        rwa [runs_answered]
      have hsame := afterMark_sameCells rounds hrunAfter hload hnodes hclosed count
      rw [hretry, hsame.taken]
      exact hclosed node hmem fun dep hdep => (hsame.settled dep).mp (hdeps dep hdep)

/-! A run that is parked at its first step, with the answer on its way. -/

def askSteps : List Step :=
  [{ id := "ask", kind := .input none (some "answer") },
    { id := "next", kind := .input none none, dependsOn := ["ask"] }]

def askHost (steps : List Step) : Host where
  loadWorkflow := fun _ => .ok ⟨steps⟩
  pipelineSchema := fun name => .error (.keyError name)
  resolveRef := fun value _ => .ok value

def askEnv (steps : List Step) : ListenerEnv where
  host := askHost steps

def askJob (status : JobStatus) : NodeJob where
  runId := "r"
  nodeId := "ask"
  nodeModule := "__input__None"
  queue := .cpu
  project := ""
  status := status
  inputs := [("widget", .null), ("target", .str "answer")]
  createdAt := 0

def askRun : Run where
  workflowName := "w"
  status := .running

def askState (status : JobStatus) (value : Column) : InputDb where
  db := { jobs := Table.ofRows [askJob status], runs := OrdDict.empty.insert "r" askRun }
  submissions := Table.ofRows
    [{ runId := "r", nodeId := "ask", value := value, status := .processing, claimedAt := some 0,
       createdAt := 0 }]

def askSubmission (value : Fetched) : ClaimedSubmission where
  id := 0
  runId := "r"
  nodeId := "ask"
  value := value

theorem cellsUnique_of_entries {db : Db}
    (hentries : ∀ entry ∈ db.jobs.entries, ∀ other ∈ db.jobs.entries,
      entry.2.runId = other.2.runId → entry.2.nodeId = other.2.nodeId → entry.1 = other.1) :
    db.CellsUnique :=
  fun id other row twin hrow htwin =>
    hentries (id, row) (Table.mem_entries.mpr hrow) (other, twin) (Table.mem_entries.mpr htwin)

theorem answerFor_ask (status : JobStatus) (column : Column) (value : Fetched) :
    AnswerFor (askState status column).db (askSubmission value) 0 (askJob status) := by
  refine ⟨cellsUnique_of_entries fun entry hentry other hother _ _ => ?_, rfl, rfl, rfl⟩
  obtain rfl := List.mem_singleton.mp hentry
  obtain rfl := List.mem_singleton.mp hother
  rfl

def joinSteps : List Step :=
  [{ id := "ask", kind := .input none (some "answer") }, { id := "more", kind := .input none none },
    { id := "next", kind := .input none none, dependsOn := ["ask", "more"] }]

def joinState : InputDb :=
  let asked := askState .awaitingInput (.jsonb (.bool true))
  let more := { askJob .awaitingInput with nodeId := "more" }
  { asked with db := { asked.db with jobs := asked.db.jobs.append more } }

/-- Two questions are open and the last step waits for both answers. -/
theorem resume_crash_safe_iff_join :
    let listener (rounds : ℕ) :=
      process (askEnv joinSteps) .pg rounds (askSubmission (.value (.bool true)))
    ∀ nodes, nodesOf (askHost joinSteps) ⟨joinSteps⟩ none = .ok nodes →
      ∀ count again later stopped, stopped = (listener 4).killed count joinState →
        (∃ found, stopped.db.jobs.get? 0 = some found ∧ found.status = .completed) →
          ∀ node ∈ nodes, DepsSettled "r" stopped.db node →
            ((listener again).left (stopped.atTime later)).db.NodeTaken "r" node.id := by
  intro listener nodes hnodes
  have hfor : AnswerFor joinState.db (askSubmission (.value (.bool true))) 0
      (askJob .awaitingInput) :=
    ⟨cellsUnique_of_entries (by decide +kernel), rfl, rfl, rfl⟩
  refine (resume_crash_safe_iff (askEnv joinSteps) .pg 4 (askSubmission (.value (.bool true)))
    joinState 0 (askJob .awaitingInput) (.bool true) [("answer", .bool true)] askRun ⟨joinSteps⟩
    nodes hfor rfl rfl rfl rfl rfl hnodes).mpr ?_
  cases hnodes
  decide +kernel

/-- The listener stops right after it marked the row. The answer is processed again, and the step
that waited for it is never inserted; without the crash it is. -/
theorem crashed_resume_strands_dependent :
    let listener := process (askEnv askSteps) .pg 3 (askSubmission (.value (.bool true)))
    let state := askState .awaitingInput (.jsonb (.bool true))
    let stopped := listener.killed 2 state
    (stopped.db.jobs.get? 0).map NodeJob.status = some .completed ∧
      stopped.db.NodeSettled "r" "ask" ∧
      ¬ (listener.left (stopped.atTime 100)).db.NodeTaken "r" "next" ∧
      (listener.left state).db.NodeTaken "r" "next" := by
  decide +kernel

/-! ### A worker that holds the row -/

def QueueOp.Parks : QueueOp → Prop
  | .claimCpu _ _ => True
  | .claimDownload _ _ => True
  | .claimGpu _ _ => True
  | .parkInput _ => True
  | .markAwaitingInput _ => True
  | .renewLease _ _ _ => True
  | .heartbeat _ _ => True
  | .clock _ => True
  | _ => False

def WorkerMove (d : Dialect) (s t : Db) : Prop := ∃ op : QueueOp, op.Parks ∧ t = op.step d s

def Saved (id : JobId) (delta : Context) (db : Db) : Prop :=
  ∃ row, db.jobs.get? id = some row ∧ row.status = .completed ∧ row.contextDelta = delta

def StillOpen (id : JobId) (db : Db) : Prop :=
  ∃ row, db.jobs.get? id = some row ∧ row.status.Open

section

variable {s t : Db}

def OpenMove (id : JobId) (s t : Db) : Prop :=
  t.jobs.get? id = s.jobs.get? id ∨ StillOpen id s ∧ StillOpen id t

theorem openMove_modify {target : JobId} {row : NodeJob} {set : NodeJob → NodeJob}
    (hget : s.jobs.get? target = some row) (hopen : row.status.Open)
    (hset : (set row).status.Open) :
    OpenMove id s { s with jobs := s.jobs.modify target set } := by
  by_cases heq : id = target
  · subst heq
    refine Or.inr ⟨⟨row, hget, hopen⟩, set row, ?_, hset⟩
    rw [Table.get?_modify_self, hget]
    rfl
  · exact Or.inl (Table.get?_modify_of_ne _ _ heq)

theorem openMove_execute (sql : ClaimSql) (env : ClaimEnv) :
    OpenMove id s (sql.execute d env s).1 := by
  rcases sql.execute_cases d env s with hnone | ⟨taken, row, hget, hholds, htaken⟩
  · rw [hnone]
    exact Or.inl rfl
  · rw [htaken]
    have hqueued := (ClaimSql.eligible_holds.mp hholds).2.1
    exact openMove_modify hget (by rw [hqueued]; decide) (by decide : JobStatus.running.Open)

theorem openMove_park (target : JobId) : OpenMove id s (markAwaitingInputInTxn target s).1 := by
  unfold markAwaitingInputInTxn
  rcases s.transition_cases target NodeJob.park with hmiss | ⟨row, hget, hopen, hhit⟩
  · rw [hmiss]
    exact Or.inl rfl
  · rw [hhit]
    exact openMove_modify hget hopen (by decide : JobStatus.awaitingInput.Open)

theorem openMove_renew (target : JobId) (claimedBy : String) (leaseS : ℤ) :
    OpenMove id s (renewLease target claimedBy leaseS s) := by
  unfold OpenMove StillOpen renewLease Db.updateRunning Db.updateJobs
  rw [Table.get?_update]
  cases hget : s.jobs.get? id with
  | none => exact Or.inl rfl
  | some row =>
    simp only [map_some]
    split
    · next hselected =>
        have hopen : row.status.Open := by
          rw [hselected.1]
          decide
        exact Or.inr ⟨⟨row, rfl, hopen⟩, _, rfl, hopen⟩
    · exact Or.inl rfl

theorem WorkerMove.openMove (hmove : WorkerMove d s t) (id : JobId) : OpenMove id s t := by
  obtain ⟨op, hparks, rfl⟩ := hmove
  cases op with
  | claimCpu args env | claimDownload args env | claimGpu args env => exact openMove_execute _ env
  | parkInput job => exact openMove_park job.id
  | markAwaitingInput target => exact openMove_park target
  | renewLease target claimedBy leaseS => exact openMove_renew target claimedBy leaseS
  | heartbeat | clock => exact Or.inl rfl
  | _ => exact hparks.elim

theorem stable_stillOpen : Stable (WorkerMove d) (StillOpen id) := by
  intro s t hmove hopen
  rcases hmove.openMove id with hsame | ⟨-, hafter⟩
  · unfold StillOpen
    rwa [hsame]
  · exact hafter

theorem stable_saved : Stable (WorkerMove d) (Saved id delta) := by
  intro s t hmove hsaved
  rcases hmove.openMove id with hsame | ⟨⟨row, hget, hopen⟩, -⟩
  · unfold Saved
    rwa [hsame]
  · obtain ⟨found, hfound, hcompleted, -⟩ := hsaved
    obtain rfl := mem_unique hget hfound
    exact absurd hcompleted hopen.1

theorem saved_mark (hopen : StillOpen id s) (delta : Context) :
    Saved id delta (markCompletedInTxn id delta 0 none s).1 := by
  obtain ⟨row, hget, hstatus⟩ := hopen
  exact ⟨_, Db.get?_transition_of_open _ hget hstatus, rfl, rfl⟩

theorem KeepsCompleted.saved (hkeeps : KeepsCompleted s t) (hsaved : Saved id delta s) :
    Saved id delta t := by
  obtain ⟨row, hget, hstatus, hdelta⟩ := hsaved
  exact ⟨row, hkeeps.rows id row hget hstatus, hstatus, hdelta⟩

theorem completeInput_saves (host : Host) (rounds : ℕ) (runId node : String) (job : NodeJob)
    (value : Value) (hopen : StillOpen id s) :
    Safe (WorkerMove d) (fun _ _ => True)
      (onReturn fun _ t =>
        ∃ delta, storedDelta d host job value = .ok delta ∧ Saved id delta t)
      (completeInput d host rounds runId node id job value) s := by
  refine Safe.ofExcept_bind fun delta hdelta => ?_
  refine Safe.exec_bind fun t hsteps => ⟨trivial, ?_⟩
  have hsaved := saved_mark (stable_stillOpen.steps hsteps hopen) delta
  have hkept : Safe (WorkerMove d) (fun _ _ => True) (fun _ => Saved id delta)
      (onNodeCompleted host rounds runId node) (markCompletedInTxn id delta 0 none t).1 :=
    Safe.of_moves (onNodeCompleted_keeps rounds) (fun _ _ _ _ => trivial) stable_saved
      (fun _ _ hkeeps => hkeeps.saved) hsaved
  exact hkept.mono_return fun _ _ hdone => ⟨delta, hdelta, hdone⟩

end

/-! ### The answer under its target -/

theorem submittedDelta_of_target (htarget : lookupIn job.inputs "target" = some (.str target))
    (hne : target ≠ "") (hnull : value ≠ .null) :
    submittedDelta host job value = .ok [(target, value)] := by
  unfold submittedDelta
  cases value <;> simp_all

def answerIn (delta : Context) (target : String) : Value :=
  (OrdDict.lookupIn delta target).getD .null

section

variable (hstored : storedDelta d host job value = .ok delta)
  (htarget : lookupIn job.inputs "target" = some (.str target)) (hne : target ≠ "")

include hstored htarget hne

theorem delta_of_stored :
    value = .null ∧ delta = [] ∨ value ≠ .null ∧ delta = [(target, value)] := by
  obtain ⟨found, hfound, hcheck⟩ := Except.bind_eq_ok_iff.mp hstored
  split at hcheck
  · cases hcheck
    by_cases hnull : value = .null
    · subst hnull
      unfold submittedDelta at hfound
      rw [htarget] at hfound
      cases hfound
      exact Or.inl ⟨rfl, rfl⟩
    · rw [submittedDelta_of_target htarget hne hnull] at hfound
      cases hfound
      exact Or.inr ⟨hnull, rfl⟩
  · cases hcheck

theorem answerIn_of_stored : answerIn delta target = value := by
  rcases delta_of_stored hstored htarget hne with ⟨rfl, rfl⟩ | ⟨-, rfl⟩
  · rfl
  · simp [answerIn, lookupIn]

end

/-! ### Submissions that count as processed -/

def WorkersMove (d : Dialect) (s t : InputDb) : Prop :=
  WorkerMove d s.db t.db ∧ t.submissions = s.submissions

def InputDb.submissionStatus? (state : InputDb) (id : SubmissionId) : Option SubmissionStatus :=
  (state.submissions.get? id).map Submission.status

theorem stable_submissionStatus (sub : SubmissionId) (status : Option SubmissionStatus) :
    Stable (WorkersMove d) fun s => s.submissionStatus? sub = status := by
  intro s t hmove hstatus
  unfold InputDb.submissionStatus? at hstatus ⊢
  rwa [hmove.2]

theorem submissionStatus?_failed (sub : SubmissionId) (error : String) (state : InputDb) :
    (markSubmissionFailed sub error state).submissionStatus? sub ≠ some .processed := by
  unfold InputDb.submissionStatus? markSubmissionFailed
  cases state.submissions.get? sub <;> simp

theorem finishSubmission_safe {fact : InputDb → Prop} (hstable : Stable (WorkersMove d) fact)
    (hmark : ∀ s, fact s → fact (markSubmissionProcessed row.id s)) {resumed : Except PyError ℕ}
    (hfact : ∀ count, resumed = .ok count → fact state) :
    Safe (WorkersMove d) (fun _ _ => True)
      (fun _ t => t.submissionStatus? row.id = some .processed → fact t)
      (finishSubmission env row.id resumed) state := by
  cases resumed with
  | error raised =>
    refine fun t _ => ⟨trivial, fun u hsteps hprocessed => ?_⟩
    have hfailed := submissionStatus?_failed row.id (env.exceptionText raised) t
    have hsame := (stable_submissionStatus row.id _).steps hsteps rfl
    exact absurd (hsame.symm.trans hprocessed) hfailed
  | ok count =>
    refine fun t hsteps => ⟨trivial, fun u hmore _ => ?_⟩
    exact hstable.steps hmore (hmark t (hstable.steps hsteps (hfact count rfl)))

theorem saved_of_stillOpen (hopen : StillOpen id state.db) {result : Except PyError Unit}
    {after : InputDb}
    (hends : Ends (WorkersMove d)
      (((completeInput d env.host rounds row.runId row.nodeId id job value).zoom
        InputDb.engine).tried >>= finishSubmission env row.id) state result after)
    (hprocessed : after.submissionStatus? row.id = some .processed) :
    ∃ delta, storedDelta d env.host job value = .ok delta ∧ Saved id delta after.db := by
  let saved (s : InputDb) : Prop :=
    ∃ delta, storedDelta d env.host job value = .ok delta ∧ Saved id delta s.db
  have hstable : Stable (WorkersMove d) saved := by
    rintro s t hmove ⟨delta, hdelta, hsaved⟩
    exact ⟨delta, hdelta, stable_saved s.db t.db hmove.1 hsaved⟩
  have hresume : Safe (WorkersMove d) (fun _ _ => True)
      (fun result t => ∀ count, result = .ok count → saved t)
      ((completeInput d env.host rounds row.runId row.nodeId id job value).zoom InputDb.engine)
      state := by
    refine (completeInput_saves env.host rounds row.runId row.nodeId job value hopen).zoom
      (fun _ _ hmove => hmove.1) (fun _ _ _ => trivial) ?_
    rintro result t hpost count rfl
    exact hpost
  have hend : after.submissionStatus? row.id = some .processed → saved after :=
    (hresume.tried_bind fun resumed t hpost =>
      finishSubmission_safe hstable (fun _ hsaved => hsaved) hpost).of_ends hends
  exact hend hprocessed

/-- A submission that ends up processed is never lost, whatever the workers do between the
listener's statements, exactly when no worker held the row at its first look. -/
theorem submission_kept_iff (env : ListenerEnv) (d : Dialect) (rounds : ℕ)
    (row : ClaimedSubmission) (state : InputDb) (id : JobId) (job : NodeJob) (value : Value)
    (hfor : AnswerFor state.db row id job) (hlive : ¬ job.status.Terminal)
    (hvalue : submittedValue env.depth row.value = .ok value)
    (hsubmitted : state.submissionStatus? row.id = some .processing) :
    (∀ result after,
        Prog.Ends (WorkersMove d) ((process env d rounds row).advance state).2
          ((process env d rounds row).advance state).1 result after →
        after.submissionStatus? row.id = some .processed →
          ∃ found, after.db.jobs.get? id = some found ∧ found.status = .completed ∧
            ∀ target, OrdDict.lookupIn job.inputs "target" = some (.str target) → target ≠ "" →
              answerIn found.contextDelta target = value) ↔
      job.status ≠ .running := by
  constructor
  · intro hkept hrunning
    have hclosed : job.status ≠ .awaitingInput ∧ job.status ≠ .queued := by
      rw [hrunning]
      decide
    -- Alone, the listener drops the answer and marks the submission.
    have hends : Ends (WorkersMove d) ((process env d rounds row).advance state).2
        ((process env d rounds row).advance state).1 (.ok ())
        (markSubmissionProcessed row.id state) := by
      rw [advance_process hfor hvalue, answers, if_pos hclosed]
      exact .stmt Relation.ReflTransGen.refl (.ret Relation.ReflTransGen.refl)
    have hprocessed : (markSubmissionProcessed row.id state).submissionStatus? row.id =
        some .processed := by
      obtain ⟨submission, hget, -⟩ := map_eq_some_iff.mp hsubmitted
      unfold InputDb.submissionStatus? markSubmissionProcessed
      rw [Table.get?_modify_self, hget]
      rfl
    obtain ⟨found, hfound, hcompleted, -⟩ := hkept _ _ hends hprocessed
    obtain rfl := mem_unique hfor.get hfound
    cases hrunning.symm.trans hcompleted
  · intro hidle result after hends hprocessed
    have hawaits : job.status.Awaits := by
      rintro ⟨hnotAwaiting, hnotQueued⟩
      apply hlive
      cases hstatus : job.status <;> simp_all [JobStatus.Terminal]
    rw [advance_process hfor hvalue, answers, if_neg hawaits] at hends
    obtain ⟨delta, hdelta, found, hget, hcompleted, hfound⟩ :=
      saved_of_stillOpen ⟨job, hfor.get, open_of_awaits hawaits⟩ hends hprocessed
    refine ⟨found, hget, hcompleted, fun target htarget hne => ?_⟩
    rw [hfound]
    exact answerIn_of_stored hdelta htarget hne

theorem submission_kept_iff_parked :
    ¬ (askJob .awaitingInput).status.Terminal ∧
      ∀ result after,
        Prog.Ends (WorkersMove .pg)
          ((process (askEnv askSteps) .pg 3 (askSubmission (.value (.bool true)))).advance
            (askState .awaitingInput (.jsonb (.bool true)))).2
          ((process (askEnv askSteps) .pg 3 (askSubmission (.value (.bool true)))).advance
            (askState .awaitingInput (.jsonb (.bool true)))).1 result after →
        after.submissionStatus? 0 = some .processed →
          ∃ found, after.db.jobs.get? 0 = some found ∧ found.status = .completed ∧
            ∀ target,
              OrdDict.lookupIn (askJob .awaitingInput).inputs "target" = some (.str target) →
              target ≠ "" → answerIn found.contextDelta target = .bool true := by
  have hlive : ¬ (askJob .awaitingInput).status.Terminal := by
    rintro (h | h | h | h) <;> exact absurd h (by decide)
  exact ⟨hlive, (submission_kept_iff (askEnv askSteps) .pg 3 (askSubmission (.value (.bool true)))
    (askState .awaitingInput (.jsonb (.bool true))) 0 (askJob .awaitingInput) (.bool true)
    (answerFor_ask _ _ _) hlive rfl (by decide +kernel)).mpr (by decide)⟩

/-- The worker parks the input node after the answer was processed: the node waits for ever. -/
theorem submission_lost_while_running :
    let state := askState .running (.jsonb (.bool true))
    let after := (process (askEnv askSteps) .pg 3 (askSubmission (.value (.bool true)))).left state
    let parked := parkInput ⟨0, askJob .running⟩ after.db
    after.submissionStatus? 0 = some .processed ∧
      (parked.jobs.get? 0).map NodeJob.status = some .awaitingInput ∧
      (parked.jobs.get? 0).map (fun row => row.contextDelta.length) = some 0 := by
  decide +kernel

/-! ### The value that arrives -/

def Column.Holds (depth : ℕ) (value : Value) : Dialect → Column → Prop
  | .pg, .jsonb stored => stored = value ∧ jsonbAccepts value = true
  | .sqlite, .text raw => Json.loads Value.reader depth raw = .ok value
  | _, _ => False

def Value.ReadsAsJson (depth : ℕ) (value : Value) : Prop :=
  ∃ text read, value = .str text ∧ Json.loads Value.reader depth text = .ok read

section

variable {depth : ℕ} {arrived : Value} {column : Column}

theorem Column.Holds.fetch (hholds : column.Holds depth value d) :
    column.fetch depth = .ok (.value value) := by
  cases d <;> cases column
  all_goals try exact hholds.elim
  · obtain ⟨rfl, -⟩ := hholds
    rfl
  · have hread : Json.loads Value.reader depth _ = .ok value := hholds
    simp only [Column.fetch, hread]

theorem loads_ne_self {text : String} {read : Value}
    (hread : Json.loads Value.reader depth text = .ok read) : read ≠ .str text := by
  rintro rfl
  generalize hvalue : Value.str text = value at hread
  have hmakes := Json.loads_makes hread
  cases hmakes with
  | str hshort =>
    obtain rfl := Value.str.inj hvalue
    exact absurd hshort (Nat.lt_irrefl _)
  | float number => cases number <;> exact absurd hvalue (by simp [Value.reader, Value.ofFloat])
  | _ => cases hvalue

theorem submittedValue_eq_iff (harrived : submittedValue depth (.value value) = .ok arrived) :
    arrived = value ↔ ¬ value.ReadsAsJson depth := by
  cases value with
  | str text =>
    cases harrived
    unfold decodeText Value.ReadsAsJson
    cases hread : Json.loads Value.reader depth text with
    | ok read =>
      have hne := loads_ne_self hread
      simp only [hne, false_iff, not_not]
      exact ⟨text, read, rfl, hread⟩
    | error =>
      simp only [true_iff]
      rintro ⟨other, read, hother, hok⟩
      obtain rfl := Value.str.inj hother
      cases hread.symm.trans hok
  | _ =>
    cases harrived
    simp [Value.ReadsAsJson]

theorem jsonbAccepts_of_lookup {entries : Context} {key : String} {found : Value}
    (haccepts : jsonbAcceptsEntries entries = true)
    (hget : lookupIn entries key = some found) : jsonbAccepts found = true := by
  induction entries with
  | nil => cases hget
  | cons entry rest ih =>
    simp only [jsonbAcceptsEntries, Bool.and_eq_true] at haccepts
    rw [lookupIn_cons] at hget
    split at hget
    · cases hget
      exact haccepts.1.2
    · exact ih haccepts.2 hget

theorem storesJson_target (hholds : column.Holds depth value d)
    (hinputs : d.storesJson job.inputs = true)
    (htarget : lookupIn job.inputs "target" = some (.str target)) :
    d.storesJson [(target, value)] = true := by
  cases d with
  | sqlite => rfl
  | pg =>
    have htext : jsonbAccepts (.str target) = true := jsonbAccepts_of_lookup hinputs htarget
    have hvalue : jsonbAccepts value = true := by
      cases column with
      | jsonb => exact hholds.2
      | _ => exact hholds.elim
    have htarget : jsonbText target = true := by simpa [jsonbAccepts] using htext
    simp [Dialect.storesJson, jsonbAcceptsEntries, htarget, hvalue]

variable (hfor : AnswerFor state.db row id job) (hawaits : job.status.Awaits)

include hfor hawaits

theorem saved_left_process (rounds : ℕ) (hvalue : submittedValue env.depth row.value = .ok value)
    (hdelta : storedDelta d env.host job value = .ok delta) :
    Saved id delta ((process env d rounds row).left state).db := by
  rw [left_process hfor hvalue hawaits hdelta]
  have hkeeps := Moves.left (W := fun s t : InputDb => KeepsCompleted s.db t.db)
    (fun _ => KeepsCompleted.of_jobs rfl) (fun _ _ _ => KeepsCompleted.trans)
    (afterMark_keeps : (afterMark env rounds row).Moves _) (state.answered id delta)
  exact hkeeps.saved (saved_mark ⟨job, hfor.get, open_of_awaits hawaits⟩ delta)

theorem left_process_refused {raised : PyError}
    (hvalue : submittedValue env.depth row.value = .ok value)
    (hrefused : storedDelta d env.host job value = .error raised) :
    ((process env d rounds row).left state).db = state.db := by
  have hraise : completeInput d env.host rounds row.runId row.nodeId id job value =
      .raise raised := by
    unfold completeInput
    rw [hrefused]
    rfl
  rw [← left_advance, advance_process hfor hvalue, answers, if_neg hawaits, hraise]
  rfl

theorem arrives_iff_eq (harrived : submittedValue env.depth row.value = .ok arrived)
    (htarget : lookupIn job.inputs "target" = some (.str target)) (hne : target ≠ "")
    (hnull : value ≠ .null) (hstores : d.storesJson [(target, value)] = true) :
    (∃ found, ((process env d rounds row).left state).db.jobs.get? id = some found ∧
        found.status = .completed ∧ lookupIn found.contextDelta target = some value) ↔
      arrived = value := by
  cases hdelta : storedDelta d env.host job arrived with
  | error =>
    rw [left_process_refused hfor hawaits harrived hdelta]
    constructor
    · rintro ⟨found, hfound, hcompleted, -⟩
      obtain rfl := mem_unique hfor.get hfound
      exact absurd hcompleted (open_of_awaits hawaits).1
    · rintro rfl
      unfold storedDelta at hdelta
      rw [submittedDelta_of_target htarget hne hnull] at hdelta
      simp [bind, Except.bind, hstores, pure, Except.pure] at hdelta
  | ok delta =>
    obtain ⟨found, hfound, hcompleted, hcolumn⟩ :=
      saved_left_process hfor hawaits rounds harrived hdelta
    have hlookup : lookupIn delta target = some value ↔ arrived = value := by
      rcases delta_of_stored hdelta htarget hne with ⟨rfl, rfl⟩ | ⟨-, rfl⟩
      · simp [lookupIn, hnull.symm]
      · simp [lookupIn]
    rw [← hlookup, ← hcolumn]
    constructor
    · rintro ⟨other, hother, -, hvalue⟩
      obtain rfl := mem_unique hfound hother
      exact hvalue
    · exact fun hvalue => ⟨found, hfound, hcompleted, hvalue⟩

end

/-- The answer to a waiting input node with a target arrives as it was stored, on either backend,
exactly when it is no string that is itself JSON text. -/
theorem submitted_value_arrives_iff (env : ListenerEnv) (d : Dialect) (rounds : ℕ)
    (submission : Submission) (sub : SubmissionId) (row : ClaimedSubmission) (state : InputDb)
    (id : JobId) (job : NodeJob) (value : Value) (target : String)
    (hholds : submission.value.Holds env.depth value d) (hnull : value ≠ .null)
    (hrow : ClaimedSubmission.ofRow env.depth sub submission = .ok row)
    (hfor : AnswerFor state.db row id job)
    (hawaits : job.status = .awaitingInput ∨ job.status = .queued)
    (hinputs : d.storesJson job.inputs = true)
    (htarget : OrdDict.lookupIn job.inputs "target" = some (.str target)) (hne : target ≠ "") :
    (∃ found, ((process env d rounds row).left state).db.jobs.get? id = some found ∧
        found.status = .completed ∧ OrdDict.lookupIn found.contextDelta target = some value) ↔
      ¬ value.ReadsAsJson env.depth := by
  have hopened : job.status.Awaits := by
    rintro ⟨hnotAwaiting, hnotQueued⟩
    exact hawaits.elim hnotAwaiting hnotQueued
  have hfetched : row.value = .value value := by
    unfold ClaimedSubmission.ofRow at hrow
    rw [hholds.fetch] at hrow
    cases hrow
    rfl
  obtain ⟨arrived, harrived⟩ :
      ∃ arrived, submittedValue env.depth (.value value) = .ok arrived := by
    cases value <;> exact ⟨_, rfl⟩
  rw [← submittedValue_eq_iff harrived]
  rw [← hfetched] at harrived
  exact arrives_iff_eq hfor hopened harrived htarget hne hnull
    (storesJson_target hholds hinputs htarget)

theorem submitted_value_arrives_iff_word :
    ¬ (Value.str "yes").ReadsAsJson 1000 ∧
      ∃ found,
        ((process (askEnv askSteps) .pg 3 (askSubmission (.value (.str "yes")))).left
          (askState .awaitingInput (.jsonb (.str "yes")))).db.jobs.get? 0 = some found ∧
        found.status = .completed ∧
        OrdDict.lookupIn found.contextDelta "answer" = some (.str "yes") := by
  have hword : ¬ (Value.str "yes").ReadsAsJson 1000 := by
    rintro ⟨text, read, htext, hread⟩
    obtain rfl := Value.str.inj htext
    have herror : (Json.loads Value.reader 1000 "yes").isOk = false := by decide +kernel
    rw [hread] at herror
    cases herror
  refine ⟨hword, (submitted_value_arrives_iff (askEnv askSteps) .pg 3
    { runId := "r", nodeId := "ask", value := .jsonb (.str "yes"), createdAt := 0 } 0
    (askSubmission (.value (.str "yes"))) (askState .awaitingInput (.jsonb (.str "yes"))) 0
    (askJob .awaitingInput) (.str "yes") "answer" ⟨rfl, by decide +kernel⟩ (by simp) rfl
    (answerFor_ask _ _ _) (Or.inl rfl) (by decide +kernel) rfl (by decide)).mpr hword⟩

/-- A text of digits arrives as a number, on either backend. -/
theorem digits_arrive_as_number :
    let digits := Value.str "123"
    let left (d : Dialect) := ((process (askEnv askSteps) d 3 (askSubmission (.value digits))).left
      (askState .awaitingInput (.jsonb digits))).db.jobs.get? 0
    let answer (d : Dialect) := (left d).bind fun row => OrdDict.lookupIn row.contextDelta "answer"
    (Column.text "\"123\"").fetch 1000 = .ok (.value digits) ∧
      answer .pg = some (.num 123) ∧ answer .sqlite = some (.num 123) := by
  refine ⟨rfl, ?_, ?_⟩ <;> rfl

end BrokerParrot
