import BrokerParrot.Proof.DagOrder
import BrokerParrot.Proof.SoloExpansion

/-!
# The reconciler ends

One call may insert nothing but markers, and another may drop dead rows and then insert nothing but
markers again. After that nothing is ready and nothing is left to drop, so the third call at the
latest settles the run or finds that it has been given work.
-/

namespace BrokerParrot

open Prog List

variable {runId : String} {host : Host} {source : String × Option String} {workflow : Workflow}
  {nodes : List DagNode} {rounds : ℕ}

namespace Db

def Idle (runId : String) (db : Db) : Prop :=
  ∀ entry ∈ db.listJobsForRun runId, ¬ entry.2.status.Live

def Undead (runId : String) (db : Db) : Prop :=
  ∀ entry ∈ db.listJobsForRun runId, entry.2.status.Settled

def Resolved (runId : String) (db : Db) : Prop :=
  (∃ status, db.runStatus? runId = some status ∧ status.Terminal) ∨
    ∃ entry ∈ db.listJobsForRun runId, entry.2.status = .queued

end Db

structure Stuck (runId : String) (source : String × Option String) (db : Db) : Prop where
  sourced : Sourced runId source db
  active : ∀ run, db.runs.get? runId = some run → ¬ run.status.Terminal
  idle : db.Idle runId

def KeepsSettled (s t : Db) : Prop :=
  ∀ id row, s.jobs.get? id = some row → row.status.Settled → t.jobs.get? id = some row

theorem KeepsSettled.trans {s t u : Db} (hst : KeepsSettled s t) (htu : KeepsSettled t u) :
    KeepsSettled s u :=
  fun id row hget hsettled => htu id row (hst id row hget hsettled) hsettled

theorem KeepsSettled.of_grown {s t : Db} (hgrown : Grown runId s t) : KeepsSettled s t :=
  fun _ _ hget _ => hgrown.get? hget

/-! ### What the parts of a call do -/

section

variable {run : Run} {s t : Db}

theorem keepsSettled_delete (runId : String) (db : Db) :
    KeepsSettled db (deleteNonTerminalJobsForRun runId db).1 := by
  intro id row hget hsettled
  change (db.jobs.filter _).get? id = _
  rw [Table.get?_filter, hget, Option.filter_some, if_pos]
  rcases hsettled with hstatus | hstatus <;> simp [hstatus]

theorem listJobsForRun_delete (runId : String) (db : Db) :
    (deleteNonTerminalJobsForRun runId db).1.listJobsForRun runId =
      (db.listJobsForRun runId).filter fun entry => entry.2.status.Settled := by
  change (db.jobs.entries.filter _).filter _ = (db.jobs.entries.filter _).filter _
  rw [filter_filter, filter_filter]
  refine filter_congr fun entry _ => ?_
  by_cases hrun : entry.2.runId = runId
  · simp only [hrun, JobStatus.Settled, true_and, decide_true, Bool.and_true, Bool.true_and]
    grind
  · simp [hrun]

theorem undead_delete (runId : String) (db : Db) :
    (deleteNonTerminalJobsForRun runId db).1.Undead runId := by
  intro entry hmem
  rw [listJobsForRun_delete] at hmem
  exact of_decide_eq_true (mem_filter.mp hmem).2

theorem dropped_eq_nil (hundead : s.Undead runId) :
    (deleteNonTerminalJobsForRun runId s).2 = [] := by
  unfold deleteNonTerminalJobsForRun
  dsimp only
  rw [eq_nil_iff_forall_not_mem]
  intro node hmem
  obtain ⟨id, hseen⟩ := Table.mem_collect.mp hmem
  obtain ⟨row, hget, hview⟩ := Option.bind_eq_some_iff.mp hseen
  dsimp only at hview
  split_ifs at hview with hdoomed
  obtain ⟨hrun, hcompleted, hskipped⟩ := of_decide_eq_true hdoomed
  exact (hundead (id, row) (mem_listJobsForRun.mpr ⟨hget, hrun⟩)).elim hcompleted hskipped

theorem Db.Undead.idle (hundead : s.Undead runId) : s.Idle runId := by
  intro entry hmem
  rcases hundead entry hmem with hstatus | hstatus <;> simp [JobStatus.Live, hstatus]

theorem alone_reconcileRun (hget : s.runs.get? runId = some run) (hactive : ¬ run.status.Terminal)
    (hidle : s.Idle runId) (hload : host.loadWorkflow run.workflowName = .ok workflow)
    (hnodes : nodesOf host workflow run.outDir = .ok nodes) :
    (reconcileRun host rounds runId).alone s =
      if allSettled (s.listJobsForRun runId) nodes = true then
        some (.ok .completed, s.finishRun runId .completed none)
      else
        (reopen host rounds runId workflow run).alone s := by
  have hnone : (s.listJobsForRun runId).any (fun entry => entry.2.status.Live) = false := by
    rw [any_eq_false]
    exact fun entry hmem => by simpa using hidle entry hmem
  unfold reconcileRun
  rw [getRun, alone_read_bind, hget]
  dsimp only
  rw [if_neg hactive, jobsByNodeId, alone_read_bind, hnone, if_neg (by decide), hload]
  change Prog.alone (ofExcept (nodesOf host workflow run.outDir) >>= _) s = _
  rw [hnodes]
  change Prog.alone (if allSettled (s.listJobsForRun runId) nodes = true then _ else _) s = _
  split <;> rfl

theorem alone_reconcileRun_cases (host : Host) (rounds : ℕ) (runId : String) (s : Db) :
    (∃ result, (reconcileRun host rounds runId).alone s = some (result, s)) ∨
      ∃ run workflow nodes, s.runs.get? runId = some run ∧ ¬ run.status.Terminal ∧ s.Idle runId ∧
        host.loadWorkflow run.workflowName = .ok workflow ∧
        nodesOf host workflow run.outDir = .ok nodes := by
  unfold reconcileRun
  rw [getRun, alone_read_bind]
  cases hget : s.runs.get? runId with
  | none => exact Or.inl ⟨_, rfl⟩
  | some run =>
    dsimp only
    by_cases hterminal : run.status.Terminal
    · rw [if_pos hterminal]
      exact Or.inl ⟨_, rfl⟩
    rw [if_neg hterminal, jobsByNodeId, alone_read_bind]
    by_cases hlive : (s.listJobsForRun runId).any (fun entry => entry.2.status.Live) = true
    · rw [if_pos hlive]
      exact Or.inl ⟨_, rfl⟩
    have hidle : s.Idle runId := fun entry hmem halive =>
      hlive (any_eq_true.mpr ⟨entry, hmem, decide_eq_true halive⟩)
    rw [if_neg hlive]
    cases hload : host.loadWorkflow run.workflowName with
    | error => exact Or.inl ⟨_, rfl⟩
    | ok workflow =>
      change (∃ result, Prog.alone (ofExcept (nodesOf host workflow run.outDir) >>= _) s =
        _) ∨ _
      cases hnodes : nodesOf host workflow run.outDir with
      | error => exact Or.inl ⟨_, rfl⟩
      | ok nodes => exact Or.inr ⟨run, workflow, nodes, rfl, hterminal, hidle, hload, hnodes⟩

theorem resolved_or_stuck {u : Db} (hget : s.runs.get? runId = some run) (hidle : s.Idle runId)
    (hgrown : Grown runId s u) :
    (u.updateRun runId fun run => { run with status := .running }).Resolved runId ∨
      Stuck runId run.source (u.updateRun runId fun run => { run with status := .running }) ∧
      (s.Undead runId →
        (u.updateRun runId fun run => { run with status := .running }).Undead runId) := by
  by_cases hwork : ∃ entry ∈ u.listJobsForRun runId, entry.2.status = .queued
  · exact Or.inl (Or.inr hwork)
  -- Without a queued row, whatever was inserted is a marker.
  · have hrows : ∀ entry ∈ u.listJobsForRun runId,
        entry ∈ s.listJobsForRun runId ∨ entry.2.status = .skipped := by
      intro entry hmem
      obtain ⟨hentry, hrun⟩ := mem_listJobsForRun.mp hmem
      refine (hgrown.get?_cases hentry).imp (fun hold => mem_listJobsForRun.mpr ⟨hold, hrun⟩) ?_
      exact fun hnew => hnew.2.resolve_left fun hqueued => hwork ⟨entry, hmem, hqueued⟩
    have hmodified : (u.runs.modify runId fun run => { run with status := .running }).get? runId =
        some { run with status := .running } := by
      rw [OrdDict.get?_modify_self, hgrown.runs, hget, Option.map_some]
    refine Or.inr ⟨⟨congrArg (Option.map Run.source) hmodified, ?_, ?_⟩, ?_⟩
    · intro found hfound
      obtain rfl := Option.mem_unique hmodified hfound
      exact (by decide : ¬ RunStatus.running.Terminal)
    · intro entry hmem
      rcases hrows entry hmem with hold | hskipped
      · exact hidle entry hold
      · simp [JobStatus.Live, hskipped]
    · intro hundead entry hmem
      exact (hrows entry hmem).elim (hundead entry) Or.inr

/-- How far a run is from being settled: something is ready, or only dead rows stand in the way, or
neither. -/
def phase (runId : String) (nodes : List DagNode) (db : Db) : ℕ :=
  if findReadyNodes (db.listJobsForRun runId) nodes ≠ [] then 2
  else if (db.listJobsForRun runId).all fun entry => entry.2.status.Settled then 0
  else 1

theorem phase_le (runId : String) (nodes : List DagNode) (db : Db) : phase runId nodes db ≤ 2 := by
  unfold phase
  split_ifs <;> omega

theorem phase_of_undead (hnone : findReadyNodes (s.listJobsForRun runId) nodes = [])
    (hundead : s.Undead runId) : phase runId nodes s = 0 := by
  unfold phase
  rw [if_neg (not_not.mpr hnone), if_pos]
  exact all_eq_true.mpr fun entry hmem => decide_eq_true (hundead entry hmem)

theorem undead_of_phase (hphase : phase runId nodes s = 0) : s.Undead runId := by
  unfold phase at hphase
  split_ifs at hphase with hready hall
  exact fun entry hmem => of_decide_eq_true (all_eq_true.mp hall entry hmem)

theorem phase_lt_two (hnone : findReadyNodes (s.listJobsForRun runId) nodes = []) :
    phase runId nodes s < 2 := by
  unfold phase
  rw [if_neg (not_not.mpr hnone)]
  split_ifs <;> omega

theorem resolved_of_finishRun (hget : (t.runs.get? runId).isSome) {status : RunStatus}
    (hterminal : status.Terminal) (error : Option String) :
    (t.finishRun runId status error).Resolved runId := by
  obtain ⟨run, hrun⟩ := Option.isSome_iff_exists.mp hget
  refine Or.inl ⟨status, ?_, hterminal⟩
  unfold Db.finishRun
  rw [runStatus?_updateRun, hrun, Option.map_some]

theorem rounds_suffice (hrounds : nodes.length < rounds) (s : Db) (existing : JobMap) :
    ((dagWaves host runId run s nodes).free (JobMap.frontier existing)).length < rounds :=
  Nat.lt_of_le_of_lt (length_filter_le _ _) hrounds

theorem phase_of_ready (hready : findReadyNodes (s.listJobsForRun runId) nodes ≠ []) :
    phase runId nodes s = 2 :=
  if_pos hready

theorem alone_reopen_of_ready (hget : s.runs.get? runId = some run) (hidle : s.Idle runId)
    (hnodes : nodesOf host workflow run.outDir = .ok nodes) (hrounds : nodes.length < rounds)
    (hready : findReadyNodes (s.listJobsForRun runId) nodes ≠ []) :
    ∃ result t, (reopen host rounds runId workflow run).alone s = some (result, t) ∧
      (∀ id row, s.jobs.get? id = some row → t.jobs.get? id = some row) ∧
      ∀ tag, result = .ok tag → t.Resolved runId ∨
        Stuck runId run.source t ∧ phase runId nodes t < phase runId nodes s := by
  have hrun : (s.runs.get? runId).isSome := by rw [hget]; rfl
  obtain ⟨result, u, halone, hgrown, -, hend⟩ := alone_processReady hrun hnodes (Grown.refl s)
    rounds 0 (rounds_suffice hrounds _ _)
  unfold reopen
  cases result with
  | error =>
    exact ⟨_, u, alone_bind_of_error halone, fun _ _ hrow => hgrown.get? hrow, by simp⟩
  | ok count =>
    obtain ⟨hnone, ⟨-, rfl⟩ | ⟨hcount, -⟩⟩ := hend count rfl
    · exact absurd hnone hready
    · rw [alone_bind_of_ok halone, if_pos hcount]
      refine ⟨_, _, rfl, fun _ _ hrow => hgrown.get? hrow, fun _ _ => ?_⟩
      refine (resolved_or_stuck hget hidle hgrown).imp_right fun ⟨hstuck, _⟩ => ⟨hstuck, ?_⟩
      rw [phase_of_ready hready]
      exact phase_lt_two hnone

theorem alone_reopen_of_none (hget : s.runs.get? runId = some run)
    (hnodes : nodesOf host workflow run.outDir = .ok nodes) (hrounds : nodes.length < rounds)
    (hready : findReadyNodes (s.listJobsForRun runId) nodes = []) :
    ∃ result t, (reopen host rounds runId workflow run).alone s = some (result, t) ∧
      KeepsSettled s t ∧ ∀ tag, result = .ok tag → t.Resolved runId ∨
        Stuck runId run.source t ∧ phase runId nodes t < phase runId nodes s := by
  obtain ⟨more, rfl⟩ := Nat.exists_eq_add_of_lt hrounds
  have hkeeps := keepsSettled_delete runId s
  have hundead := undead_delete runId s
  have hdropped : (deleteNonTerminalJobsForRun runId s).2 ≠ [] → phase runId nodes s = 1 := by
    intro hdropped
    have hphase : phase runId nodes s ≠ 0 := fun hzero =>
      hdropped (dropped_eq_nil (undead_of_phase hzero))
    have hlt := phase_lt_two hready
    omega
  have hrun : ((deleteNonTerminalJobsForRun runId s).1.runs.get? runId) = some run := hget
  unfold reopen
  rw [alone_bind_of_ok (alone_processReady_of_none hnodes hready _ 0),
    if_neg (Nat.lt_irrefl 0)]
  change ∃ result t, Prog.alone (if (deleteNonTerminalJobsForRun runId s).2 ≠ [] then _ else _)
    (deleteNonTerminalJobsForRun runId s).1 = _ ∧ _
  generalize (deleteNonTerminalJobsForRun runId s).1 = v at hkeeps hundead hrun ⊢
  by_cases hnothing : (deleteNonTerminalJobsForRun runId s).2 = []
  · rw [if_neg (not_not.mpr hnothing)]
    exact ⟨_, _, rfl, hkeeps, fun _ _ => Or.inl (resolved_of_finishRun (by rw [hrun]; rfl)
      (Or.inr (Or.inl rfl)) _)⟩
  · rw [if_pos hnothing]
    have hsome : (v.runs.get? runId).isSome := by rw [hrun]; rfl
    obtain ⟨result, u, halone, hgrown, -, hend⟩ := alone_processReady hsome hnodes (Grown.refl v)
      (nodes.length + more + 1) 0 (rounds_suffice hrounds _ _)
    have hkept : KeepsSettled s u := hkeeps.trans (KeepsSettled.of_grown hgrown)
    cases result with
    | error => exact ⟨_, u, alone_bind_of_error halone, hkept, by simp⟩
    | ok count =>
      rw [alone_bind_of_ok halone]
      obtain ⟨hnone, ⟨rfl, -⟩ | ⟨hcount, -⟩⟩ := hend count rfl
      · exact ⟨_, _, rfl, hkept, fun _ _ => Or.inl (resolved_of_finishRun
          (by rw [hgrown.runs]; exact hsome) (Or.inr (Or.inl rfl)) _)⟩
      · rw [if_pos hcount]
        refine ⟨_, _, rfl, hkept, fun _ _ => ?_⟩
        refine (resolved_or_stuck hrun hundead.idle hgrown).imp_right fun ⟨hstuck, hclean⟩ =>
          ⟨hstuck, ?_⟩
        rw [hdropped hnothing]
        exact Nat.lt_one_iff.mpr (phase_of_undead hnone (hclean hundead))

theorem reconcile_step (hstuck : Stuck runId source s)
    (hload : host.loadWorkflow source.1 = .ok workflow)
    (hnodes : nodesOf host workflow source.2 = .ok nodes) (hrounds : nodes.length < rounds) :
    ∃ result t, (reconcileRun host rounds runId).alone s = some (result, t) ∧ KeepsSettled s t ∧
      ∀ tag, result = .ok tag → t.Resolved runId ∨
        Stuck runId source t ∧ phase runId nodes t < phase runId nodes s := by
  obtain ⟨run, hget, rfl⟩ := hstuck.sourced.get?
  rw [alone_reconcileRun hget (hstuck.active run hget) hstuck.idle hload hnodes]
  by_cases hsettled : allSettled (s.listJobsForRun runId) nodes = true
  · rw [if_pos hsettled]
    exact ⟨_, _, rfl, fun _ _ hrow _ => hrow, fun _ _ =>
      Or.inl (resolved_of_finishRun (by rw [hget]; rfl) (Or.inl rfl) _)⟩
  · rw [if_neg hsettled]
    by_cases hready : findReadyNodes (s.listJobsForRun runId) nodes = []
    · exact alone_reopen_of_none hget hnodes hrounds hready
    · obtain ⟨result, t, halone, hrows, hend⟩ :=
        alone_reopen_of_ready hget hstuck.idle hnodes hrounds hready
      exact ⟨result, t, halone, fun id row hrow _ => hrows id row hrow, hend⟩

theorem reconcile_noop (hresolved : s.Resolved runId) :
    (reconcileRun host rounds runId).alone s = some (.ok .noop, s) := by
  unfold reconcileRun
  rw [getRun, alone_read_bind]
  cases hget : s.runs.get? runId with
  | none => rfl
  | some run =>
    dsimp only
    by_cases hterminal : run.status.Terminal
    · rw [if_pos hterminal]
      rfl
    · rw [if_neg hterminal, jobsByNodeId, alone_read_bind, if_pos]
      · rfl
      · rcases hresolved with ⟨status, hstatus, hended⟩ | ⟨entry, hmem, hqueued⟩
        · rw [Db.runStatus?, hget] at hstatus
          cases hstatus
          exact absurd hended hterminal
        · exact any_eq_true.mpr ⟨entry, hmem, decide_eq_true (Or.inl hqueued)⟩

end

/-! ### Calls in a row -/

def reconciled (host : Host) (rounds : ℕ) (runId : String) : ℕ → Db → Db
  | 0, db => db
  | calls + 1, db => reconciled host rounds runId calls ((reconcileRun host rounds runId).left db)

def Raises {α : Type} (prog : DbProg α) (db : Db) : Prop :=
  ∃ error after, prog.alone db = some (.error error, after)

theorem reconciled_resolves (hload : host.loadWorkflow source.1 = .ok workflow)
    (hnodes : nodesOf host workflow source.2 = .ok nodes) (hrounds : nodes.length < rounds)
    (calls : ℕ) {db : Db}
    (hdb : db.Resolved runId ∨ Stuck runId source db ∧ phase runId nodes db < calls)
    (hquiet : ∀ count < calls, ¬ Raises (reconcileRun host rounds runId)
      (reconciled host rounds runId count db)) :
    (∀ count < calls, ∃ tag, (reconcileRun host rounds runId).alone
        (reconciled host rounds runId count db) =
          some (.ok tag, reconciled host rounds runId (count + 1) db)) ∧
      (reconciled host rounds runId calls db).Resolved runId ∧
      ∀ count < calls, KeepsSettled (reconciled host rounds runId count db)
        (reconciled host rounds runId (count + 1) db) := by
  induction calls generalizing db with
  | zero =>
    exact ⟨by simp, hdb.resolve_right fun hstuck => Nat.not_lt_zero _ hstuck.2, by simp⟩
  | succ calls ih =>
    have hcall : ∃ tag t, (reconcileRun host rounds runId).alone db = some (.ok tag, t) ∧
        KeepsSettled db t ∧
        (t.Resolved runId ∨ Stuck runId source t ∧ phase runId nodes t < calls) := by
      rcases hdb with hresolved | ⟨hstuck, hphase⟩
      · exact ⟨_, db, reconcile_noop hresolved, fun _ _ hget _ => hget, Or.inl hresolved⟩
      · obtain ⟨result, t, halone, hkeeps, hend⟩ := reconcile_step hstuck hload hnodes hrounds
        cases result with
        | error raised => exact absurd ⟨raised, t, halone⟩ (hquiet 0 (Nat.zero_lt_succ calls))
        | ok tag =>
          refine ⟨tag, t, halone, hkeeps, (hend tag rfl).imp_right fun ⟨hagain, hless⟩ => ?_⟩
          exact ⟨hagain, by omega⟩
    obtain ⟨tag, t, halone, hkeeps, ht⟩ := hcall
    have hleft := left_of_alone halone
    have hnext (count : ℕ) : reconciled host rounds runId (count + 1) db =
        reconciled host rounds runId count t := by
      rw [← hleft]
      rfl
    obtain ⟨hreturns, hresolved, hkept⟩ := ih ht fun count hcount => by
      rw [← hnext]
      exact hquiet (count + 1) (Nat.succ_lt_succ hcount)
    refine ⟨?_, by rw [hnext]; exact hresolved, ?_⟩
    · intro count hcount
      cases count with
      | zero => exact ⟨tag, by rw [hnext]; exact halone⟩
      | succ count =>
        rw [hnext, hnext]
        exact hreturns count (Nat.lt_of_succ_lt_succ hcount)
    · intro count hcount
      cases count with
      | zero =>
        rw [hnext]
        exact hkeeps
      | succ count =>
        rw [hnext, hnext]
        exact hkept count (Nat.lt_of_succ_lt_succ hcount)

/-- **The reconciler converges.** On a run that is not finished and has no live row, three calls
leave it finished or with a queued row, if none raises. None of them touches a row that it finds
completed or skipped. -/
theorem reconcile_converges (host : Host) (rounds : ℕ) (runId : String) (run : Run)
    (workflow : Workflow) (nodes : List DagNode) (db : Db)
    (hget : db.runs.get? runId = some run) (hactive : ¬ run.status.Terminal)
    (hidle : ∀ id row, db.jobs.get? id = some row → row.runId = runId → ¬ row.status.Live)
    (hload : host.loadWorkflow run.workflowName = .ok workflow)
    (hnodes : nodesOf host workflow run.outDir = .ok nodes) (hrounds : nodes.length < rounds)
    (hquiet : ∀ count < 3, ¬ Raises (reconcileRun host rounds runId)
      (reconciled host rounds runId count db)) :
    (∀ count < 3, ∃ tag, (reconcileRun host rounds runId).alone
        (reconciled host rounds runId count db) =
          some (.ok tag, reconciled host rounds runId (count + 1) db)) ∧
      (reconciled host rounds runId 3 db).Resolved runId ∧
      ∀ count < 3, ∀ id row, (reconciled host rounds runId count db).jobs.get? id = some row →
        row.status.Settled →
          (reconciled host rounds runId (count + 1) db).jobs.get? id = some row := by
  have hstuck : Stuck runId run.source db := by
    refine ⟨by rw [Sourced, hget]; rfl, ?_, ?_⟩
    · intro found hfound
      obtain rfl := Option.mem_unique hget hfound
      exact hactive
    · intro entry hmem
      obtain ⟨hrow, hrun⟩ := mem_listJobsForRun.mp hmem
      exact hidle entry.1 entry.2 hrow hrun
  have hphase := phase_le runId nodes db
  exact reconciled_resolves hload hnodes hrounds 3 (Or.inr ⟨hstuck, by omega⟩) hquiet

def markerHost : Host where
  loadWorkflow := fun _ => .ok ⟨[
    { id := "done", kind := .input none none },
    { id := "free", kind := .input none none, skipIf := .bool true },
    { id := "dead", kind := .input none none, skipIf := .bool true }]⟩
  pipelineSchema := fun name => .error (.keyError name)
  resolveRef := fun value _ => .ok value

def markerDb : Db :=
  let row (node : String) (status : JobStatus) : NodeJob :=
    { runId := "r", nodeId := node, nodeModule := "m", queue := .cpu, project := "",
      status := status, createdAt := 0 }
  { jobs := Table.ofRows [row "done" .completed, row "dead" .cancelled]
    runs := OrdDict.empty.insert "r" { workflowName := "w", status := .running } }

/-- The completed row stays through all calls, and the marker that the first one inserts through the
others. -/
theorem reconcile_converges_markers :
    (reconciled markerHost 4 "r" 3 markerDb).Resolved "r" ∧
      (∃ row, markerDb.jobs.get? 0 = some row ∧
        (reconciled markerHost 4 "r" 3 markerDb).jobs.get? 0 = some row) ∧
      ∃ row, (reconciled markerHost 4 "r" 1 markerDb).jobs.get? 2 = some row ∧
        row.status = .skipped ∧
        (reconciled markerHost 4 "r" 3 markerDb).jobs.get? 2 = some row := by
  have hok : ∀ count < 3, ((reconcileRun markerHost 4 "r").alone
      (reconciled markerHost 4 "r" count markerDb)).all (fun outcome => outcome.1.isOk) = true := by
    decide +kernel
  have hidle : ∀ entry ∈ markerDb.jobs.entries, ¬ entry.2.status.Live := by decide +kernel
  obtain ⟨-, hresolved, hkept⟩ := reconcile_converges markerHost 4 "r" _ _ _ markerDb rfl
    (by decide) (fun id row hget _ => hidle (id, row) (Table.mem_entries.mpr hget)) rfl rfl
    (by decide) (by
      rintro count hcount ⟨error, after, halone⟩
      have hend := hok count hcount
      rw [halone] at hend
      exact absurd hend (by simp [Except.isOk, Except.toBool]))
  have hstays {id : JobId} {row : NodeJob} (hsettled : row.status.Settled)
      (hget : (reconciled markerHost 4 "r" 1 markerDb).jobs.get? id = some row) :
      (reconciled markerHost 4 "r" 3 markerDb).jobs.get? id = some row :=
    hkept 2 (by decide) id row (hkept 1 (by decide) id row hget hsettled) hsettled
  have hmarker : ((reconciled markerHost 4 "r" 1 markerDb).jobs.get? 2).map NodeJob.status =
      some .skipped := by decide +kernel
  obtain ⟨row, hget, hskipped⟩ := Option.map_eq_some_iff.mp hmarker
  refine ⟨hresolved, ⟨_, rfl, hstays (Or.inl rfl) ?_⟩, row, hget, hskipped,
    hstays (Or.inr hskipped) hget⟩
  exact hkept 0 (by decide) 0 _ rfl (Or.inl rfl)

/-- The first call only inserts a marker, and the second only replaces the dead row by another. -/
example : (List.range 4).map (fun count =>
    (reconciled markerHost 4 "r" count markerDb).runStatus? "r") =
      [some .running, some .running, some .running, some .completed] := by
  decide +kernel

end BrokerParrot
