import BrokerParrot.Proof.DagOrder

/-!
# No ready node is left behind

A handler of a completion sees only a snapshot, and several handlers run at once. Still nothing is
missed: a call returns only after a read that found no ready node, and from then on a node can only
become ready through another completion, which leaves an event of its own. So the handler of the
last event sees every node that is ever ready, and sees it when the whole run is done.
-/

namespace BrokerParrot

open Prog List Option

variable {d : Dialect} {runId node : String} {nodes : List DagNode} {s : Db} {op : QueueOp}
  {id : JobId} {source : String × Option String} {host : Host} {workflow : Workflow}
  {world : World} {history : List Action} {action : Action} {α : Type}

def DispatchEvent.Completes (runId : String) (event : DispatchEvent) : Prop :=
  event.runId = runId ∧ event.kind = .completed

instance (runId : String) (event : DispatchEvent) : Decidable (event.Completes runId) :=
  inferInstanceAs (Decidable (_ ∧ _))

namespace Db

def Alive (runId : String) (db : Db) : Prop :=
  db.runStatus? runId ≠ some .cancelled ∧ db.runStatus? runId ≠ some .failed

instance (runId : String) (db : Db) : Decidable (db.Alive runId) :=
  inferInstanceAs (Decidable (_ ∧ _))

def Quiet (runId : String) (since : ℕ) (db : Db) : Prop :=
  ∀ event ∈ db.events.drop since, ¬ event.Completes runId

def PlainRows (runId : String) (db : Db) : Prop :=
  ∀ id row, db.jobs.get? id = some row → row.runId = runId →
    patchMarker row.inputs = none

def Logged (runId : String) (db : Db) : Prop :=
  ∀ id row, db.jobs.get? id = some row → row.runId = runId → row.status = .completed →
    ∃ event ∈ db.events, event.Completes runId

def Closed (runId : String) (nodes : List DagNode) (db : Db) : Prop :=
  ∀ node ∈ nodes, DepsSettled runId db node → db.NodeTaken runId node.id

end Db

/-! ### Steps -/

structure FanStep (runId : String) (nodes : List DagNode) (s t : Db) : Prop where
  order : OrderMove runId nodes s t
  rows : ∀ node, s.NodeTaken runId node → t.NodeTaken runId node
  events : s.events <+: t.events
  settles : ∀ node, s.NodeTaken runId node → t.NodeSettled runId node →
    s.NodeSettled runId node ∨ ∃ event ∈ t.events.drop s.events.length, event.Completes runId
  plain : s.PlainRows runId → t.PlainRows runId
  logged : s.Logged runId → t.Logged runId
  completed : s.runStatus? runId = some .completed → t.runStatus? runId = some .completed
  issued : ∀ id target node, IssuedTo id target node s → IssuedTo id target node t

structure QueueOp.Fans (runId : String) (nodes : List DagNode) (db : Db) (op : QueueOp) : Prop where
  orderly : op.Orderly runId nodes db
  plain : ∀ now row, op.insertedRow now = some row → row.runId = runId →
    patchMarker row.inputs = none
  completes : ∀ id row, op.marks = some (id, .completed) → db.jobs.get? id = some row →
    row.runId = runId → ∃ job contextDelta seconds vmRssMbPeak,
      op = .finaliseCompleted job contextDelta seconds vmRssMbPeak ∧ job.row.runId = runId
  keeps : op ≠ .deleteNonTerminalForRun runId
  writes : ∀ run, op ≠ .writeRun runId run

section

variable {t : Db}

theorem FanStep.of_runs (hjobs : t.jobs = s.jobs) (hevents : t.events = s.events)
    (hsource : (t.runs.get? runId).map Run.source = (s.runs.get? runId).map Run.source)
    (hcompleted : s.runStatus? runId = some .completed → t.runStatus? runId = some .completed) :
    FanStep runId nodes s t := by
  refine ⟨⟨DagMove.of_sameJobs hjobs, hsource⟩, ?_, ?_, ?_, ?_, ?_, hcompleted, ?_⟩
  · intro node htaken
    unfold Db.NodeTaken at htaken ⊢
    rwa [hjobs]
  · rw [hevents]
  · rintro node - ⟨id, row, hget, hrow⟩
    exact Or.inl ⟨id, row, hjobs ▸ hget, hrow⟩
  · intro hplain id row hget
    exact hplain id row (hjobs ▸ hget)
  · intro hlogged id row hget
    rw [hevents]
    exact hlogged id row (hjobs ▸ hget)
  · rintro id target node ⟨hissued, hcell⟩
    exact ⟨hjobs ▸ hissued, fun row hget => hcell row (hjobs ▸ hget)⟩

theorem FanStep.refl (s : Db) : FanStep runId nodes s s := FanStep.of_runs rfl rfl rfl id

theorem fanStep_updateRun {set : Run → Run} (hsource : ∀ run, (set run).source = run.source)
    (hcompleted : ∀ run, run.status = .completed → (set run).status = .completed) :
    FanStep runId nodes s (s.updateRun runId set) := by
  have hmove : OrderMove runId nodes s (s.updateRun runId set) := orderMove_updateRun hsource
  refine FanStep.of_runs rfl rfl hmove.source ?_
  intro hstatus
  obtain ⟨run, hget, hrun⟩ := map_eq_some_iff.mp hstatus
  rw [runStatus?_updateRun, hget, map_some, hcompleted run hrun]

variable (hfans : op.Fans runId nodes s)

include hfans

theorem QueueOp.Fans.completed_event {row after : NodeJob} (hget : s.jobs.get? id = some row)
    (hafter : (op.step d s).jobs.get? id = some after) (hrun : row.runId = runId)
    (hbefore : row.status ≠ .completed) (hdone : after.status = .completed) :
    ∃ event ∈ (op.step d s).events.drop s.events.length, event.Completes runId := by
  have hmarks : op.marks = some (id, .completed) := by
    have hstep := step_row d s op id
    rw [hget, hafter] at hstep
    cases hstep with
    | same => exact absurd hdone hbefore
    | take => cases hdone
    | leave _ hstatus => rcases hstatus with hstatus | hstatus <;> simp [hstatus] at hdone
    | finish hmarks => rw [hmarks, hdone]
    | cancel _ hstatus => simp [hstatus] at hdone
    | edit hstatus => exact absurd (hstatus.symm.trans hdone) hbefore
  obtain ⟨job, contextDelta, seconds, vmRssMbPeak, rfl, hjob⟩ :=
    hfans.completes id row hmarks hget hrun
  change (BrokerParrot.finaliseCompleted job contextDelta seconds vmRssMbPeak s).1.jobs.get? id = _
    at hafter
  change ∃ event ∈ (BrokerParrot.finaliseCompleted job contextDelta seconds vmRssMbPeak
    s).1.events.drop s.events.length, _
  rcases finaliseCompleted_cases job contextDelta seconds vmRssMbPeak s with hmiss | ⟨_, -, -, hhit⟩
  · rw [hmiss, hget] at hafter
    cases hafter
    exact absurd hdone hbefore
  · rw [hhit, drop_left]
    exact ⟨_, mem_singleton_self _, hjob, rfl⟩

theorem QueueOp.Fans.rows (htaken : s.NodeTaken runId node) :
    (op.step d s).NodeTaken runId node := by
  obtain ⟨id, row, hget, hrun, hnode⟩ := Db.nodeTaken_iff.mp htaken
  have hstep := step_row d s op id
  cases hafter : (op.step d s).jobs.get? id with
  | none =>
    rw [hget, hafter] at hstep
    cases hstep with
    | delete hop => exact absurd (hrun ▸ hop) hfans.keeps
  | some after =>
    have hcell := step_sameCell hget hafter
    exact Db.nodeTaken_iff.mpr
      ⟨id, after, hafter, hcell.runId.trans hrun, hcell.nodeId.trans hnode⟩

theorem QueueOp.Fans.settles (htaken : s.NodeTaken runId node)
    (hsettled : (op.step d s).NodeSettled runId node) :
    s.NodeSettled runId node ∨
      ∃ event ∈ (op.step d s).events.drop s.events.length, event.Completes runId := by
  obtain ⟨id, after, hafter, hrun, hnode, hstatus⟩ := hsettled
  rcases row_after_step hafter with ⟨row, hget, hcell⟩ | ⟨hfree, -⟩
  · rw [hcell.runId] at hrun
    rw [hcell.nodeId] at hnode
    by_cases hold : row.status.Settled
    · exact Or.inl ⟨id, row, hget, hrun, hnode, hold⟩
    -- An old row cannot become skipped, so it became completed, and that left an event.
    · have hsolid : (op.step d s).Solid id :=
        solid_step (solid_of_get? hget fun hskipped => hold (Or.inr hskipped))
      have hdone := hstatus.resolve_right (hsolid.2 after hafter)
      exact Or.inr (hfans.completed_event hget hafter hrun (fun h => hold (Or.inl h)) hdone)
  · rw [hrun, hnode] at hfree
    exact absurd htaken hfree

theorem QueueOp.Fans.plainRows (hplain : s.PlainRows runId) : (op.step d s).PlainRows runId := by
  intro id after hafter hrun
  rcases row_after_step hafter with ⟨row, hget, hcell⟩ | ⟨-, now, hrow⟩
  · rw [hcell.inputs]
    exact hplain id row hget (hcell.runId ▸ hrun)
  · exact hfans.plain now after hrow hrun

theorem QueueOp.Fans.logged (hlogged : s.Logged runId) : (op.step d s).Logged runId := by
  intro id after hafter hrun hdone
  obtain ⟨tail, hevents⟩ := step_events d s op
  cases hget : s.jobs.get? id with
  | none =>
    have hstep := step_row d s op id
    rw [hget, hafter] at hstep
    cases hstep with
    | insert _ _ hstatus => rcases hstatus with hstatus | hstatus <;> simp [hstatus] at hdone
  | some row =>
    have hcell := step_sameCell hget hafter
    rw [hcell.runId] at hrun
    by_cases hbefore : row.status = .completed
    · obtain ⟨event, hmem, hevent⟩ := hlogged id row hget hrun hbefore
      exact ⟨event, hevents ▸ mem_append_left tail hmem, hevent⟩
    · obtain ⟨event, hmem, hevent⟩ := hfans.completed_event hget hafter hrun hbefore hdone
      exact ⟨event, mem_of_mem_drop hmem, hevent⟩

theorem QueueOp.Fans.fanStep : FanStep runId nodes s (op.step d s) := by
  have hruns := step_runs_of_other d s hfans.writes
  refine ⟨hfans.orderly.orderMove hruns, fun _ => hfans.rows, ?_, fun _ => hfans.settles,
    hfans.plainRows, hfans.logged, ?_, fun _ _ _ hissued => hissued.step op⟩
  · obtain ⟨tail, hevents⟩ := step_events d s op
    exact ⟨tail, hevents.symm⟩
  · intro hstatus
    unfold Db.runStatus? at hstatus ⊢
    rwa [hruns]

end

/-! ### What the calls rely on -/

def FanRely (runId : String) (nodes : List DagNode) (s t : Db) : Prop :=
  s.Alive runId ∧ t.Alive runId ∧ FanStep runId nodes s t

def FanGuarantee (runId : String) (nodes : List DagNode) (s t : Db) : Prop :=
  s.Alive runId → t.Alive runId → FanStep runId nodes s t

structure FanInv (runId : String) (source : String × Option String) (since : ℕ) (db : Db) :
    Prop where
  sourced : Sourced runId source db
  alive : db.Alive runId
  unique : db.CellsUnique
  plain : db.PlainRows runId
  seen : since ≤ db.events.length

section

variable {since : ℕ} {t u : Db}

theorem FanStep.fanInv (hstep : FanStep runId nodes s t) (halive : t.Alive runId)
    (hinv : FanInv runId source since s) : FanInv runId source since t where
  sourced := stable_sourced _ _ hstep.order hinv.sourced
  alive := halive
  unique := hstep.order.dag.unique hinv.unique
  plain := hstep.plain hinv.plain
  seen := Nat.le_trans hinv.seen hstep.events.length_le

theorem stable_fanInv : Stable (FanRely runId nodes) (FanInv runId source since) :=
  fun _ _ hrely hinv => hrely.2.2.fanInv hrely.2.1 hinv

theorem alive_of_steps (hsteps : Relation.ReflTransGen (FanRely runId nodes) s t)
    (halive : t.Alive runId) : s.Alive runId := by
  rcases hsteps.cases_head with rfl | ⟨_, hfirst, -⟩
  · exact halive
  · exact hfirst.1

theorem events_of_steps (hsteps : Relation.ReflTransGen (FanRely runId nodes) s t) :
    s.events <+: t.events := by
  induction hsteps with
  | refl => exact prefix_refl _
  | tail _ hlast ih => exact ih.trans hlast.2.2.events

theorem stable_completed :
    Stable (FanRely runId nodes) fun db => db.runStatus? runId = some .completed :=
  fun _ _ hrely => hrely.2.2.completed

theorem Db.Quiet.earlier (hquiet : t.Quiet runId since) (hevents : s.events <+: t.events) :
    s.Quiet runId since :=
  fun event hmem => hquiet event ((hevents.drop since).subset hmem)

theorem Db.Closed.settled_step (hclosed : s.Closed runId nodes) (hstep : FanStep runId nodes s t)
    (hquiet : t.Quiet runId s.events.length) (hsettled : t.NodeSettled runId node) :
    s.NodeSettled runId node := by
  -- A node that got its row in this step was ready before it, and in a closed state had one.
  have htaken : s.NodeTaken runId node := by
    rcases hstep.order.dag.born node hsettled.taken with hold | ⟨ready, hmem, rfl, hdeps⟩
    · exact hold
    · exact hclosed ready hmem hdeps
  rcases hstep.settles node htaken hsettled with hold | ⟨event, hmem, hevent⟩
  · exact hold
  · exact absurd hevent (hquiet event hmem)

theorem Db.Closed.steps (hclosed : s.Closed runId nodes)
    (hsteps : Relation.ReflTransGen (FanRely runId nodes) s u) (hquiet : u.Quiet runId since)
    (hseen : since ≤ s.events.length) :
    u.Closed runId nodes ∧ ∀ node, u.NodeSettled runId node → s.NodeSettled runId node := by
  induction hsteps with
  | refl => exact ⟨hclosed, fun _ hsettled => hsettled⟩
  | @tail t u hsteps hlast ih =>
    have hstep := hlast.2.2
    obtain ⟨hthere, hback⟩ := ih (hquiet.earlier hstep.events)
    have hlate : since ≤ t.events.length := Nat.le_trans hseen (events_of_steps hsteps).length_le
    have hstill : u.Quiet runId t.events.length := fun event hmem =>
      hquiet event ((drop_subset_drop_left u.events hlate) hmem)
    refine ⟨?_, fun node hsettled => hback node (hthere.settled_step hstep hstill hsettled)⟩
    intro node hmem hdeps
    refine hstep.rows node.id (hthere node hmem fun dep hdep => ?_)
    exact hthere.settled_step hstep hstill (hdeps dep hdep)

theorem closed_of_none_ready (hunique : t.CellsUnique)
    (hnone : findReadyNodes (t.listJobsForRun runId) nodes = []) : t.Closed runId nodes := by
  intro node hmem hdeps
  by_contra hfree
  have hready : node ∈ findReadyNodes (t.listJobsForRun runId) nodes := by
    refine mem_filter.mpr ⟨hmem, decide_eq_true ⟨?_, all_eq_true.mpr ?_⟩⟩
    · rw [JobMap.get?_eq_none.mpr hfree]
      rfl
    · exact fun dep hdep => settled_of_nodeSettled hunique (hdeps dep hdep)
  rw [hnone] at hready
  cases hready

theorem patchMeta_of_plainRows (hplain : t.PlainRows runId) (node : String) :
    patchMeta (JobMap.get? (t.listJobsForRun runId) node) = none := by
  cases hget : JobMap.get? (t.listJobsForRun runId) node with
  | none => rfl
  | some entry =>
    obtain ⟨hrow, hrun, -⟩ := JobMap.get?_eq_some hget
    exact hplain entry.1 entry.2 hrow hrun

theorem Db.Alive.unended {run : Run} (halive : s.Alive runId)
    (hget : s.runs.get? runId = some run) :
    ¬ (run.status = .cancelled ∨ run.status = .failed) := by
  unfold Db.Alive Db.runStatus? at halive
  rw [hget, map_some] at halive
  rintro (hcancelled | hfailed)
  · exact halive.1 (congrArg some hcancelled)
  · exact halive.2 (congrArg some hfailed)

theorem Db.Alive.of_runs (halive : s.Alive runId)
    (hruns : t.runs.get? runId = s.runs.get? runId) : t.Alive runId := by
  unfold Db.Alive Db.runStatus? at halive ⊢
  rwa [hruns]

end

/-! ### The calls that fan out -/

section

variable {rounds since : ℕ} {t u : Db}

theorem QueueOp.InsertsFor.fans {ready : DagNode} (hop : op.InsertsFor host runId ready)
    (hmem : ready ∈ nodes) (hdeps : DepsSettled runId s ready) (hplain : ready.Plain host) :
    op.Fans runId nodes s where
  orderly := hop.orderly hmem hdeps
  plain := by
    intro now row hrow _
    cases op with
    | insertSkipped =>
      cases hrow
      rfl
    | enqueue =>
      obtain ⟨_, _, rfl⟩ := QueueOp.insertedRow_enqueue hrow
      exact hop.2.2 hplain
    | _ => exact hop.elim
  completes := by
    intro id row hmarks
    cases op with
    | insertSkipped | enqueue => cases hmarks
    | _ => exact hop.elim
  keeps := by
    rintro rfl
    exact hop
  writes := by
    rintro run rfl
    exact hop

theorem not_alive_finishRun_failed (hsourced : Sourced runId source s) (error : Option String) :
    ¬ (s.finishRun runId .failed error).Alive runId := by
  obtain ⟨run, hget, -⟩ := hsourced.get?
  refine fun halive => halive.2 ?_
  unfold Db.finishRun
  rw [runStatus?_updateRun, hget, map_some]

theorem fanStep_markRunRunningIfExpanded (s : Db) :
    FanStep runId nodes s (s.markRunRunningIfExpanded runId) := by
  refine fanStep_updateRun (fun run => by split <;> rfl) ?_
  intro run hcompleted
  split
  · rename_i hqueued
    rw [hcompleted] at hqueued
    exact absurd hqueued.1 (by decide)
  · exact hcompleted

theorem allSettled_of_nodeSettled (hunique : t.CellsUnique) (hne : nodes ≠ [])
    (hsettled : ∀ node ∈ nodes, t.NodeSettled runId node.id) :
    allSettled (t.listJobsForRun runId) nodes = true :=
  decide_eq_true ⟨hne, all_eq_true.mpr fun node hmem =>
    settled_of_nodeSettled hunique (hsettled node hmem)⟩

variable (hplain : ∀ node ∈ nodes, node.Plain host)

include hplain

theorem expands_fanStep :
    Expands host d runId nodes (FanRely runId nodes) (FanGuarantee runId nodes)
      (FanInv runId source since) where
  rest := fun s _ _ => FanStep.refl s
  keeps := fun _ _ hrely => hrely.2.2.order.dag.keeps
  stable := stable_fanInv
  inserts := fun s op node hinv hnode hdeps hop => by
    have hfans := hop.fans hnode hdeps (hplain node hnode)
    have halive := hinv.alive.of_runs (step_runs_of_other d s hfans.writes)
    exact ⟨fun _ _ => hfans.fanStep, hfans.fanStep.fanInv halive hinv⟩

theorem processReady_closed (hnodes : nodesOf host workflow source.2 = .ok nodes) {run : Run}
    (hrun : run.source = source) (hinv : FanInv runId source since s) :
    (processReady host runId workflow run rounds 0).Safe (FanRely runId nodes)
      (FanGuarantee runId nodes) (onReturn fun _ u => ∃ t, FanInv runId source since t ∧
        Relation.ReflTransGen (FanRely runId nodes) t u ∧ t.Closed runId nodes) s := by
  subst hrun
  refine ((expands_fanStep (d := .pg) hplain).processReady_safe hnodes hinv rounds
    0).mono_return ?_
  rintro _ u ⟨t, ht, hsteps, hnone⟩
  exact ⟨t, ht, hsteps, closed_of_none_ready ht.unique hnone⟩

variable (hload : host.loadWorkflow source.1 = .ok workflow)
  (hnodes : nodesOf host workflow source.2 = .ok nodes) (hinv : FanInv runId source since s)

include hload hnodes hinv

theorem startRun_closes :
    (startRun host rounds runId).Safe (FanRely runId nodes) (FanGuarantee runId nodes)
      (onReturn fun _ u => u.Alive runId → u.Quiet runId since → u.Closed runId nodes) s := by
  refine Safe.read_bind fun t hsteps => ⟨fun _ _ => FanStep.refl t, ?_⟩
  have hread := stable_fanInv.steps hsteps hinv
  obtain ⟨run, hget, rfl⟩ := hread.sourced.get?
  rw [hget]
  refine Safe.ofExcept_bind fun loaded hloaded => ?_
  obtain rfl := Except.ok.inj (hload.symm.trans hloaded)
  split
  · -- The workflow is rejected: the run is failed, and stays so.
    refine Safe.write_bind fun v hwait => ?_
    have hfailed := not_alive_finishRun_failed (stable_fanInv.steps hwait hread).sourced
    exact ⟨fun _ halive => absurd halive (hfailed _),
      fun u hmore halive => absurd (alive_of_steps hmore halive) (hfailed _)⟩
  · exact Safe.raise _
  · refine (processReady_closed hplain hnodes rfl hread).andThen fun newRows u hu => ?_
    obtain ⟨t, ht, hsince, hclosed⟩ := hu
    refine Safe.write_bind fun v hwait => ⟨fun _ _ => fanStep_markRunRunningIfExpanded v, ?_⟩
    intro w hmore halive hquiet
    have hbefore := hsince.trans hwait
    have hown : FanRely runId nodes v (v.markRunRunningIfExpanded runId) :=
      ⟨(stable_fanInv.steps hbefore ht).alive, alive_of_steps hmore halive,
        fanStep_markRunRunningIfExpanded v⟩
    exact (hclosed.steps ((hbefore.tail hown).trans hmore) hquiet ht.seen).1

def Db.Finished (runId : String) (nodes : List DagNode) (db : Db) : Prop :=
  nodes ≠ [] → (∀ node ∈ nodes, db.NodeSettled runId node.id) →
    db.runStatus? runId = some .completed

theorem onNodeCompleted_closes :
    (onNodeCompleted host rounds runId node).Safe (FanRely runId nodes) (FanGuarantee runId nodes)
      (onReturn fun _ u => u.Alive runId → u.Quiet runId since →
        u.Closed runId nodes ∧ u.Finished runId nodes) s := by
  refine Safe.read_bind fun t hsteps => ⟨fun _ _ => FanStep.refl t, ?_⟩
  have hread := stable_fanInv.steps hsteps hinv
  obtain ⟨run, hget, rfl⟩ := hread.sourced.get?
  rw [hget]
  dsimp only
  rw [if_neg (hread.alive.unended hget)]
  refine Safe.read_bind fun u hmore => ⟨fun _ _ => FanStep.refl u, ?_⟩
  have hjobs := stable_fanInv.steps hmore hread
  split
  · rename_i hpatch
    rw [patchMeta_of_plainRows hjobs.plain] at hpatch
    cases hpatch
  refine Safe.ofExcept_bind fun loaded hloaded => ?_
  obtain rfl := Except.ok.inj (hload.symm.trans hloaded)
  refine (processReady_closed hplain hnodes rfl hjobs).andThen fun newRows v hv => ?_
  obtain ⟨w, hw, hsince, hclosed⟩ := hv
  refine Safe.read_bind fun x hlast => ⟨fun _ _ => FanStep.refl x, ?_⟩
  refine Safe.ofExcept_bind fun found hfound => ?_
  obtain rfl := Except.ok.inj (hnodes.symm.trans hfound)
  have hreached := hsince.trans hlast
  split
  -- The own write completes the run; the others keep it completed.
  · refine Safe.write_bind fun y hwait => ?_
    have hstep : FanStep runId nodes y (y.finishRun runId .completed none) :=
      fanStep_updateRun (fun _ => rfl) fun _ _ => rfl
    refine ⟨fun _ _ => hstep, ?_⟩
    intro z hrest halive hquiet
    have hbefore := hreached.trans hwait
    have hy := stable_fanInv.steps hbefore hw
    have hown : FanRely runId nodes y (y.finishRun runId .completed none) :=
      ⟨hy.alive, alive_of_steps hrest halive, hstep⟩
    refine ⟨(hclosed.steps ((hbefore.tail hown).trans hrest) hquiet hw.seen).1, fun _ _ => ?_⟩
    refine stable_completed.steps hrest ?_
    obtain ⟨run, hrun, -⟩ := hy.sourced.get?
    unfold Db.finishRun
    rw [runStatus?_updateRun, hrun, map_some]
  · rename_i hopen
    intro z hrest _ hquiet
    obtain ⟨hz, hback⟩ := hclosed.steps (hreached.trans hrest) hquiet hw.seen
    refine ⟨hz, fun hne hall => absurd ?_ hopen⟩
    -- All that is settled now was settled at the closing read, so the check has seen it.
    have hkept : ∀ id, w.NodeSettled runId id → x.NodeSettled runId id := fun id =>
      Stable.steps (fun _ _ hrely => hrely.2.2.order.dag.keeps id) hreached
    exact allSettled_of_nodeSettled (stable_fanInv.steps hreached hw).unique hne
      fun node hmem => hkept node.id (hback node.id (hall node hmem))

end

/-! ### Histories -/

def Call.Handles (runId node : String) : Call → Prop
  | .onNodeCompleted target other => target = runId ∧ other = node
  | _ => False

def Call.Starts (runId : String) : Call → Prop
  | .startRun target => target = runId
  | _ => False

/-- An action of `start_run`, the handlers of completions, the workers and the sweeps. A row is
completed only by the worker that held it, together with its event, and no row of the run is
deleted. -/
def Action.FansOut (runId : String) (held : HeldJob → Prop) : Action → Prop
  | .call made _ => made.Starts runId ∨ ∃ node, made.Handles runId node
  | .advance _ => True
  | .queue op => (Action.queue op).Ordinary runId held ∧ op ≠ .deleteNonTerminalForRun runId ∧
      ∀ id, op.marks = some (id, .completed) → ∃ job contextDelta seconds vmRssMbPeak,
        op = .finaliseCompleted job contextDelta seconds vmRssMbPeak ∧ held job
  | .setRunStatus target _ => target ≠ runId

/-- Every completion of the run has been handled: a call for its node began after the event was
written, and has returned. -/
def World.Handled (runId : String) (world : World) : Prop :=
  ∀ entry ∈ world.shared.events.zipIdx, entry.1.Completes runId →
    ∃ thread ∈ world.threads, thread.label.call.Handles runId entry.1.nodeId ∧
      entry.2 < thread.label.since ∧ thread.prog.returned = true

def World.Started (runId : String) (world : World) : Prop :=
  ∃ thread ∈ world.threads, thread.label.call.Starts runId ∧ thread.prog.returned = true

instance (runId node : String) (call : Call) : Decidable (call.Handles runId node) :=
  match call with
  | .onNodeCompleted _ _ => inferInstanceAs (Decidable (_ ∧ _))
  | .startRun _ | .onNodeFailed _ _ | .reconcileRun _ | .resumeAfterInput _ _ _ =>
    inferInstanceAs (Decidable False)

instance (runId : String) (call : Call) : Decidable (call.Starts runId) :=
  match call with
  | .startRun _ => inferInstanceAs (Decidable (_ = _))
  | .onNodeCompleted _ _ | .onNodeFailed _ _ | .reconcileRun _ | .resumeAfterInput _ _ _ =>
    inferInstanceAs (Decidable False)

instance (runId : String) (world : World) : Decidable (world.Handled runId) :=
  inferInstanceAs (Decidable (∀ entry ∈ world.shared.events.zipIdx, _))

instance (runId : String) (world : World) : Decidable (world.Started runId) :=
  inferInstanceAs (Decidable (∃ thread ∈ world.threads, _))

def fanPost (runId : String) (nodes : List DagNode) (label : CallLabel) :
    Except PyError CallResult → Db → Prop :=
  Prog.onReturn fun _ db => db.Alive runId → db.Quiet runId label.since →
    db.Closed runId nodes ∧ ((∃ node, label.call.Handles runId node) → db.Finished runId nodes)

structure Fanned (runId : String) (nodes : List DagNode) (source : String × Option String)
    (world : World) : Prop where
  safe : world.Safe (FanRely runId nodes) (FanGuarantee runId nodes) (fanPost runId nodes)
  sourced : Sourced runId source world.shared
  unique : world.shared.CellsUnique
  plain : world.shared.PlainRows runId
  logged : world.shared.Logged runId

def Db.Knows (db : Db) (job : HeldJob) : Prop :=
  db.Solid job.id ∧ IssuedTo job.id job.row.runId job.row.nodeId db

section

theorem Fanned.of_step {after : World} (hfanned : Fanned runId nodes source world)
    (hsafe : after.Safe (FanRely runId nodes) (FanGuarantee runId nodes) (fanPost runId nodes))
    (hstep : FanStep runId nodes world.shared after.shared) : Fanned runId nodes source after where
  safe := hsafe
  sourced := stable_sourced _ _ hstep.order hfanned.sourced
  unique := hstep.order.dag.unique hfanned.unique
  plain := hstep.plain hfanned.plain
  logged := hstep.logged hfanned.logged

theorem Action.FansOut.fans {db : Db} (hfans : (Action.queue op).FansOut runId db.Knows) :
    op.Fans runId nodes db := by
  obtain ⟨⟨hinserts, hmarks, hwrites⟩, hkeeps, hcompletes⟩ := hfans
  refine ⟨?_, fun now row hrow hrun => absurd hrun (hinserts now row hrow), ?_, hkeeps, hwrites⟩
  · refine QueueOp.Orderly.of_solid hinserts fun id status hsome => ?_
    obtain ⟨job, hknown, rfl⟩ := hmarks id status hsome
    exact hknown.1
  · intro id row hsome hget hrun
    obtain ⟨job, contextDelta, seconds, vmRssMbPeak, rfl, hknown⟩ := hcompletes id hsome
    obtain rfl : job.id = id := (Prod.mk.inj (Option.some.inj hsome)).1
    exact ⟨job, contextDelta, seconds, vmRssMbPeak, rfl, (hknown.2.cell row hget).1 ▸ hrun⟩

theorem Action.FansOut.mono {held known : HeldJob → Prop} (hfans : action.FansOut runId held)
    (hle : ∀ job, held job → known job) : action.FansOut runId known := by
  cases action with
  | queue =>
    obtain ⟨hordinary, hkeeps, hcompletes⟩ := hfans
    refine ⟨hordinary.mono hle, hkeeps, fun id hsome => ?_⟩
    obtain ⟨job, contextDelta, seconds, vmRssMbPeak, hop, hheld⟩ := hcompletes id hsome
    exact ⟨job, contextDelta, seconds, vmRssMbPeak, hop, hle job hheld⟩
  | _ => exact hfans

theorem knows_of_get? {db : Db} {job : HeldJob} (hget : db.jobs.get? job.id = some job.row)
    (hrunning : job.row.status = .running) : db.Knows job :=
  ⟨solid_of_get? hget (by rw [hrunning]; decide), IssuedTo.of_get? hget⟩

theorem exists_last {p : α → Prop} {items : List α} (hexists : ∃ item ∈ items, p item) :
    ∃ before item after, items = before ++ item :: after ∧ p item ∧ ∀ later ∈ after, ¬ p later := by
  induction items with
  | nil => exact absurd hexists (by simp)
  | cons first rest ih =>
    by_cases hrest : ∃ item ∈ rest, p item
    · obtain ⟨before, item, after, rfl, hitem, hafter⟩ := ih hrest
      exact ⟨first :: before, item, after, rfl, hitem, hafter⟩
    · refine ⟨[], first, rest, rfl, ?_, fun later hmem hp => hrest ⟨later, hmem, hp⟩⟩
      obtain ⟨item, hmem, hp⟩ := hexists
      rcases mem_cons.mp hmem with rfl | hmem
      · exact hp
      · exact absurd ⟨item, hmem, hp⟩ hrest

theorem Fanned.of_event (hfanned : Fanned runId nodes source world)
    (halive : world.shared.Alive runId) (hhandled : world.Handled runId)
    (hevent : ∃ event ∈ world.shared.events, event.Completes runId) :
    world.shared.Closed runId nodes ∧ world.shared.Finished runId nodes := by
  obtain ⟨before, event, after, hsplit, hcompletes, hlast⟩ := exists_last hevent
  have hentry : (event, before.length) ∈ world.shared.events.zipIdx := by
    rw [mem_zipIdx_iff_getElem?, hsplit]
    simp
  obtain ⟨thread, hmem, hhandles, hsince, hreturned⟩ := hhandled _ hentry hcompletes
  obtain ⟨value, hpost⟩ := hfanned.safe.returned hmem hreturned
  have hquiet : world.shared.Quiet runId thread.label.since := by
    intro later hlater
    have hrest : world.shared.events.drop (before.length + 1) = after := by
      rw [hsplit]
      simp
    exact hlast later (hrest ▸ drop_subset_drop_left world.shared.events hsince hlater)
  obtain ⟨hclosed, hfinished⟩ := hpost halive hquiet
  exact ⟨hclosed, hfinished ⟨event.nodeId, hhandles⟩⟩

theorem Fanned.of_start (hfanned : Fanned runId nodes source world)
    (halive : world.shared.Alive runId) (hstarted : world.Started runId)
    (hnone : ∀ event ∈ world.shared.events, ¬ event.Completes runId) :
    world.shared.Closed runId nodes := by
  obtain ⟨thread, hmem, -, hreturned⟩ := hstarted
  obtain ⟨value, hpost⟩ := hfanned.safe.returned hmem hreturned
  exact (hpost halive fun event hevent => hnone event (mem_of_mem_drop hevent)).1

variable (hplain : ∀ node ∈ nodes, node.Plain host)
  (hload : host.loadWorkflow source.1 = .ok workflow)
  (hnodes : nodesOf host workflow source.2 = .ok nodes)

include hplain hload hnodes

theorem call_closes {label : CallLabel}
    (hcall : label.call.Starts runId ∨ ∃ node, label.call.Handles runId node) {rounds : ℕ}
    (hinv : FanInv runId source label.since s) :
    (label.call.prog host rounds).Safe (FanRely runId nodes) (FanGuarantee runId nodes)
      (fanPost runId nodes label) s := by
  obtain ⟨call, since⟩ := label
  cases call with
  | startRun target =>
    obtain rfl : target = runId := hcall.resolve_right fun ⟨_, hhandles⟩ => hhandles
    refine (startRun_closes hplain hload hnodes hinv).map fun value t hpost halive hquiet => ?_
    exact ⟨hpost halive hquiet, fun ⟨_, hhandles⟩ => hhandles.elim⟩
  | onNodeCompleted =>
    obtain ⟨_, rfl, -⟩ := hcall.resolve_left id
    refine (onNodeCompleted_closes hplain hload hnodes hinv).map
      fun value t hpost halive hquiet => ?_
    exact ⟨(hpost halive hquiet).1, fun _ => (hpost halive hquiet).2⟩
  | onNodeFailed | reconcileRun => exact hcall.elim False.elim fun ⟨_, hhandles⟩ => hhandles.elim
  | resumeAfterInput => exact hcall.elim False.elim fun ⟨_, hhandles⟩ => hhandles.elim

theorem Fanned.act (hfanned : Fanned runId nodes source world)
    (hfans : action.FansOut runId world.shared.Knows) (halive : world.shared.Alive runId)
    (hafter : (world.act host d action).shared.Alive runId) :
    FanStep runId nodes world.shared (world.act host d action).shared ∧
      (world.act host d action).Safe (FanRely runId nodes) (FanGuarantee runId nodes)
        (fanPost runId nodes) := by
  cases action with
  | call =>
    refine ⟨FanStep.refl _, hfanned.safe.spawn ?_⟩
    refine call_closes hplain hload hnodes ?_
      ⟨hfanned.sourced, halive, hfanned.unique, hfanned.plain, Nat.le_refl _⟩
    exact hfans
  | advance index =>
    refine ⟨?_, hfanned.safe.advance index fun hmove => ⟨halive, hafter, hmove halive hafter⟩⟩
    rcases hfanned.safe.advance_shared index with hmove | hsame
    · exact hmove halive hafter
    · change FanStep runId nodes _ (world.step (.advance index)).shared
      rw [hsame]
      exact FanStep.refl _
  | queue op =>
    have hstep : FanStep runId nodes world.shared (op.step d world.shared) := hfans.fans.fanStep
    exact ⟨hstep, hfanned.safe.outside ⟨halive, hafter, hstep⟩⟩
  | setRunStatus target status =>
    have hruns :
        (world.shared.updateRun target fun run => { run with status := status }).runs.get? runId =
          world.shared.runs.get? runId := OrdDict.get?_modify_of_ne _ _ (Ne.symm hfans)
    have hstep : FanStep runId nodes world.shared
        (world.shared.updateRun target fun run => { run with status := status }) := by
      refine FanStep.of_runs rfl rfl (congrArg _ hruns) fun hstatus => ?_
      unfold Db.runStatus? at hstatus ⊢
      rwa [hruns]
    exact ⟨hstep, hfanned.safe.outside ⟨halive, hafter, hstep⟩⟩

theorem Fanned.run (hstart : Fanned runId nodes source world)
    (hfans : ∀ before action, before ++ [action] <+: history →
      action.FansOut runId (world.Held host d before))
    (halive : ∀ before, before <+: history → (world.run host d before).shared.Alive runId) :
    Fanned runId nodes source (world.run host d history) ∧
      ∀ job, world.Held host d history job → (world.run host d history).shared.Knows job := by
  induction history using List.reverseRecOn with
  | nil =>
    refine ⟨hstart, ?_⟩
    rintro job ⟨earlier, hearlier, hget, hrunning⟩
    obtain rfl := prefix_nil.mp hearlier
    exact knows_of_get? hget hrunning
  | append_singleton rest action ih =>
    have hrest : rest <+: rest ++ [action] := prefix_append rest [action]
    obtain ⟨hfanned, hheld⟩ := ih
      (fun before other hinit => hfans before other (hinit.trans hrest))
      fun before hinit => halive before (hinit.trans hrest)
    have hthis := (hfans rest action (prefix_refl _)).mono hheld
    have hnext : world.run host d (rest ++ [action]) =
        (world.run host d rest).act host d action := World.run_append host d world rest [action]
    obtain ⟨hstep, hsafe⟩ := hfanned.act (d := d) hplain hload hnodes hthis (halive rest hrest)
      (hnext ▸ halive (rest ++ [action]) (prefix_refl _))
    rw [hnext]
    refine ⟨hfanned.of_step hsafe hstep, World.Held.concat ?_ ?_⟩
    · intro job hjob
      obtain ⟨hsolid, hissued⟩ := hheld job hjob
      exact ⟨hstep.order.dag.solid job.id hsolid, hstep.issued _ _ _ hissued⟩
    · exact fun job hrunning hget => knows_of_get? (hnext ▸ hget) hrunning

end

theorem Fanned.of_fresh {db : Db} {run : Run} (hrun : db.runs.get? runId = some run)
    (hfresh : ∀ id, ¬ db.NodeTaken runId id) (hunique : db.CellsUnique) :
    Fanned runId nodes run.source ⟨db, []⟩ := by
  have hnoRow : ∀ {id : JobId} {row : NodeJob}, db.jobs.get? id = some row → row.runId ≠ runId :=
    fun {id} {row} hget heq => hfresh row.nodeId (Db.nodeTaken_iff.mpr ⟨id, row, hget, heq, rfl⟩)
  refine ⟨fun thread hmem => absurd hmem (by simp), ?_, hunique, ?_, ?_⟩
  · change (db.runs.get? runId).map Run.source = some run.source
    rw [hrun, map_some]
  · exact fun id row hget heq => absurd heq (hnoRow hget)
  · exact fun id row hget heq => absurd heq (hnoRow hget)

/-- **The fan-out is complete.** Once every completion has been handled by a call that returned,
every node whose dependencies are settled has a row, and a run whose nodes are all settled is
completed, if it was never cancelled or failed. -/
theorem fan_out_complete (host : Host) (d : Dialect) (runId : String) (db : Db) (run : Run)
    (workflow : Workflow) (nodes : List DagNode) (history : List Action)
    (hrun : db.runs.get? runId = some run)
    (hload : host.loadWorkflow run.workflowName = .ok workflow)
    (hnodes : nodesOf host workflow run.outDir = .ok nodes)
    (hplain : ∀ node ∈ nodes, node.Plain host) (hfresh : ∀ id, ¬ db.NodeTaken runId id)
    (hunique : db.CellsUnique)
    (hfans : ∀ before action, before ++ [action] <+: history →
      action.FansOut runId (World.Held host d ⟨db, []⟩ before))
    (halive : ∀ before, before <+: history →
      (World.run host d ⟨db, []⟩ before).shared.Alive runId)
    (hhandled : (World.run host d ⟨db, []⟩ history).Handled runId) :
    let after := World.run host d ⟨db, []⟩ history
    ((∃ event ∈ after.shared.events, event.Completes runId) ∨ after.Started runId →
      ∀ node ∈ nodes, DepsSettled runId after.shared node → after.shared.NodeTaken runId node.id) ∧
    ((∀ node ∈ nodes, after.shared.NodeSettled runId node.id) →
      (∃ node ∈ nodes, ∃ id row, after.shared.jobs.get? id = some row ∧ row.runId = runId ∧
        row.nodeId = node.id ∧ row.status = .completed) →
      after.status? runId = some .completed) := by
  intro after
  have hfanned := ((Fanned.of_fresh hrun hfresh hunique).run (d := d) hplain hload hnodes hfans
    halive).1
  have hafter : after.shared.Alive runId := halive history (prefix_refl _)
  constructor
  · intro hbegun
    by_cases hevent : ∃ event ∈ after.shared.events, event.Completes runId
    · exact (hfanned.of_event hafter hhandled hevent).1
    · refine hfanned.of_start hafter (hbegun.resolve_left hevent) ?_
      exact fun event hmem hcompletes => hevent ⟨event, hmem, hcompletes⟩
  · rintro hall ⟨node, hmem, id, row, hget, hrow, -, hdone⟩
    have hevent := hfanned.logged id row hget hrow hdone
    exact (hfanned.of_event hafter hhandled hevent).2 (ne_nil_of_mem hmem) hall

def pairHost (input : String) : Host where
  loadWorkflow := fun _ => .ok
    ⟨[{ id := "S", kind := .pipeline "p" [("x", .dict [("key", .null)])] }]⟩
  pipelineSchema := fun _ => .ok
    ⟨[{ id := "a", inputs := [⟨input, "pipeline.x"⟩] }, { id := "b", dependsOn := ["a"] }]⟩
  resolveRef := fun value _ => .ok value

def pairClaimed : List Action :=
  startAlone 2 6 ++ [.queue (.claimCpu { host := some "box" } {})]

def Db.heldJob (db : Db) (id : JobId) : HeldJob where
  id := id
  row := (db.jobs.get? id).getD (skippedRow "" "" "" 0)

def pairJob (input : String) : HeldJob :=
  (World.run (pairHost input) .pg ⟨freshDb, []⟩ pairClaimed).shared.heldJob 0

def pairHistory (input : String) (statements : ℕ) : List Action :=
  pairClaimed ++ .queue (.finaliseCompleted (pairJob input) [] 1 none) ::
    .call (.onNodeCompleted "run" "S/a") 2 :: List.replicate statements (.advance 1)

theorem snoc_prefix_cases {before first rest : List α} {action mark : α}
    (hinit : before ++ [action] <+: first ++ mark :: rest) :
    action ∈ first ∨ (before = first ∧ action = mark) ∨ action ∈ rest := by
  obtain ⟨tail, htail⟩ := hinit
  rw [append_assoc, singleton_append] at htail
  rcases append_eq_append_iff.mp htail with ⟨middle, rfl, hrest⟩ | ⟨middle, rfl, hrest⟩
  · cases middle with
    | nil => exact Or.inr (Or.inl ⟨(append_nil _).symm, (List.cons.inj hrest).1⟩)
    | cons => exact Or.inl (by simp [(List.cons.inj hrest).1])
  · cases middle with
    | nil => exact Or.inr (Or.inl ⟨append_nil _, (List.cons.inj hrest).1.symm⟩)
    | cons => exact Or.inr (Or.inr (by simp [(List.cons.inj hrest).2]))

theorem held_of_running
    (hrunning : ((world.run host d history).shared.jobs.get? id).map NodeJob.status =
      some .running) :
    world.Held host d history ((world.run host d history).shared.heldJob id) := by
  obtain ⟨row, hget, hstatus⟩ := map_eq_some_iff.mp hrunning
  have hrow : ((world.run host d history).shared.heldJob id).row = row := by
    unfold Db.heldJob
    rw [hget, getD_some]
  exact ⟨history, prefix_refl _, hget.trans (congrArg some hrow.symm), hrow ▸ hstatus⟩

theorem pair_fansOut {input : String} {statements : ℕ} {before : List Action}
    (hheld : World.Held (pairHost input) .pg ⟨freshDb, []⟩ pairClaimed (pairJob input))
    (hinit : before ++ [action] <+: pairHistory input statements) :
    action.FansOut "run" (World.Held (pairHost input) .pg ⟨freshDb, []⟩ before) := by
  rcases snoc_prefix_cases hinit with hfirst | ⟨rfl, rfl⟩ | hrest
  · rcases mem_append.mp hfirst with hstart | hclaim
    · rcases mem_cons.mp hstart with rfl | hadvance
      · exact Or.inl rfl
      · rw [eq_of_mem_replicate hadvance]
        trivial
    · obtain rfl := mem_singleton.mp hclaim
      simp [Action.FansOut, Action.Ordinary, QueueOp.insertedRow, QueueOp.marks]
  · refine ⟨⟨by simp [QueueOp.insertedRow], ?_, by simp⟩, by simp, ?_⟩
    · intro id status hmarks
      cases hmarks
      exact ⟨pairJob input, hheld, rfl⟩
    · exact fun id _ => ⟨pairJob input, [], 1, none, rfl, hheld⟩
  · rcases mem_cons.mp hrest with rfl | hadvance
    · exact Or.inr ⟨"S/a", rfl, rfl⟩
    · rw [eq_of_mem_replicate hadvance]
      trivial

theorem pair_held : World.Held (pairHost "in") .pg ⟨freshDb, []⟩ pairClaimed (pairJob "in") :=
  held_of_running (by decide +kernel)

theorem pair_alive {before : List Action} (hinit : before <+: pairHistory "in" 7) :
    (World.run (pairHost "in") .pg ⟨freshDb, []⟩ before).shared.Alive "run" := by
  have halive : ∀ before ∈ (pairHistory "in" 7).inits,
      (World.run (pairHost "in") .pg ⟨freshDb, []⟩ before).shared.Alive "run" := by decide +kernel
  exact halive before ((mem_inits _ _).mpr hinit)

theorem pair_nodes : ∃ nodes,
    nodesOf (pairHost "in")
      ⟨[{ id := "S", kind := .pipeline "p" [("x", .dict [("key", .null)])] }]⟩ none = .ok nodes ∧
    nodes.map (fun node => (node.id, node.dependsOn)) = [("S/a", []), ("S/b", ["S/a"])] ∧
    ∀ node ∈ nodes, node.Plain (pairHost "in") := by
  refine ⟨_, rfl, rfl, fun node hmem => DagNode.plain_of_inputNames ?_⟩
  revert node
  decide +kernel

/-- The handler of the first node's completion gives the second its row. -/
theorem fan_out_complete_pair :
    let after := World.run (pairHost "in") .pg ⟨freshDb, []⟩ (pairHistory "in" 7)
    after.shared.NodeSettled "run" "S/a" ∧ after.shared.NodeTaken "run" "S/b" := by
  intro after
  have hsettled : after.shared.NodeSettled "run" "S/a" := by decide +kernel
  obtain ⟨nodes, hnodes, hedges, hplain⟩ := pair_nodes
  have hsecond : ("S/b", ["S/a"]) ∈ nodes.map fun node => (node.id, node.dependsOn) := by
    rw [hedges]
    simp
  obtain ⟨node, hmem, hnode⟩ := mem_map.mp hsecond
  obtain ⟨hid, hdeps⟩ := Prod.mk.inj hnode
  refine ⟨hsettled, hid ▸ (fan_out_complete (pairHost "in") .pg "run" freshDb _ _ nodes
    (pairHistory "in" 7) rfl rfl hnodes hplain freshDb_untaken cellsUnique_freshDb
    (fun _ _ => pair_fansOut pair_held) (fun _ => pair_alive) (by decide +kernel)).1
    (Or.inr (by decide +kernel)) node hmem fun dep hdep => ?_⟩
  rw [hdeps, mem_singleton] at hdep
  exact hdep ▸ hsettled

/-- A node that declares the patch marker is handled as a patch job, and its dependent gets no row.
And before `start_run` no node has one. -/
theorem patch_input_stops_fan_out :
    let start : World := ⟨freshDb, []⟩
    let history := pairHistory "__patch__" 4
    let after := start.run (pairHost "__patch__") .pg history
    (nodesOf (pairHost "__patch__")
        ⟨[{ id := "S", kind := .pipeline "p" [("x", .dict [("key", .null)])] }]⟩ none).map
          (List.map fun node => (node.id, node.dependsOn)) =
        .ok [("S/a", []), ("S/b", ["S/a"])] ∧
      (∀ before ∈ history.inits, (start.run (pairHost "__patch__") .pg before).shared.Alive "run") ∧
      after.Started "run" ∧ after.Handled "run" ∧ after.shared.NodeSettled "run" "S/a" ∧
      ¬ after.shared.NodeTaken "run" "S/b" ∧
      start.Handled "run" ∧ ¬ start.shared.NodeTaken "run" "S/a" :=
  ⟨rfl, by decide +kernel, by decide +kernel, by decide +kernel, by decide +kernel,
    by decide +kernel, by decide +kernel, by decide +kernel⟩

end BrokerParrot
