import BrokerParrot.NodePool
import BrokerParrot.Proof.RunStatus

/-!
# What the drain does to the run of a patch job

Both callbacks have a branch for a patch job which writes to the parked spec and nowhere else, also
when an exception ends them early. The drain has no such branch: it counts the errors of a patch
event as those of any other, and the tenth one fails the run.
-/

namespace BrokerParrot

/-! ### Drains whose callbacks can be struck by an exception -/

/-- One drain, with the callbacks that an exception strikes: after how many of their statements, by
the place of the event. -/
structure Drain where
  env : PoolEnv
  rounds : ℕ
  faults : ℕ → Option (ℕ × PyError) := fun _ => none

variable {drain : Drain} {runId : String} {event : DispatchEvent}

namespace Drain

def handler (drain : Drain) (delivery : Delivery) : DbProg Unit :=
  match drain.faults delivery.index with
  | none => callback drain.env drain.rounds delivery.event
  | some (count, error) =>
    (callback drain.env drain.rounds delivery.event).interrupted error count

def runHandlers (drain : Drain) :
    List Delivery → PoolProg (List (Delivery × Except PyError Unit))
  | [] => return []
  | delivery :: rest => do
    let result ← ((drain.handler delivery).zoom PoolDb.engine).tried
    let others ← drain.runHandlers rest
    return (delivery, result) :: others

def prog (drain : Drain) : PoolProg Unit := do
  let batch ← Prog.exec (lockBatch drain.env.project)
  let ends ← drain.runHandlers batch
  Prog.write (commitBatch drain.env ends)

theorem runHandlers_of_faultless (hnone : ∀ index, drain.faults index = none)
    (deliveries : List Delivery) :
    drain.runHandlers deliveries = runCallbacks drain.env drain.rounds deliveries := by
  induction deliveries with
  | nil => rfl
  | cons delivery rest ih =>
    unfold runHandlers runCallbacks handler
    rw [hnone, ih]

theorem prog_of_faultless (hnone : ∀ index, drain.faults index = none) :
    drain.prog = drainDispatchEvents drain.env drain.rounds := by
  unfold prog drainDispatchEvents
  rw [funext (runHandlers_of_faultless hnone)]

end Drain

def drained (history : List Drain) (state : PoolDb) : PoolDb :=
  history.foldl (fun state drain => drain.prog.left state) state

/-! ### Patch events -/

def Unended (runId : String) (db : Db) : Prop :=
  ∃ status, db.runStatus? runId = some status ∧ ¬ status.Terminal

def Parked (runId : String) (db : Db) : Prop :=
  Unended runId db ∧
    ∃ id row, db.jobs.get? id = some row ∧ row.runId = runId ∧ row.status = .awaitingInput

def markerOf (db : Db) (event : DispatchEvent) : Option Value :=
  (JobMap.get? (db.listJobsForRun event.runId) event.nodeId).bind fun entry =>
    OrdDict.lookupIn entry.2.inputs patchInputKey

def PatchEvent (runId : String) (db : Db) (event : DispatchEvent) : Prop :=
  event.runId = runId ∧ (event.kind = .completed ∨ event.kind = .failed) ∧
    ∃ marker, markerOf db event = some (.dict marker)

def PoolDb.Open (state : PoolDb) (index : ℕ) (event : DispatchEvent) : Prop :=
  state.db.events[index]? = some event ∧ (state.marks index).processed = false

/-- The files that the patch job of a completed event has to copy. -/
def patchFiles (host : Host) (db : Db) (event : DispatchEvent) : List (String × String) :=
  let jobs := db.listJobsForRun event.runId
  let job := JobMap.get? jobs event.nodeId
  let source := JobMap.get? jobs (metaText host ((patchMeta job).getD []) "source_node")
  patchCopies host (((db.runs.get? event.runId).bind Run.outDir).getD "")
    ((job.map fun entry => entry.2.contextDelta).getD [])
    ((source.map fun entry => entry.2.contextDelta).getD [])

/-- The callback of a patch event raises: an exception strikes it, or its files are not copied. -/
def Drain.Raises (drain : Drain) (db : Db) (delivery : Delivery) : Prop :=
  (drain.faults delivery.index).isSome ∨ delivery.event.kind = .completed ∧
    ∃ raised, drain.env.host.copyFiles (patchFiles drain.env.host db delivery.event) = .error raised

/-- No event of the batch has its tenth error in this drain. -/
def Drain.Spares (drain : Drain) (state : PoolDb) : Prop :=
  ∀ delivery ∈ (lockBatch drain.env.project state).2, drain.Raises state.db delivery →
    delivery.mark.attempts + 1 < dispatchMaxAttempts

def Untouched (runId : String) (s t : Db) : Prop :=
  t.runStatus? runId = s.runStatus? runId ∧
    ∀ id, (t.jobs.get? id).map NodeJob.status = (s.jobs.get? id).map NodeJob.status

section

variable {s t : Db}

abbrev SpecEdits (s t : Db) : Prop := Relation.ReflTransGen EditsSpec s t

theorem untouched_of_editsSpec (hedit : EditsSpec s t) : Untouched runId s t := by
  rcases hedit with rfl | ⟨target, node, spec, rfl⟩
  · exact ⟨rfl, fun _ => rfl⟩
  · refine ⟨rfl, fun id => ?_⟩
    rw [get?_setInputSpec, Option.map_map]
    congr 1
    funext row
    exact (editSpec_fields target node spec row).2.2.1

theorem Untouched.trans {u : Db} (hfirst : Untouched runId s t) (hthen : Untouched runId t u) :
    Untouched runId s u :=
  ⟨hthen.1.trans hfirst.1, fun id => (hthen.2 id).trans (hfirst.2 id)⟩

theorem Untouched.symm (huntouched : Untouched runId s t) : Untouched runId t s :=
  ⟨huntouched.1.symm, fun id => (huntouched.2 id).symm⟩

theorem untouched_of_specEdits (hedits : SpecEdits s t) : Untouched runId s t := by
  induction hedits with
  | refl => exact ⟨rfl, fun _ => rfl⟩
  | tail _ hlast ih => exact ih.trans (untouched_of_editsSpec hlast)

theorem exists_edit_of_specEdits (hedits : SpecEdits s t) (runId : String) :
    ∃ edit : NodeJob → NodeJob,
      (∀ row, (edit row).inputs = row.inputs ∧ (edit row).contextDelta = row.contextDelta) ∧
      ∀ node, JobMap.get? (t.listJobsForRun runId) node =
        (JobMap.get? (s.listJobsForRun runId) node).map fun entry => (entry.1, edit entry.2) := by
  induction hedits with
  | refl => exact ⟨id, fun _ => ⟨rfl, rfl⟩, fun _ => Option.map_id'.symm⟩
  | tail _ hlast ih =>
    obtain ⟨edit, hkeeps, hget⟩ := ih
    rcases hlast with rfl | ⟨target, node, spec, rfl⟩
    · exact ⟨edit, hkeeps, hget⟩
    · refine ⟨editSpec target node spec ∘ edit, fun row => ?_, fun other => ?_⟩
      · obtain ⟨-, -, -, hinputs, -, hdelta⟩ := editSpec_fields target node spec (edit row)
        exact ⟨hinputs.trans (hkeeps row).1, hdelta.trans (hkeeps row).2⟩
      · rw [jobMap_setInputSpec, hget, Option.map_map]
        rfl

theorem markerOf_of_specEdits (hedits : SpecEdits s t) (event : DispatchEvent) :
    markerOf t event = markerOf s event := by
  obtain ⟨edit, hkeeps, hget⟩ := exists_edit_of_specEdits hedits event.runId
  unfold markerOf
  rw [hget, Option.bind_map]
  congr 1
  funext entry
  exact congrArg (OrdDict.lookupIn · patchInputKey) (hkeeps entry.2).1

theorem runs_of_specEdits (hedits : SpecEdits s t) : t.runs = s.runs := by
  induction hedits with
  | refl => rfl
  | tail _ hlast ih =>
    rw [← ih]
    rcases hlast with rfl | ⟨target, node, spec, rfl⟩ <;> rfl

theorem patchFiles_of_specEdits (hedits : SpecEdits s t) (host : Host) (event : DispatchEvent) :
    patchFiles host t event = patchFiles host s event := by
  obtain ⟨edit, hkeeps, hget⟩ := exists_edit_of_specEdits hedits event.runId
  have hmeta (job : Option (JobId × NodeJob)) :
      patchMeta (job.map fun entry => (entry.1, edit entry.2)) = patchMeta job := by
    cases job with
    | none => rfl
    | some entry => exact congrArg patchMarker (hkeeps entry.2).1
  have hdelta (job : Option (JobId × NodeJob)) :
      (job.map fun entry => (entry.1, edit entry.2)).map (fun entry => entry.2.contextDelta) =
        job.map fun entry => entry.2.contextDelta := by
    cases job with
    | none => rfl
    | some entry => exact congrArg some (hkeeps entry.2).2
  unfold patchFiles
  simp only [hget, hmeta, hdelta, runs_of_specEdits hedits]

theorem events_of_specEdits (hedits : SpecEdits s t) : t.events = s.events := by
  induction hedits with
  | refl => rfl
  | tail _ hlast ih =>
    rw [← ih]
    rcases hlast with rfl | ⟨target, node, spec, rfl⟩ <;> rfl

theorem exists_patchMeta {first : String × Value} {rest : Context}
    (hmarker : markerOf s event = some (.dict (first :: rest))) :
    ∃ job, JobMap.get? (s.listJobsForRun event.runId) event.nodeId = some job ∧
      patchMeta (some job) = some (first :: rest) := by
  obtain ⟨job, hjob, hinputs⟩ := Option.bind_eq_some_iff.mp hmarker
  refine ⟨job, hjob, ?_⟩
  change patchMarker job.2.inputs = _
  unfold patchMarker
  rw [hinputs]

end

/-! ### The callbacks of patch events -/

/-- The program ends, its statements only edit parked specs, and it raises exactly in the given
case. -/
structure EndsPatch {α : Type} (prog : DbProg α) (raises : Prop) (s : Db) : Prop where
  safe : prog.Safe Prog.Nobody EditsSpec (fun _ _ => True) s
  ends : prog.Runs (fun result _ => (∃ raised, result = .error raised) ↔ raises) s

namespace EndsPatch

variable {host : Host} {α β : Type} {raises : Prop} {s : Db} {job : JobId × NodeJob}
  {patch : Context} {run : Run}

theorem ret (value : α) : EndsPatch (pure value : DbProg α) False s :=
  ⟨fun _ _ => trivial, _, _, rfl, by simp⟩

theorem read_bind {view : Db → β} {next : β → DbProg α}
    (hnext : EndsPatch (next (view s)) raises s) :
    EndsPatch (Prog.read view >>= next) raises s := by
  refine ⟨Prog.Safe.read_bind ?_, hnext.ends⟩
  intro t hsteps
  obtain rfl := Prog.eq_of_nobody hsteps
  exact ⟨EditsSpec.refl t, hnext.safe⟩

theorem bind_pure {prog : DbProg α} (hprog : EndsPatch prog raises s) (value : β) :
    EndsPatch (prog >>= fun _ => (pure value : DbProg β)) raises s := by
  refine ⟨hprog.safe.bind (fun _ _ _ _ _ => trivial) fun _ _ _ => trivial, ?_⟩
  refine hprog.ends.bind (fun _ _ hok => Prog.Runs.ret ?_) fun _ _ herror => ?_
  · simpa using hok
  · simpa using herror

theorem bumpInputSpec (target : String) (fields : List (String × Option Value)) :
    EndsPatch (bumpInputSpec runId target fields) False s := by
  unfold BrokerParrot.bumpInputSpec
  split
  · exact ret ()
  · refine read_bind ?_
    split
    · exact ⟨fun t _ => ⟨Or.inr ⟨_, _, _, rfl⟩, fun _ _ => trivial⟩, _, _, rfl, by simp⟩
    · exact ret ()

theorem finishPatchJob (hrun : s.runs.get? event.runId = some run)
    (hjob : JobMap.get? (s.listJobsForRun event.runId) event.nodeId = some job)
    (hpatch : patchMeta (some job) = some patch) :
    EndsPatch (finishPatchJob host event.runId run job.2 patch)
      (∃ raised, host.copyFiles (patchFiles host s event) = .error raised) s := by
  have hfiles : patchFiles host s event = patchCopies host (run.outDir.getD "") job.2.contextDelta
      (((JobMap.get? (s.listJobsForRun event.runId) (metaText host patch "source_node")).map
        fun entry => entry.2.contextDelta).getD []) := by
    unfold patchFiles
    dsimp only
    rw [hrun, hjob, hpatch]
    rfl
  refine read_bind ?_
  rw [hfiles]
  dsimp only
  cases host.copyFiles _ with
  | error => exact ⟨fun _ _ => trivial, _, _, rfl, by simp⟩
  | ok =>
    simp only [reduceCtorEq, exists_false]
    exact read_bind (bumpInputSpec _ _)

theorem callback (env : PoolEnv) (rounds : ℕ) (hopen : Unended runId s)
    (hevent : PatchEvent runId s event) (hmarker : markerOf s event ≠ some (.dict [])) :
    EndsPatch (callback env rounds event) (event.kind = .completed ∧
      ∃ raised, env.host.copyFiles (patchFiles env.host s event) = .error raised) s := by
  obtain ⟨rfl, hkind, marker, hdict⟩ := hevent
  obtain ⟨status, hstatus, hlive⟩ := hopen
  obtain ⟨run, hrun, rfl⟩ := Option.map_eq_some_iff.mp hstatus
  have hunended : ¬ (run.status = .cancelled ∨ run.status = .failed) := by
    rintro (hended | hended) <;> exact hlive (by rw [hended]; decide)
  cases marker with
  | nil => exact absurd hdict hmarker
  | cons =>
    obtain ⟨job, hjob, hpatch⟩ := exists_patchMeta hdict
    unfold BrokerParrot.callback
    rcases hkind with hkind | hkind
    · rw [hkind, and_iff_right rfl]
      refine bind_pure (read_bind ?_) ()
      rw [hrun]
      dsimp only
      rw [if_neg hunended]
      refine read_bind ?_
      rw [hjob, hpatch]
      exact (finishPatchJob hrun hjob hpatch).bind_pure 0
    · rw [hkind]
      simp only [reduceCtorEq, false_and]
      refine read_bind ?_
      rw [hrun, Option.any_some, if_neg (by simpa using hunended)]
      refine read_bind ?_
      rw [hjob, hpatch]
      exact bumpInputSpec _ _

end EndsPatch

/-! ### A batch -/

def Delivery.Of (state : PoolDb) (delivery : Delivery) : Prop :=
  state.Open delivery.index delivery.event ∧ delivery.mark = state.marks delivery.index

def PatchOutbox (runId : String) (state : PoolDb) : Prop :=
  ∀ index event, state.Open index event → PatchEvent runId state.db event

def Marked (state : PoolDb) : Prop :=
  ∀ index event, state.Open index event → markerOf state.db event ≠ some (.dict [])

def Drain.Ended (drain : Drain) (db : Db) (handled : Delivery × Except PyError Unit) : Prop :=
  (∃ raised, handled.2 = .error raised) ↔ drain.Raises db handled.1

section

variable {s t : PoolDb} {delivery : Delivery} {ends : List (Delivery × Except PyError Unit)}

theorem delivery_of_lockBatch {project : String} (hmem : delivery ∈ (lockBatch project s).2) :
    delivery.Of s := by
  have hopen : delivery ∈ openEvents project s := List.mem_of_mem_take hmem
  obtain ⟨entry, hentry, hdelivery⟩ := List.mem_filterMap.mp hopen
  obtain ⟨⟨hprocessed, -, -⟩, hsome⟩ := Option.ite_none_right_eq_some.mp hdelivery
  cases hsome
  exact ⟨⟨List.mk_mem_zipIdx_iff_getElem?.mp hentry, hprocessed⟩, rfl⟩

theorem Unended.of_specEdits {db after : Db} (hopen : Unended runId db)
    (hedits : SpecEdits db after) : Unended runId after := by
  obtain ⟨status, hstatus, hlive⟩ := hopen
  exact ⟨status, (untouched_of_specEdits hedits).1.trans hstatus, hlive⟩

theorem raises_of_specEdits {db after : Db} (hedits : SpecEdits db after) :
    drain.Raises after delivery ↔ drain.Raises db delivery := by
  unfold Drain.Raises
  rw [patchFiles_of_specEdits hedits]

theorem alone_handler {db : Db} (hopen : Unended runId db)
    (hevent : PatchEvent runId db delivery.event)
    (hmarker : markerOf db delivery.event ≠ some (.dict [])) :
    ∃ result after, (drain.handler delivery).alone db = some (result, after) ∧
      SpecEdits db after ∧ drain.Ended db (delivery, result) := by
  have hpatch := EndsPatch.callback drain.env drain.rounds hopen hevent hmarker
  unfold Drain.handler Drain.Ended Drain.Raises
  cases hfault : drain.faults delivery.index with
  | none =>
    obtain ⟨result, after, halone, hraises⟩ := hpatch.ends
    refine ⟨result, after, halone, ?_, by simpa [hfault] using hraises⟩
    rw [← Prog.left_of_alone halone]
    exact hpatch.safe.left
  | some fault =>
    -- A callback that is struck has carried out some of its statements, all of them edits.
    obtain ⟨raised, halone⟩ := Prog.alone_interrupted fault.2 fault.1
      (callback drain.env drain.rounds delivery.event) db
    exact ⟨.error raised, _, halone, hpatch.safe.killed fault.1, by simp [hfault]⟩

theorem alone_runHandlers (drain : Drain) (deliveries : List Delivery) (s : PoolDb)
    (hopen : Unended runId s.db)
    (hevents : ∀ delivery ∈ deliveries, PatchEvent runId s.db delivery.event ∧
      markerOf s.db delivery.event ≠ some (.dict [])) :
    ∃ ends after, (drain.runHandlers deliveries).alone s = some (.ok ends, { s with db := after }) ∧
      SpecEdits s.db after ∧ ends.map Prod.fst = deliveries ∧
      ∀ handled ∈ ends, drain.Ended s.db handled := by
  induction deliveries generalizing s with
  | nil => exact ⟨[], s.db, rfl, .refl, rfl, by simp⟩
  | cons delivery rest ih =>
    obtain ⟨hevent, hmarker⟩ := hevents delivery (List.mem_cons_self ..)
    obtain ⟨result, mid, halone, hfirst, hended⟩ := alone_handler hopen hevent hmarker
    have hrest : ∀ other ∈ rest, PatchEvent runId mid other.event ∧
        markerOf mid other.event ≠ some (.dict []) := by
      intro other hmem
      obtain ⟨⟨hrun, hkind, hdict⟩, hnamed⟩ := hevents other (List.mem_cons_of_mem _ hmem)
      rw [← markerOf_of_specEdits hfirst] at hdict hnamed
      exact ⟨⟨hrun, hkind, hdict⟩, hnamed⟩
    obtain ⟨ends, after, hthen, hedits, hends, hall⟩ :=
      ih { s with db := mid } (hopen.of_specEdits hfirst) hrest
    refine ⟨(delivery, result) :: ends, after, ?_, hfirst.trans hedits, by simp [hends], ?_⟩
    · have htried := Prog.alone_tried (δ := PyError) (Prog.alone_zoom PoolDb.engine halone)
      exact (Prog.alone_bind_of_ok htried).trans (Prog.alone_bind_of_ok hthen)
    · intro handled hmem
      rcases List.mem_cons.mp hmem with rfl | hmem
      · exact hended
      · exact (hall handled hmem).trans (raises_of_specEdits hfirst)

theorem left_prog (drain : Drain) (hopen : Unended runId s.db) (houtbox : PatchOutbox runId s)
    (hmarked : Marked s) :
    ∃ ends after, drain.prog.left s = commitBatch drain.env ends
        { (lockBatch drain.env.project s).1 with db := after } ∧
      SpecEdits s.db after ∧ ends.map Prod.fst = (lockBatch drain.env.project s).2 ∧
      ∀ handled ∈ ends, handled.1.Of s ∧ drain.Ended s.db handled := by
  have hevents : ∀ delivery ∈ (lockBatch drain.env.project s).2,
      PatchEvent runId s.db delivery.event ∧ markerOf s.db delivery.event ≠ some (.dict []) := by
    intro delivery hmem
    obtain ⟨hopen, -⟩ := delivery_of_lockBatch hmem
    exact ⟨houtbox _ _ hopen, hmarked _ _ hopen⟩
  obtain ⟨ends, after, halone, hedits, hends, hall⟩ :=
    alone_runHandlers drain (lockBatch drain.env.project s).2
      (lockBatch drain.env.project s).1 hopen hevents
  refine ⟨ends, after, ?_, hedits, hends, fun handled hmem => ⟨?_, hall handled hmem⟩⟩
  · exact Prog.left_bind_of_ok halone
  · have hbatch : handled.1 ∈ (lockBatch drain.env.project s).2 := by
      rw [← hends]
      exact List.mem_map_of_mem hmem
    exact delivery_of_lockBatch hbatch

/-! ### The commit of a batch -/

def LastError (handled : Delivery × Except PyError Unit) : Prop :=
  (∃ raised, handled.2 = .error raised) ∧ dispatchMaxAttempts ≤ handled.1.mark.attempts + 1

theorem settled_db (env : PoolEnv) (hearly : ∀ handled ∈ ends, ¬ LastError handled) (s : PoolDb) :
    (ends.foldl (fun state handled => settleEvent env handled.1 handled.2 state) s).db = s.db := by
  induction ends generalizing s with
  | nil => rfl
  | cons handled rest ih =>
    obtain ⟨hfirst, hrest⟩ := List.forall_mem_cons.mp hearly
    rw [List.foldl_cons, ih hrest]
    obtain ⟨delivery, result⟩ := handled
    cases result with
    | ok => rfl
    | error raised =>
      have hprocessed : (delivery.mark.retried (env.exceptionText raised)).processed = false :=
        decide_eq_false fun hlast => hfirst ⟨⟨raised, rfl⟩, hlast⟩
      simp only [settleEvent, hprocessed, Bool.false_eq_true, if_false]

/-- An event that is open after a batch was open before. -/
def MarksAfter (before after : ℕ → EventMark) : Prop :=
  ∀ index, (after index).processed = false → (before index).processed = false

theorem settled_marks (env : PoolEnv) {base : PoolDb} (hends : ∀ handled ∈ ends, handled.1.Of base)
    (hbefore : MarksAfter base.marks s.marks) :
    MarksAfter base.marks
      (ends.foldl (fun state handled => settleEvent env handled.1 handled.2 state) s).marks := by
  induction ends generalizing s with
  | nil => exact hbefore
  | cons handled rest ih =>
    obtain ⟨⟨⟨-, hopen⟩, -⟩, hrest⟩ := List.forall_mem_cons.mp hends
    refine ih hrest fun index hindex => ?_
    by_cases heq : index = handled.1.index
    · rwa [heq]
    · have hsame : (settleEvent env handled.1 handled.2 s).marks index = s.marks index := by
        unfold settleEvent
        split <;> exact Function.update_of_ne heq ..
      exact hbefore index (hsame ▸ hindex)

def Failing (runId : String) (db : Db) : Prop :=
  ∃ status, db.runStatus? runId = some status ∧ (¬ status.Terminal ∨ status = .failed)

theorem runStatus?_poisoned {db : Db} (env : PoolEnv) (text : String)
    (hrun : delivery.event.runId = runId) (hfailing : Failing runId db) :
    (poisoned env delivery text db).runStatus? runId = some .failed := by
  obtain ⟨status, hstatus, hopen⟩ := hfailing
  obtain ⟨run, hget, rfl⟩ := Option.map_eq_some_iff.mp hstatus
  unfold poisoned
  rw [hrun, runStatus?_updateRun, hget, Option.map_some]
  split_ifs with hterminal
  · exact congrArg some (hopen.resolve_left (not_not_intro hterminal))
  · rfl

theorem settleEvent_failing (env : PoolEnv) (result : Except PyError Unit)
    (hrun : delivery.event.runId = runId) (hfailing : Failing runId s.db) :
    (settleEvent env delivery result s).db = s.db ∧ ¬ LastError (delivery, result) ∨
      (settleEvent env delivery result s).db.runStatus? runId = some .failed := by
  cases result with
  | ok => exact Or.inl ⟨rfl, by rintro ⟨⟨raised, ⟨⟩⟩, -⟩⟩
  | error =>
    by_cases hlast : dispatchMaxAttempts ≤ delivery.mark.attempts + 1
    · refine Or.inr ?_
      simp only [settleEvent, EventMark.retried, hlast, decide_true, if_true]
      exact runStatus?_poisoned env _ hrun hfailing
    · refine Or.inl ⟨?_, fun hlasts => hlast hlasts.2⟩
      simp [settleEvent, EventMark.retried, hlast]

theorem settled_failed (env : PoolEnv) (hruns : ∀ handled ∈ ends, handled.1.event.runId = runId)
    (hfailing : Failing runId s.db)
    (hlast : s.db.runStatus? runId = some .failed ∨ ∃ handled ∈ ends, LastError handled) :
    (ends.foldl (fun state handled => settleEvent env handled.1 handled.2 state) s).db.runStatus?
      runId = some .failed := by
  induction ends generalizing s with
  | nil => simpa using hlast
  | cons handled rest ih =>
    obtain ⟨hrun, hrest⟩ := List.forall_mem_cons.mp hruns
    refine ih hrest ?_ ?_
    · rcases settleEvent_failing env handled.2 hrun hfailing with ⟨hsame, -⟩ | hfailed
      · rwa [hsame]
      · exact ⟨.failed, hfailed, Or.inr rfl⟩
    · rcases settleEvent_failing env handled.2 hrun hfailing with ⟨hsame, hearly⟩ | hfailed
      · rw [hsame]
        refine hlast.imp id fun ⟨other, hmem, herror⟩ => ⟨other, ?_, herror⟩
        exact (List.mem_cons.mp hmem).resolve_left fun hhead => hearly (hhead ▸ herror)
      · exact Or.inl hfailed

/-! ### Drains -/

theorem PatchOutbox.after (houtbox : PatchOutbox runId s) (hedits : SpecEdits s.db t.db)
    (hmarks : MarksAfter s.marks t.marks) : PatchOutbox runId t := by
  rintro index event ⟨hevent, hopen⟩
  rw [events_of_specEdits hedits] at hevent
  obtain ⟨hrun, hkind, hdict⟩ := houtbox index event ⟨hevent, hmarks index hopen⟩
  rw [← markerOf_of_specEdits hedits] at hdict
  exact ⟨hrun, hkind, hdict⟩

theorem Marked.after (hmarked : Marked s) (hedits : SpecEdits s.db t.db)
    (hmarks : MarksAfter s.marks t.marks) : Marked t := by
  rintro index event ⟨hevent, hopen⟩
  rw [events_of_specEdits hedits] at hevent
  rw [markerOf_of_specEdits hedits]
  exact hmarked index event ⟨hevent, hmarks index hopen⟩

section

variable (hopen : Unended runId s.db) (houtbox : PatchOutbox runId s) (hmarked : Marked s)

include hopen houtbox hmarked

theorem drain_spares (hspares : drain.Spares s) :
    SpecEdits s.db (drain.prog.left s).db ∧ MarksAfter s.marks (drain.prog.left s).marks := by
  obtain ⟨ends, after, hleft, hedits, hbatch, hends⟩ := left_prog drain hopen houtbox hmarked
  have hnone : ∀ handled ∈ ends, ¬ LastError handled := by
    rintro handled hmem ⟨hraised, hlast⟩
    have hdelivered : handled.1 ∈ (lockBatch drain.env.project s).2 :=
      hbatch ▸ List.mem_map_of_mem hmem
    exact absurd hlast (not_le.mpr (hspares _ hdelivered ((hends handled hmem).2.mp hraised)))
  rw [hleft]
  constructor
  · have hdb := settled_db drain.env hnone { (lockBatch drain.env.project s).1 with db := after }
    exact hdb.symm ▸ hedits
  · exact settled_marks drain.env (fun handled hmem => (hends handled hmem).1) fun _ => id

theorem drain_fails (hlast : ¬ drain.Spares s) :
    (drain.prog.left s).db.runStatus? runId = some .failed := by
  obtain ⟨ends, after, hleft, hedits, hends, hall⟩ := left_prog drain hopen houtbox hmarked
  obtain ⟨delivery, hmem, hraises, hattempts⟩ :
      ∃ delivery ∈ (lockBatch drain.env.project s).2, drain.Raises s.db delivery ∧
        dispatchMaxAttempts ≤ delivery.mark.attempts + 1 := by
    simpa [Drain.Spares] using hlast
  rw [hleft]
  -- The handlers left the run open, and the commit of the batch fails it.
  obtain ⟨status, hstatus, hlive⟩ := hopen.of_specEdits hedits
  refine settled_failed drain.env (fun handled hhandled => ?_) ⟨status, hstatus, Or.inl hlive⟩
    (Or.inr ?_)
  · exact (houtbox _ _ (hall handled hhandled).1.1).1
  · rw [← hends] at hmem
    obtain ⟨handled, hhandled, rfl⟩ := List.mem_map.mp hmem
    exact ⟨handled, hhandled, (hall handled hhandled).2.mpr hraises, hattempts⟩

end

end

/-- **Patch events.** The run and every row keep their status all along a history of drains exactly
if no callback in it raises when its event has nine errors. -/
theorem patch_events_spare_run {runId : String} {state : PoolDb} (hparked : Parked runId state.db)
    (houtbox : PatchOutbox runId state) (hmarked : Marked state) (history : List Drain) :
    (∀ before, before <+: history → Untouched runId state.db (drained before state).db) ↔
      ∀ before drain, before ++ [drain] <+: history → drain.Spares (drained before state) := by
  replace hparked := hparked.1
  induction history generalizing state with
  | nil =>
    refine iff_of_true (fun before hbefore => ?_) (fun before drain hbefore => ?_)
    · rw [List.prefix_nil.mp hbefore]
      exact ⟨rfl, fun _ => rfl⟩
    · simp at hbefore
  | cons drain rest ih =>
    by_cases hspares : drain.Spares state
    · obtain ⟨hedits, hmarks⟩ := drain_spares hparked houtbox hmarked hspares
      have hstep : Untouched runId state.db (drain.prog.left state).db :=
        untouched_of_specEdits hedits
      have hrest := ih (houtbox.after hedits hmarks) (hmarked.after hedits hmarks)
        (hparked.of_specEdits hedits)
      constructor
      · intro hkept before next hbefore
        cases before with
        | nil =>
          obtain ⟨rfl, -⟩ := List.cons_prefix_cons.mp hbefore
          exact hspares
        | cons head before =>
          obtain ⟨rfl, hlater⟩ := List.cons_prefix_cons.mp hbefore
          refine hrest.mp (fun other hother => ?_) before next hlater
          exact hstep.symm.trans (hkept (head :: other) (List.cons_prefix_cons.mpr ⟨rfl, hother⟩))
      · intro hall before hbefore
        rcases List.prefix_cons_iff.mp hbefore with rfl | ⟨other, rfl, hother⟩
        · exact ⟨rfl, fun _ => rfl⟩
        · refine hstep.trans (hrest.mpr (fun earlier next hearlier => ?_) other hother)
          exact hall (drain :: earlier) next (List.cons_prefix_cons.mpr ⟨rfl, hearlier⟩)
    · refine iff_of_false (fun hkept => ?_) fun hall => ?_
      · obtain ⟨hstatus, -⟩ := hkept [drain] (List.cons_prefix_cons.mpr ⟨rfl, List.nil_prefix⟩)
        obtain ⟨status, hbefore, hlive⟩ := hparked
        have hfailed : (drained [drain] state).db.runStatus? runId = some .failed :=
          drain_fails ⟨status, hbefore, hlive⟩ houtbox hmarked hspares
        rw [hfailed, hbefore] at hstatus
        exact hlive (Option.some.inj hstatus ▸ by decide)
      · exact hspares (hall [] drain (List.cons_prefix_cons.mpr ⟨rfl, List.nil_prefix⟩))

def patchedRun : PoolDb :=
  let row (node : String) (status : JobStatus) : NodeJob :=
    { runId := "r", nodeId := node, nodeModule := "m", queue := .cpu, project := "",
      status := status, createdAt := 0 }
  { db :=
      { jobs := Table.ofRows
          [{ row "draw" .completed with contextDelta := [("image", .str "/out/r/a.png")] },
            { row "choose" .awaitingInput with inputSpec := some (.dict []) },
            { row "__patch__/p1" .completed with
              contextDelta := [("image", .str "/out/r/b.png")]
              inputs := [(patchInputKey, .dict
                [("target_input", .str "choose"), ("source_node", .str "draw")])] }]
        runs := OrdDict.empty.insert "r"
          { workflowName := "w", status := .running, outDir := some "/out/r" }
        events := [⟨"r", "__patch__/p1", .completed⟩] } }

def readOnlyEnv : PoolEnv where
  host :=
    { loadWorkflow := fun _ => .ok ⟨[]⟩
      pipelineSchema := fun _ => .ok ⟨[]⟩
      resolveRef := fun value _ => .ok value
      isFile := fun _ => true
      copyFiles := fun _ => .error (.host "Read-only file system") }

theorem patchedRun_parked : Parked "r" patchedRun.db :=
  ⟨⟨.running, rfl, by decide⟩, 1, _, rfl, rfl, rfl⟩

theorem patchedRun_open {index : ℕ} (hopen : patchedRun.Open index event) :
    event = ⟨"r", "__patch__/p1", .completed⟩ :=
  List.mem_singleton.mp (List.mem_of_getElem? hopen.1)

theorem patchedRun_patch : PatchOutbox "r" patchedRun := by
  intro index event hopen
  obtain rfl := patchedRun_open hopen
  exact ⟨rfl, Or.inl rfl, _, rfl⟩

theorem patchedRun_marked : Marked patchedRun := by
  intro index event hopen
  obtain rfl := patchedRun_open hopen
  have hmarker : markerOf patchedRun.db ⟨"r", "__patch__/p1", .completed⟩ = some (.dict
      [("target_input", .str "choose"), ("source_node", .str "draw")]) := rfl
  rw [hmarker]
  simp

def writableEnv : PoolEnv := { readOnlyEnv with host := { readOnlyEnv.host with
  copyFiles := fun _ => .ok () } }

/-- Nine drains find the files read-only and the tenth does not. -/
def recovering : List Drain := List.replicate 9 ⟨readOnlyEnv, 1, fun _ => none⟩ ++
  [⟨writableEnv, 1, fun _ => none⟩]

theorem patch_events_spare_run_nine_errors :
    Parked "r" patchedRun.db ∧ PatchOutbox "r" patchedRun ∧ Marked patchedRun ∧
      Untouched "r" patchedRun.db (drained recovering patchedRun).db := by
  refine ⟨patchedRun_parked, patchedRun_patch, patchedRun_marked,
    (patch_events_spare_run patchedRun_parked patchedRun_patch patchedRun_marked recovering).mpr ?_
      recovering List.prefix_rfl⟩
  intro before drain hbefore delivery hmem hraises
  have htaken : before = recovering.take before.length :=
    List.prefix_iff_eq_take.mp ((List.prefix_append before [drain]).trans hbefore)
  have hlast : recovering[before.length]? = some drain := by
    obtain ⟨after, hafter⟩ := hbefore
    rw [← hafter]
    simp
  have hproject : drain.env.project = "" := by
    rcases List.mem_append.mp (List.mem_of_getElem? hlast) with hmem | hmem
    · rw [List.eq_of_mem_replicate hmem]
      rfl
    · rw [List.mem_singleton.mp hmem]
      rfl
  have hattempts : ∀ count < 9, ∀ delivery ∈
      (lockBatch "" (drained (recovering.take count) patchedRun)).2,
        delivery.mark.attempts + 1 < dispatchMaxAttempts := by decide +kernel
  rw [htaken, hproject] at hmem
  rcases Nat.lt_or_ge before.length 9 with hfew | hmany
  · exact hattempts before.length hfew delivery hmem
  · -- Only the last drain is left, and it raises nothing.
    obtain ⟨hlength, -⟩ := List.getElem?_eq_some_iff.mp hlast
    have htenth : before.length = 9 := Nat.le_antisymm (Nat.le_of_lt_succ hlength) hmany
    rw [htenth] at hlast
    cases hlast
    rcases hraises with hfault | ⟨-, raised, hcopied⟩
    · cases hfault
    · cases hcopied

/-- The tenth drain fails it: a patch that cannot be copied takes the parked run down. -/
theorem patch_copy_fails_run :
    let drain := (drainDispatchEvents readOnlyEnv 1).left
    Parked "r" patchedRun.db ∧ PatchOutbox "r" patchedRun ∧
      (drain^[9] patchedRun).db.runStatus? "r" = some .running ∧
      (drain^[10] patchedRun).db.runStatus? "r" = some .failed :=
  ⟨patchedRun_parked, patchedRun_patch, by decide +kernel, by decide +kernel⟩

end BrokerParrot
