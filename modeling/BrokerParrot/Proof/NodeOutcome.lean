import BrokerParrot.NodeExecutor
import BrokerParrot.Proof.DisplacedWorker

/-!
# Every execution settles its row

`execute_node` guards the body of the node: whatever exception it raises becomes a status of the
row. The row stays `running` when the inputs cannot be resolved, when the host's context manager or
its function for the delta raises, when the delta or the text of an error cannot be stored, and when
something is raised that is no `Exception`.
-/

namespace BrokerParrot

open Prog

namespace NodeExecutor

variable {id : JobId} {α : Type} {state : ExecDb}

def ExecDb.Settled (id : JobId) (state : ExecDb) : Prop :=
  ∀ row, state.db.jobs.get? id = some row → row.status ≠ .running

/-! ### The writes -/

theorem get?_transition_ne_running {db : Db} {set : NodeJob → NodeJob}
    (hset : ∀ row, (set row).status ≠ .running) {row : NodeJob}
    (hget : (db.transition id set).1.jobs.get? id = some row) : row.status ≠ .running := by
  unfold Db.transition at hget
  split at hget
  · rename_i found hfound
    split at hget
    · rw [Table.get?_modify_self, hfound] at hget
      cases hget
      exact hset found
    · rename_i hclosed
      obtain rfl := Option.mem_unique hfound hget
      intro hrunning
      exact hclosed (by rw [hrunning]; decide)
  · rename_i hnone
    cases hnone.symm.trans hget

section

variable (env : ExecEnv) (job : HeldJob) (state : ExecDb)

theorem settled_writeCompleted (value : Value) :
    (writeCompleted env job value state).1.Settled job.id := by
  intro row hget
  have hjobs (entries : Context) :
      (BrokerParrot.finaliseCompleted job entries env.seconds env.rssMb state.db).1.jobs =
        (markCompletedInTxn job.id entries env.seconds env.rssMb state.db).1.jobs := by
    unfold BrokerParrot.finaliseCompleted
    split <;> simp_all [enqueueDispatchEventInTxn]
  change (BrokerParrot.finaliseCompleted job _ env.seconds env.rssMb state.db).1.jobs.get? _ = _
    at hget
  rw [hjobs] at hget
  exact get?_transition_ne_running (by simp [NodeJob.complete]) hget

theorem settled_writeFailed (text : PyStr) :
    (writeFailed env job text state).1.Settled job.id := by
  intro row hget
  have hjobs (error : String) :
      (BrokerParrot.finaliseFailed job error env.seconds state.db).1.jobs =
        (markFailedInTxn job.id error (some env.seconds) state.db).1.jobs := by
    unfold BrokerParrot.finaliseFailed
    split <;> simp_all [enqueueDispatchEventInTxn]
  change (BrokerParrot.finaliseFailed job _ env.seconds state.db).1.jobs.get? _ = _ at hget
  rw [hjobs] at hget
  exact get?_transition_ne_running (by simp [NodeJob.fail]) hget

theorem settled_requeue : (requeue job state).1.Settled job.id := by
  intro row hget
  change (state.db.jobs.update _).get? job.id = some row at hget
  rw [Table.get?_update] at hget
  obtain ⟨before, -, rfl⟩ := Option.map_eq_some_iff.mp hget
  split
  · simp [NodeJob.retry, NodeJob.requeue]
  · rename_i hstopped
    simpa using hstopped

end

/-! ### The executor and the queue

On the tables of the engine every statement of the executor is one of the writes that a worker
issues for its row, or none. -/

def WorkerWrite (env : ExecEnv) (job : HeldJob) (host : String) (s t : ExecDb) : Prop :=
  t.db = s.db ∨ ∃ op : QueueOp, op.WrittenFor job.id host ∧ t.db = op.step env.dialect s.db

section

variable (env : ExecEnv) (job : HeldJob) (host : String)

theorem read_moves (view : ExecDb → α) :
    (Prog.read view : ExecProg α).Moves (WorkerWrite env job host) :=
  fun _ => ⟨Or.inl rfl, trivial⟩

theorem finaliseCompleted_moves (delta : PyObject) :
    (finaliseCompleted env job delta).Moves (WorkerWrite env job host) :=
  (Moves.ofExcept _).bind fun _ =>
    .exec fun _ => Or.inr ⟨.finaliseCompleted job _ env.seconds env.rssMb, rfl, rfl⟩

theorem finaliseFailed_moves (text : PyStr) :
    (finaliseFailed env job text).Moves (WorkerWrite env job host) := by
  unfold finaliseFailed
  split
  · exact .exec fun _ =>
      Or.inr ⟨.finaliseFailed job (text.take 8000).toString env.seconds, rfl, rfl⟩
  · trivial

theorem recordFailure_moves (short text : PyStr) :
    (recordFailure env job short text).Moves (WorkerWrite env job host) := by
  have hfail := finaliseFailed_moves env job host text
  unfold recordFailure requeueForTransientGpu
  split
  · split
    · exact hfail
    · refine Moves.bind (.exec fun _ => Or.inr ⟨.requeueForRetry job.id, rfl, rfl⟩) ?_
      intro requeued
      cases requeued with
      | none => exact hfail
      | some => trivial
  · exact hfail

theorem loadModel_moves : (loadModel env job).Moves (WorkerWrite env job host) := by
  unfold loadModel
  split
  · trivial
  split
  · exact (finaliseFailed_moves env job host _).bind fun _ => trivial
  split
  · exact (Moves.ofExcept _).bind fun _ => trivial
  · refine (Moves.ofExcept _).bind fun short => ?_
    exact (recordFailure_moves env job host _ _).bind fun _ => trivial
  · trivial

theorem runBody_moves (run : Option Run) (handle : Option PyObject)
    (inputs : List (String × PyObject)) :
    (runBody env job run handle inputs).Moves (WorkerWrite env job host) := by
  have hsettle (finalize : Option (PyObject → Except Thrown PyObject))
      (invoked : Except Thrown NodeResult) :
      (settle env job finalize invoked).Moves (WorkerWrite env job host) := by
    unfold settle
    split
    · exact (Moves.ofExcept _).bind fun _ => finaliseCompleted_moves env job host _
    · exact (Moves.ofExcept _).bind fun _ => recordFailure_moves env job host _ _
    · trivial
  have hleave (exit : Option Thrown → Except Thrown Bool)
      (outcome : Except Thrown FinaliseResult) :
      (leave exit outcome).Moves (WorkerWrite env job host) := by
    cases outcome with
    | ok => exact (Moves.ofExcept _).bind fun _ => trivial
    | error =>
      refine (Moves.ofExcept _).bind fun suppressed => ?_
      split <;> trivial
  refine (Moves.ofExcept _).bind fun _ => ?_
  refine (Moves.ofExcept _).bind fun context => ?_
  refine (Moves.ofExcept _).bind fun finalize => ?_
  exact (hsettle finalize _).tried.bind fun outcome => hleave context.exit outcome

theorem resolveInputsForJob_moves :
    (resolveInputsForJob env job).Moves (WorkerWrite env job host) := by
  unfold resolveInputsForJob
  split
  · trivial
  refine (read_moves env job host _).bind fun run => ?_
  split
  · exact .ofExcept _
  · exact (read_moves env job host _).bind fun _ => .ofExcept _

theorem executeNode_moves : (executeNode env job).Moves (WorkerWrite env job host) := by
  have htwin : (findTwin env job).Moves (WorkerWrite env job host) := by
    unfold findTwin
    split
    · trivial
    · exact read_moves env job host _
  refine (read_moves env job host _).bind fun run => ?_
  refine htwin.bind fun twin => ?_
  cases twin with
  | some =>
    refine (Moves.ofExcept _).bind fun delta => ?_
    exact (finaliseCompleted_moves env job host delta).bind fun _ => trivial
  | none =>
    refine (loadModel_moves env job host).bind fun loaded => ?_
    cases loaded with
    | inl => trivial
    | inr handle =>
      refine (resolveInputsForJob_moves env job host).bind fun inputs => ?_
      exact runBody_moves env job host run handle inputs

end

/-! ### What decides

A part that touches the tables only to settle the row either does so, or ends before. -/

def Decides {α : Type} (id : JobId) (H : Prop) (prog : ExecProg α) : Prop :=
  (H → prog.Leaves (fun _ => True) (ExecDb.Settled id) False) ∧ (¬ H → prog.ended = true)

namespace Decides

variable {β : Type} {H : Prop} {prog : ExecProg α} {next : α → ExecProg β}

theorem of_raise (hfalse : ¬ H) (thrown : Thrown) : Decides id H (.raise thrown : ExecProg α) :=
  ⟨fun hholds => absurd hholds hfalse, fun _ => rfl⟩

theorem congr {K : Prop} (hdecides : Decides id H prog) (hiff : K ↔ H) : Decides id K prog :=
  ⟨fun hholds => hdecides.1 (hiff.mp hholds), fun hfalse => hdecides.2 (mt hiff.mpr hfalse)⟩

theorem ended_bind (hended : prog.ended = true) (hnext : ∀ value, (next value).ended = true) :
    (prog >>= next).ended = true := by
  cases prog with
  | ret value => exact hnext value
  | raise => rfl
  | _ => cases hended

theorem ofExcept_bind (result : Except Thrown β) {next : β → ExecProg α} {K : β → Prop}
    (hnext : ∀ value, Decides id (K value) (next value)) :
    Decides id (∃ value, result = .ok value ∧ K value) (ofExcept result >>= next) := by
  cases result with
  | error thrown => exact of_raise (by simp) thrown
  | ok value => exact (hnext value).congr (by simp)

variable (hdecides : Decides id H prog)

include hdecides

theorem bind_ended (hnext : ∀ value, (next value).ended = true) :
    Decides id H (prog >>= next) :=
  ⟨fun hholds => (hdecides.1 hholds).bind_ended hnext,
    fun hfalse => ended_bind (hdecides.2 hfalse) hnext⟩

theorem tried_bind_ended {next : Except Thrown α → ExecProg β}
    (hnext : ∀ result, (next result).ended = true) : Decides id H (prog.tried >>= next) := by
  refine ⟨fun hholds => (hdecides.1 hholds).tried_bind_ended hnext, fun hfalse => ?_⟩
  have hended := hdecides.2 hfalse
  cases prog with
  | ret | raise => exact hnext _
  | _ => cases hended

theorem alone (hrunning : ¬ state.Settled id) :
    ∃ result after, prog.alone state = some (result, after) ∧ (after.Settled id ↔ H) := by
  by_cases hholds : H
  · obtain ⟨result, after, halone, hsettled⟩ := (hdecides.1 hholds).alone False.elim
    exact ⟨result, after, halone, iff_of_true hsettled hholds⟩
  · obtain ⟨result, halone⟩ := alone_of_ended (hdecides.2 hholds) state
    exact ⟨result, state, halone, iff_of_false hrunning hholds⟩

end Decides

/-! ### The parts -/

def Storable (env : ExecEnv) (delta : PyObject) : Prop :=
  ∃ value, delta.column env.dialect = .ok value

/-- An exception that a handler can turn into a status: a transient error that is retried, or one
whose text the column takes. -/
def Recordable (env : ExecEnv) (job : HeldJob) (short text : PyStr) : Prop :=
  isTransientGpuError short = true ∧ job.row.watchdogRetries < env.maxRetries ∨
    storesText env.dialect (text.take 8000) = true

section

variable (env : ExecEnv) (job : HeldJob)

theorem decides_finaliseCompleted (delta : PyObject) :
    Decides job.id (Storable env delta) (finaliseCompleted env job delta) := by
  have hwrite (value : Value) : Decides job.id True (Prog.exec (writeCompleted env job value)) :=
    ⟨fun _ state _ => settled_writeCompleted env job state value, by simp⟩
  exact (Decides.ofExcept_bind _ hwrite).congr (by simp [Storable])

theorem decides_finaliseFailed (text : PyStr) :
    Decides job.id (storesText env.dialect (text.take 8000) = true)
      (finaliseFailed env job text) := by
  unfold finaliseFailed
  split
  · exact ⟨fun _ state _ => settled_writeFailed env job state text, fun hfalse => by contradiction⟩
  · exact Decides.of_raise ‹_› _

theorem decides_requeueForTransientGpu (text : PyStr) :
    Decides job.id (job.row.watchdogRetries < env.maxRetries ∨
        storesText env.dialect (text.take 8000) = true)
      (requeueForTransientGpu env job text) := by
  unfold requeueForTransientGpu
  split
  · rename_i hcap
    exact (decides_finaliseFailed env job text).congr (or_iff_right (Nat.not_lt.mpr hcap))
  · rename_i hbelow
    refine ⟨fun _ state _ => ?_, fun hfalse => absurd (Or.inl (Nat.lt_of_not_le hbelow)) hfalse⟩
    -- A row that was not found running is settled as well, whatever becomes of the error.
    have hsettled := settled_requeue job state
    dsimp only [Prog.bind]
    split
    · by_cases hstores : storesText env.dialect (text.take 8000) = true
      · exact ((decides_finaliseFailed env job text).1 hstores).mono False.elim
      · exact .of_ended ((decides_finaliseFailed env job text).2 hstores) hsettled
    · exact hsettled

theorem decides_recordFailure (short text : PyStr) :
    Decides job.id (Recordable env job short text) (recordFailure env job short text) := by
  unfold recordFailure Recordable
  split
  · rename_i htransient
    exact (decides_requeueForTransientGpu env job text).congr (by simp [htransient])
  · rename_i hother
    exact (decides_finaliseFailed env job text).congr (by simp [hother])

/-- The block inside the `with` statement: the body returned a delta that the host's function takes
and the column stores, or it raised an exception that is recorded. -/
def BlockSettles (finalize : Option (PyObject → Except Thrown PyObject))
    (invoked : Except Thrown NodeResult) : Prop :=
  (∃ result delta, invoked = .ok result ∧ finalized finalize result = .ok delta ∧
    Storable env delta) ∨
  ∃ error short, invoked = .error (.exception error) ∧ env.exceptionText error = .ok short ∧
    Recordable env job short (short ++ .of "\n" ++ env.traceback error)

theorem decides_settle (finalize : Option (PyObject → Except Thrown PyObject))
    (invoked : Except Thrown NodeResult) :
    Decides job.id (BlockSettles env job finalize invoked) (settle env job finalize invoked) := by
  unfold settle BlockSettles
  rcases invoked with (error | name) | result
  · exact (Decides.ofExcept_bind _ fun short => decides_recordFailure env job short _).congr
      (by simp)
  · exact Decides.of_raise (by simp) _
  · exact (Decides.ofExcept_bind _ fun delta => decides_finaliseCompleted env job delta).congr
      (by simp)

theorem ended_leave (exit : Option Thrown → Except Thrown Bool)
    (outcome : Except Thrown FinaliseResult) : (leave exit outcome).ended = true := by
  have hcheck {α β : Type} (result : Except Thrown β) (next : β → ExecProg α)
      (hnext : ∀ value, (next value).ended = true) :
      (ofExcept result >>= next).ended = true := by
    cases result with
    | error => rfl
    | ok value => exact hnext value
  cases outcome with
  | ok => exact hcheck _ _ fun _ => rfl
  | error =>
    refine hcheck _ _ fun suppressed => ?_
    split <;> rfl

def BodySettles (run : Option Run) (handle : Option PyObject)
    (inputs : List (String × PyObject)) : Prop :=
  setResolvedInputs env inputs = .ok () ∧
    ∃ context, contextFor env job run = .ok context ∧
      ∃ finalize, context.enter = .ok finalize ∧
        BlockSettles env job finalize (invoke env job run inputs handle)

theorem decides_runBody (run : Option Run) (handle : Option PyObject)
    (inputs : List (String × PyObject)) :
    Decides job.id (BodySettles env job run handle inputs)
      (runBody env job run handle inputs) := by
  have hblock (context : InvokeContext) (finalize : Option (PyObject → Except Thrown PyObject)) :=
    (decides_settle env job finalize (invoke env job run inputs handle)).tried_bind_ended
      (ended_leave context.exit)
  have hentered (context : InvokeContext) := Decides.ofExcept_bind context.enter (hblock context)
  have hmanaged := Decides.ofExcept_bind (contextFor env job run) hentered
  exact (Decides.ofExcept_bind (setResolvedInputs env inputs) fun _ => hmanaged).congr
    ⟨fun hbody => ⟨(), hbody⟩, fun ⟨_, hbody⟩ => hbody⟩

def Loads (handle : Option PyObject) : Prop :=
  cachedModel job.row = none ∧ handle = none ∨
    ∃ model require object, cachedModel job.row = some model ∧ env.modelCache = some require ∧
      require model = .ok object ∧ swallowed (env.statusCallback.getD (.ok ())) = .ok () ∧
      handle = some object

def LoadReported : Prop :=
  ∃ model, cachedModel job.row = some model ∧
    (env.modelCache = none ∧
      storesText env.dialect ((noCacheText env job model).take 8000) = true ∨
    ∃ require error short, env.modelCache = some require ∧
      require model = .error (.exception error) ∧ env.exceptionText error = .ok short ∧
      Recordable env job (loadFailedText short) (loadFailedText short))

theorem loadModel_cases :
    (∃ handle, Loads env job handle ∧ loadModel env job = .ret (.inr handle)) ∨
      (∀ handle, ¬ Loads env job handle) ∧ ∃ prog : ExecProg FinaliseResult,
        loadModel env job = (prog >>= fun result => pure (.inl result)) ∧
          Decides job.id (LoadReported env job) prog := by
  unfold loadModel
  cases hmodel : cachedModel job.row with
  | none => exact Or.inl ⟨none, Or.inl ⟨hmodel, rfl⟩, rfl⟩
  | some model =>
    cases hcache : env.modelCache with
    | none =>
      refine Or.inr ⟨by simp [Loads, hmodel, hcache], _, rfl, ?_⟩
      exact (decides_finaliseFailed env job _).congr (by simp [LoadReported, hmodel, hcache])
    | some require =>
      dsimp only
      rcases hrequire : require model with (error | name) | object
      · refine Or.inr ⟨by simp [Loads, hmodel, hcache, hrequire],
          ofExcept (env.exceptionText error) >>= fun short =>
            recordFailure env job (loadFailedText short) (loadFailedText short), ?_, ?_⟩
        · exact (bind_assoc _ _ _).symm
        · exact (Decides.ofExcept_bind _ fun short => decides_recordFailure env job _ _).congr
            (by simp [LoadReported, hmodel, hcache, hrequire])
      · refine Or.inr ⟨by simp [Loads, hmodel, hcache, hrequire], .raise (.base name), rfl, ?_⟩
        exact Decides.of_raise (by simp [LoadReported, hmodel, hcache, hrequire]) _
      · cases hbeat : swallowed (env.statusCallback.getD (.ok ())) with
        | ok =>
          exact Or.inl ⟨some object, Or.inr ⟨model, require, object, hmodel, hcache,
            hrequire, hbeat, rfl⟩, rfl⟩
        | error thrown =>
          refine Or.inr ⟨by simp [Loads, hmodel, hcache, hbeat], .raise thrown, rfl, ?_⟩
          exact Decides.of_raise (by simp [LoadReported, hmodel, hcache, hrequire]) _

/-! ### The reads -/

def twinIn (state : ExecDb) : Option (JobId × Value) :=
  (orNull (job.row.dedupKey.map stripped)).bind fun key =>
    (findCompletedDuplicate env.dialect key job.row.project job.id state.db).map fun twin =>
      (twin.1, state.delta twin.1 twin.2)

def resolvedIn (run : Option Run) (state : ExecDb) : Except Thrown (List (String × PyObject)) :=
  if isInputModule job.row.nodeModule then
    .ok (job.row.inputs.map fun input => (input.1, .json input.2))
  else
    resolveInputs env job (run.elim (.ok []) fun run => state.refContext job.row.runId run)

section

variable {I P : ExecDb → Prop} {held : Prop}

theorem alone_findTwin_bind (next : Option (JobId × Value) → ExecProg α) :
    (findTwin env job >>= next).alone state = (next (twinIn env job state)).alone state := by
  unfold findTwin twinIn
  cases orNull (job.row.dedupKey.map stripped) <;> rfl

theorem leaves_findTwin_bind {next : Option (JobId × Value) → ExecProg α}
    (hstate : I state) (hnext : ∀ read, I read → (next (twinIn env job read)).Leaves I P False) :
    (findTwin env job >>= next).Leaves I P held := by
  unfold findTwin
  unfold twinIn at hnext
  cases hkey : orNull (job.row.dedupKey.map stripped) with
  | none =>
    rw [hkey] at hnext
    exact (hnext state hstate).mono False.elim
  | some =>
    rw [hkey] at hnext
    exact fun read hread => (hnext read hread).mono False.elim

theorem alone_resolveInputsForJob_bind (next : List (String × PyObject) → ExecProg α) :
    (resolveInputsForJob env job >>= next).alone state =
      (ofExcept (resolvedIn env job (state.run job.row.runId) state) >>= next).alone
        state := by
  unfold resolveInputsForJob resolvedIn
  split
  · rfl
  · rw [bind_assoc, alone_read_bind]
    cases state.run job.row.runId <;> rfl

theorem leaves_resolveInputsForJob_bind {next : List (String × PyObject) → ExecProg α}
    (hstate : I state) (hnext : ∀ first second : ExecDb, I first → I second →
      (ofExcept (resolvedIn env job (first.run job.row.runId) second) >>= next).Leaves
        I P False) :
    (resolveInputsForJob env job >>= next).Leaves I P held := by
  unfold resolveInputsForJob
  unfold resolvedIn at hnext
  split
  · rename_i hinput
    simp only [hinput, if_true] at hnext
    exact (hnext state state hstate hstate).mono False.elim
  · rename_i hnode
    simp only [hnode] at hnext
    intro first hfirst
    have hthen := fun second => hnext first second hfirst
    dsimp only [Prog.bind]
    cases hrun : first.run job.row.runId with
    | none =>
      rw [hrun] at hthen
      exact (hthen state hstate).mono False.elim
    | some =>
      rw [hrun] at hthen
      exact fun second hsecond => (hthen second hsecond).mono False.elim

end

/-! ### The whole call -/

/-- What takes the row out of `running`, by what the call reads: a twin whose delta can be stored, a
model that is missing and can be reported, or a body that runs on resolved inputs and settles the
row. -/
def Settles (run : Option Run) (twin : Option (JobId × Value))
    (resolved : Except Thrown (List (String × PyObject))) : Prop :=
  (∃ found delta, twin = some found ∧ dedupedDelta env found = .ok delta ∧ Storable env delta) ∨
    twin = none ∧ (LoadReported env job ∨ ∃ handle, Loads env job handle ∧
      ∃ inputs, resolved = .ok inputs ∧ BodySettles env job run handle inputs)

theorem decides_completeDeduped (twin : JobId × Value) :
    Decides job.id (∃ delta, dedupedDelta env twin = .ok delta ∧ Storable env delta)
      (completeDeduped env job twin) := by
  have hwrite (delta : PyObject) := (decides_finaliseCompleted env job delta).bind_ended
    (fun result => (rfl : (pure (some result) : ExecProg _).ended = true))
  refine (Decides.ofExcept_bind _ hwrite).congr ?_
  cases dedupedDelta env twin <;> simp [Except.mapError]

variable {env job} {handle : Option PyObject}

theorem Loads.unique {other : Option PyObject} (hloads : Loads env job handle)
    (hother : Loads env job other) : other = handle := by
  rcases hloads with ⟨hnone, rfl⟩ | ⟨model, require, object, hmodel, hcache, hrequire, -, rfl⟩
  · simpa [Loads, hnone] using hother
  · rcases hother with ⟨hnone, -⟩ | ⟨_, _, found, hmodel', hcache', hfound, -, rfl⟩
    · cases hnone.symm.trans hmodel
    · obtain rfl := Option.some.inj (hmodel.symm.trans hmodel')
      obtain rfl := Option.some.inj (hcache.symm.trans hcache')
      rw [Except.ok.inj (hfound.symm.trans hrequire)]

theorem Loads.not_reported (hloads : Loads env job handle) : ¬ LoadReported env job := by
  rintro ⟨model, hmodel, hreported⟩
  rcases hloads with ⟨hnone, -⟩ | ⟨_, require, object, hmodel', hcache, hrequire, -⟩
  · cases hnone.symm.trans hmodel
  · obtain rfl := Option.some.inj (hmodel.symm.trans hmodel')
    rcases hreported with ⟨hnone, -⟩ | ⟨_, error, short, hcache', hraised, -⟩
    · cases hnone.symm.trans hcache
    · obtain rfl := Option.some.inj (hcache.symm.trans hcache')
      cases hraised.symm.trans hrequire

variable (env job)

theorem alone_executeNode (hrunning : ¬ state.Settled job.id) :
    ∃ result after, (executeNode env job).alone state = some (result, after) ∧
      (after.Settled job.id ↔ Settles env job (state.run job.row.runId) (twinIn env job state)
        (resolvedIn env job (state.run job.row.runId) state)) := by
  unfold executeNode Settles
  rw [alone_read_bind, alone_findTwin_bind]
  cases twinIn env job state with
  | some twin => exact ((decides_completeDeduped env job twin).congr (by simp)).alone hrunning
  | none =>
    rcases loadModel_cases env job with ⟨handle, hloads, hload⟩ | ⟨hnone, prog, hload, hdecides⟩
    · rw [hload]
      change ∃ result after, (resolveInputsForJob env job >>= _).alone state = _ ∧ _
      rw [alone_resolveInputsForJob_bind]
      have hbody := Decides.ofExcept_bind (resolvedIn env job (state.run job.row.runId) state)
        (decides_runBody env job (state.run job.row.runId) handle)
      refine (hbody.congr ?_).alone hrunning
      have hunique (other : Option PyObject) : Loads env job other ↔ other = handle :=
        ⟨hloads.unique, fun heq => heq ▸ hloads⟩
      simp [hloads.not_reported, hunique]
    · rw [hload, bind_assoc]
      refine (hdecides.bind_ended fun result => rfl).congr ?_ |>.alone hrunning
      simp [hnone]

theorem leaves_executeNode (I : ExecDb → Prop)
    (hsettles : ∀ first second third fourth : ExecDb, I first → I second → I third → I fourth →
      Settles env job (first.run job.row.runId) (twinIn env job second)
        (resolvedIn env job (third.run job.row.runId) fourth)) :
    (executeNode env job).Leaves I (ExecDb.Settled job.id) False := by
  intro first hfirst
  refine leaves_findTwin_bind env job hfirst fun second hsecond => ?_
  have hthen := fun third fourth => hsettles first second third fourth hfirst hsecond
  unfold Settles at hthen
  cases htwin : twinIn env job second with
  | some twin =>
    rw [htwin] at hthen
    refine ((decides_completeDeduped env job twin).1 ?_).restrict
    simpa using hthen first first hfirst hfirst
  | none =>
    rw [htwin] at hthen
    rcases loadModel_cases env job with ⟨handle, hloads, hload⟩ | ⟨hnone, prog, hload, hdecides⟩
    · rw [hload]
      refine leaves_resolveInputsForJob_bind env job hfirst fun third fourth hthird hfourth => ?_
      refine ((Decides.ofExcept_bind _ (decides_runBody env job _ handle)).1 ?_).restrict
      rcases hthen third fourth hthird hfourth with
        ⟨found, _, hfound, -⟩ | ⟨-, hreported | ⟨other, hother, hbody⟩⟩
      · cases hfound
      · exact absurd hreported hloads.not_reported
      · rwa [hloads.unique hother] at hbody
    · rw [hload, bind_assoc]
      refine ((hdecides.bind_ended fun result => rfl).1 ?_).restrict
      simpa [hnone] using hthen first first hfirst hfirst

end

/-- **When an execution settles its row.** The row has left `running` exactly if what the call read
and what the host did let it. With others about it suffices that every state its statements may run
in does. -/
theorem execution_settles_iff (env : ExecEnv) (job : HeldJob) :
    (∀ state row, state.db.jobs.get? job.id = some row → row.status = .running →
      ∃ result after, (executeNode env job).alone state = some (result, after) ∧
        (after.Settled job.id ↔ Settles env job (state.run job.row.runId) (twinIn env job state)
          (resolvedIn env job (state.run job.row.runId) state))) ∧
    ∀ I : ExecDb → Prop,
      (∀ first second third fourth : ExecDb, I first → I second → I third → I fourth →
        Settles env job (first.run job.row.runId) (twinIn env job second)
          (resolvedIn env job (third.run job.row.runId) fourth)) →
      (executeNode env job).Leaves I (ExecDb.Settled job.id) False := by
  refine ⟨fun state row hget hstatus => ?_, leaves_executeNode env job⟩
  exact alone_executeNode env job fun hsettled => hsettled row hget hstatus

def bodyEnv (runNode : NodeCall → Except Thrown NodeResult) : ExecEnv where
  dialect := .pg
  runNode := runNode
  resolveRef := fun value _ => .ok (.json value)
  exceptionText := fun _ => .ok (.of "ValueError: boom")

def heldJob : HeldJob where
  id := 0
  row :=
    { runId := "r", nodeId := "s/n", nodeModule := "m", queue := .cpu, project := "",
      status := .running, createdAt := 0 }

def heldState : ExecDb where
  db :=
    { jobs := Table.ofRows [heldJob.row]
      runs := OrdDict.empty.insert "r" { workflowName := "w", status := .running } }

theorem execution_settles_iff_raised :
    let env := bodyEnv fun _ => .error (.exception (.valueError "boom"))
    (∃ result after, (executeNode env heldJob).alone heldState = some (result, after) ∧
      after.Settled 0) ∧
    (executeNode env heldJob).Leaves (fun state => state.db.outDirs = fun _ => none)
      (ExecDb.Settled 0) False := by
  intro env
  obtain ⟨halone, hamong⟩ := execution_settles_iff env heldJob
  have hsettles (run : Option Run) (resolved : Except Thrown (List (String × PyObject)))
      (hresolved : resolved = .ok []) : Settles env heldJob run none resolved := by
    refine Or.inr ⟨rfl, Or.inr ⟨none, Or.inl ⟨rfl, rfl⟩, [], hresolved, rfl, nullcontext, rfl, none,
      rfl, Or.inr ⟨.valueError "boom", .of "ValueError: boom", ?_, rfl,
        Or.inr (by decide +kernel)⟩⟩⟩
    unfold invoke outDirFor
    cases orNull (run.bind Run.outDir) <;> rfl
  refine ⟨?_, hamong _ fun first second third fourth _ _ _ hfourth => hsettles _ _ ?_⟩
  · obtain ⟨result, after, hrun, hiff⟩ := halone heldState heldJob.row rfl rfl
    exact ⟨result, after, hrun, hiff.mpr (hsettles _ _ rfl)⟩
  · cases third.run heldJob.row.runId with
    | none => rfl
    | some run =>
      obtain ⟨context, hcontext⟩ : ∃ context,
          fourth.refContext heldJob.row.runId run = .ok context := by
        unfold ExecDb.refContext
        rw [hfourth]
        cases orNull run.outDir <;> exact ⟨_, rfl⟩
      change resolveInputs env heldJob (fourth.refContext heldJob.row.runId run) = _
      rw [hcontext]
      rfl

/-- The body returns a set: `json.dumps` refuses it, the call raises and the row stays `running`. -/
theorem unwritable_result_keeps_running :
    let body := bodyEnv fun _ => .ok (.bare (.other fun _ =>
      .error (.exception (.typeError "Object of type set is not JSON serializable"))))
    ((executeNode body heldJob).alone heldState).map
        (fun outcome => (outcome.1.isOk, (outcome.2.db.jobs.get? 0).map NodeJob.status)) =
      some (false, some .running) := by
  decide +kernel

end NodeExecutor

end BrokerParrot
