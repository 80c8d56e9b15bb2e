import BrokerParrot.Watchdog
import BrokerParrot.GpuWorker
import BrokerParrot.Proof.DisplacedWorker
import BrokerParrot.Proof.RunNext

/-!
# What the retries of a job are spent on

The statement that counts the failures of a body is also used to give a row back that has not run at
all, when the box is taken or a reservation cannot be met. So the counter is the number of failures
exactly as long as no running row is given back that way, and every failure finds the row still
running.
-/

namespace BrokerParrot

open Prog Option

variable {id : JobId} {db : Db} {seen : ℕ} {box : GpuBox}

/-! ### Everything else leaves the counter alone -/

theorem step_keepsRetries (d : Dialect) (db : Db) {op : QueueOp} {row next : NodeJob}
    (hop : op ≠ .requeueForRetry id) (hget : db.jobs.get? id = some row)
    (hnext : (op.step d db).jobs.get? id = some next) :
    next.watchdogRetries = row.watchdogRetries := by
  have hstep := step_row d db op id
  rw [hget, hnext] at hstep
  cases hstep with
  | same | take => rfl
  | leave _ _ _ hretries => exact hretries.resolve_right hop
  | finish _ _ _ hretries | cancel _ _ _ hretries => exact hretries
  | edit _ _ _ _ _ _ hretries => exact hretries

/-! ### The tally -/

inductive BodyFailure where
  | watchdogTrip (error : String)
  | gpuError (row : NodeJob) (error : String) (seconds : ℚ)

def BodyFailure.giveUp (id : JobId) : BodyFailure → QueueOp
  | watchdogTrip error => .failJob id error
  | gpuError row error seconds => .finaliseFailed ⟨id, row⟩ error seconds

/-- A failure of the job's body, decided by the count that was seen, or anything else that happens
to the queue. The transaction of a failure may not get through. -/
inductive RetryMove where
  | bodyFailed (failure : BodyFailure) (seen : ℕ) (landed : Bool)
  | queue (op : QueueOp)

structure Tally where
  db : Db
  failures : ℕ := 0
  cappedAt : Option ℕ := none

namespace Tally

variable (d : Dialect) (cap : ℕ) (id : JobId)

def hasOpenRow (tally : Tally) : Bool := (tally.db.jobs.get? id).any fun row => row.status.Open

/-- What `watchdogTrip` and `requeueForTransientGpu` decide, with the count they went by. -/
def fail (tally : Tally) (failure : BodyFailure) (seen : ℕ) (landed : Bool) : Tally :=
  if landed = false then
    { tally with failures := tally.failures + 1 }
  else if seen < cap then
    { tally with
      db := (requeueJobForRetry id tally.db).1
      failures := tally.failures + 1 }
  else
    { db := (failure.giveUp id).step d tally.db
      failures := tally.failures + 1
      cappedAt := tally.cappedAt.or
        (if tally.hasOpenRow id then some (tally.failures + 1) else none) }

def step (tally : Tally) : RetryMove → Tally
  | .bodyFailed failure seen landed => tally.fail d cap id failure seen landed
  | .queue op => { tally with db := op.step d tally.db }

def run (tally : Tally) (history : List RetryMove) : Tally := history.foldl (step d cap id) tally

/-- Until the cap fails the job its counter is the number of its failures, and the cap fails it at
the failure after the last retry. -/
structure Lawful (tally : Tally) : Prop where
  counts : ∀ row, tally.db.jobs.get? id = some row → tally.cappedAt = none →
    row.watchdogRetries = tally.failures
  capped : ∀ n, tally.cappedAt = some n → n = cap + 1

/-- A failure that gets through and finds the row running, or its counter at the cap if it is given
up; and nobody gives a running row back. -/
def FairFor (row : NodeJob) : RetryMove → Prop
  | .bodyFailed _ seen landed =>
    landed = true ∧
      if seen < cap then row.status = .running else row.status.Open ∧ row.watchdogRetries = cap
  | .queue op => op = .requeueForRetry id → row.status ≠ .running

def Fair (tally : Tally) (move : RetryMove) : Prop :=
  ∀ row, tally.db.jobs.get? id = some row → tally.cappedAt = none → FairFor cap id row move

end Tally

section

variable {d : Dialect} {cap : ℕ} {tally : Tally} {row : NodeJob}

theorem get?_requeueForRetry (hget : db.jobs.get? id = some row) :
    (requeueJobForRetry id db).1.jobs.get? id =
      some (if row.status = .running then row.retry else row) := by
  unfold requeueJobForRetry Db.updateRunning Db.updateJobs
  simp [hget]

theorem BodyFailure.get?_giveUp_of_not_open (failure : BodyFailure)
    (hget : db.jobs.get? id = some row) (hdone : ¬ row.status.Open) :
    ((failure.giveUp id).step d db).jobs.get? id = some row := by
  have hunmarked {other : NodeJob} (hother : db.jobs.get? id = some other) :
      ¬ other.status.Open :=
    mem_unique hget hother ▸ hdone
  cases failure with
  | watchdogTrip error =>
    rcases failJobAndExit_cases id error db with hmiss | ⟨other, hother, hopen, -⟩
    · exact (congrArg (fun db : Db => db.jobs.get? id) hmiss).trans hget
    · exact absurd hopen (hunmarked hother)
  | gpuError held error seconds =>
    rcases finaliseFailed_cases ⟨id, held⟩ error seconds db with hmiss | ⟨other, hother, hopen, -⟩
    · exact (congrArg (fun result => result.1.jobs.get? id) hmiss).trans hget
    · exact absurd hopen (hunmarked hother)

namespace Tally

theorem extends_step (move : RetryMove) :
    tally.db.jobs.Extends (tally.step d cap id move).db.jobs := by
  cases move with
  | queue op => exact step_extends d tally.db op
  | bodyFailed failure seen landed =>
    change tally.db.jobs.Extends (tally.fail d cap id failure seen landed).db.jobs
    unfold fail
    split
    · exact Table.Extends.refl _
    · split
      · exact step_extends d tally.db (.requeueForRetry id)
      · exact step_extends d tally.db (failure.giveUp id)

theorem cappedAt_step (move : RetryMove) :
    (tally.step d cap id move).cappedAt = tally.cappedAt ∨
      tally.cappedAt = none ∧ tally.hasOpenRow id = true := by
  cases move with
  | queue => exact Or.inl rfl
  | bodyFailed failure seen landed =>
    change (tally.fail d cap id failure seen landed).cappedAt = _ ∨ _
    unfold fail
    split
    · exact Or.inl rfl
    · split
      · exact Or.inl rfl
      · cases hcapped : tally.cappedAt with
        | some => exact Or.inl (by simp)
        | none =>
          by_cases hopen : tally.hasOpenRow id = true
          · exact Or.inr ⟨rfl, hopen⟩
          · exact Or.inl (by simp [hopen])

theorem lawful_step_of_capped {n : ℕ} (hlawful : tally.Lawful cap id)
    (hcapped : tally.cappedAt = some n) (move : RetryMove) :
    (tally.step d cap id move).Lawful cap id := by
  have hafter : (tally.step d cap id move).cappedAt = some n := by
    rcases tally.cappedAt_step move with hsame | ⟨hnone, -⟩
    · exact hsame.trans hcapped
    · cases hnone.symm.trans hcapped
  refine ⟨fun row _ hnone => absurd (hnone.symm.trans hafter) (by simp), fun m hm => ?_⟩
  obtain rfl := mem_unique hafter hm
  exact hlawful.capped n hcapped

theorem lawful_step_of_gone (hlawful : tally.Lawful cap id) (hissued : id < tally.db.jobs.nextKey)
    (hgone : tally.db.jobs.get? id = none) (move : RetryMove) :
    (tally.step d cap id move).Lawful cap id := by
  have hafter : (tally.step d cap id move).db.jobs.get? id = none :=
    (extends_step move).gone id hissued hgone
  have hcapped : (tally.step d cap id move).cappedAt = tally.cappedAt := by
    rcases tally.cappedAt_step move with hsame | ⟨-, hopen⟩
    · exact hsame
    · simp [hasOpenRow, hgone] at hopen
  refine ⟨fun row hget => absurd (hafter.symm.trans hget) (by simp), fun n hn => ?_⟩
  exact hlawful.capped n (hcapped ▸ hn)

theorem lawful_iff_of_get? (hget : tally.db.jobs.get? id = some row)
    (hfree : tally.cappedAt = none) :
    tally.Lawful cap id ↔ row.watchdogRetries = tally.failures := by
  constructor
  · exact fun hlawful => hlawful.counts row hget hfree
  · intro hcount
    refine ⟨fun other hother _ => ?_, fun n hn => absurd (hfree.symm.trans hn) (by simp)⟩
    rwa [← mem_unique hget hother]

section

variable (hlawful : tally.Lawful cap id) (hget : tally.db.jobs.get? id = some row)
  (hfree : tally.cappedAt = none)

include hlawful hget hfree

theorem lawful_queue_iff (op : QueueOp) :
    (tally.step d cap id (.queue op)).Lawful cap id ↔ FairFor cap id row (.queue op) := by
  have hcount := hlawful.counts row hget hfree
  by_cases hop : op = .requeueForRetry id
  · subst hop
    refine Iff.trans (lawful_iff_of_get? (get?_requeueForRetry hget) hfree) ?_
    change _ = tally.failures ↔ (_ → row.status ≠ .running)
    by_cases hrunning : row.status = .running
    · simp [hrunning, NodeJob.retry, hcount]
    · simp [hrunning, hcount]
  · refine iff_of_true ⟨fun next hnext _ => ?_, hlawful.capped⟩ fun heq => absurd heq hop
    exact (step_keepsRetries d tally.db hop hget hnext).trans hcount

theorem lawful_retry_iff (failure : BodyFailure) (hseen : seen < cap) :
    (tally.fail d cap id failure seen true).Lawful cap id ↔ row.status = .running := by
  have hcount := hlawful.counts row hget hfree
  have hfail : tally.fail d cap id failure seen true =
      { tally with
        db := (requeueJobForRetry id tally.db).1
        failures := tally.failures + 1 } := by
    simp [fail, hseen]
  rw [hfail]
  refine Iff.trans (lawful_iff_of_get? (get?_requeueForRetry hget) hfree) ?_
  by_cases hrunning : row.status = .running
  · simp [hrunning, NodeJob.retry, hcount]
  · simp [hrunning, hcount]

theorem lawful_giveUp_iff (failure : BodyFailure) (hseen : ¬ seen < cap) :
    (tally.fail d cap id failure seen true).Lawful cap id ↔
      row.status.Open ∧ row.watchdogRetries = cap := by
  have hcount := hlawful.counts row hget hfree
  by_cases hopen : row.status.Open
  · have hfail : tally.fail d cap id failure seen true =
        { db := (failure.giveUp id).step d tally.db
          failures := tally.failures + 1
          cappedAt := some (tally.failures + 1) } := by
      simp [fail, hseen, hfree, hasOpenRow, hget, hopen]
    rw [hfail]
    constructor
    · intro hafter
      have hlast := hafter.capped (tally.failures + 1) rfl
      exact ⟨hopen, by omega⟩
    · rintro ⟨-, hcap⟩
      refine ⟨fun _ _ hnone => absurd hnone (by simp), fun n hn => ?_⟩
      have hlast : tally.failures + 1 = n := Option.some.inj hn
      omega
  · have hfail : tally.fail d cap id failure seen true =
        { tally with
          db := (failure.giveUp id).step d tally.db
          failures := tally.failures + 1 } := by
      simp [fail, hseen, hfree, hasOpenRow, hget, hopen]
    rw [hfail]
    refine Iff.trans (lawful_iff_of_get? (failure.get?_giveUp_of_not_open hget hopen) hfree) ?_
    refine iff_of_false (fun hsame => ?_) fun hfair => hopen hfair.1
    have hless : row.watchdogRetries = tally.failures + 1 := hsame
    omega

end

theorem lawful_step_iff (hlawful : tally.Lawful cap id) (hissued : id < tally.db.jobs.nextKey)
    (move : RetryMove) :
    (tally.step d cap id move).Lawful cap id ↔ tally.Fair cap id move := by
  cases hget : tally.db.jobs.get? id with
  | none =>
    refine iff_of_true (lawful_step_of_gone hlawful hissued hget move) fun row hrow => ?_
    cases hget.symm.trans hrow
  | some row =>
    cases hcapped : tally.cappedAt with
    | some =>
      refine iff_of_true (lawful_step_of_capped hlawful hcapped move) fun _ _ hnone => ?_
      cases hcapped.symm.trans hnone
    | none =>
      have hfair : tally.Fair cap id move ↔ FairFor cap id row move := by
        unfold Fair
        simp [hget, hcapped]
      rw [hfair]
      cases move with
      | queue op => exact lawful_queue_iff hlawful hget hcapped op
      | bodyFailed failure seen landed =>
        change (tally.fail d cap id failure seen landed).Lawful cap id ↔ landed = true ∧ _
        cases landed with
        | false =>
          -- the failure happened and nobody counted it
          refine iff_of_false (fun hafter => ?_) fun hlanded => nomatch hlanded.1
          have hmissed : row.watchdogRetries = tally.failures + 1 :=
            hafter.counts row hget hcapped
          have hcount := hlawful.counts row hget hcapped
          omega
        | true =>
          rw [eq_self_iff_true, true_and]
          by_cases hseen : seen < cap
          · rw [if_pos hseen]
            exact lawful_retry_iff hlawful hget hcapped failure hseen
          · rw [if_neg hseen]
            exact lawful_giveUp_iff hlawful hget hcapped failure hseen

theorem run_concat (history : List RetryMove) (move : RetryMove) :
    tally.run d cap id (history ++ [move]) = (tally.run d cap id history).step d cap id move :=
  List.foldl_concat _ _ _ _

theorem issued_run (hissued : id < tally.db.jobs.nextKey) (history : List RetryMove) :
    id < (tally.run d cap id history).db.jobs.nextKey := by
  induction history using List.reverseRecOn with
  | nil => exact hissued
  | append_singleton history move ih =>
    rw [run_concat]
    exact ih.trans_le (extends_step move).nextKey_le

end Tally

end

/-! ### The statements of the sources -/

section

variable (d : Dialect) (cap : ℕ)

theorem watchdogTrip_eq_bodyFailed (readable : Bool) (id : JobId) (error : String) :
    watchdogTrip cap readable id error =
      (Prog.read (readRetries readable id) >>= fun seen => Prog.write fun db =>
        ((Tally.mk db 0 none).step d cap id (.bodyFailed (.watchdogTrip error) seen true)).db) := by
  unfold watchdogTrip
  congr 1
  funext seen
  by_cases hseen : seen < cap
  · simp [hseen, Tally.step, Tally.fail]
  · simp [hseen, Tally.step, Tally.fail, BodyFailure.giveUp, QueueOp.step]

theorem requeueForTransientGpu_eq_moves (job : HeldJob) (error : String) (seconds : ℚ) (db : Db) :
    ∃ rest, (rest = [] ∨ rest = [.queue (.finaliseFailed job error seconds)]) ∧
      (requeueForTransientGpu cap job error seconds db).1 =
        ((Tally.mk db 0 none).run d cap job.id
          (.bodyFailed (.gpuError job.row error seconds) job.row.watchdogRetries true ::
            rest)).db := by
  unfold requeueForTransientGpu
  by_cases hcap : cap ≤ job.row.watchdogRetries
  · refine ⟨[], Or.inl rfl, ?_⟩
    have hseen : ¬ job.row.watchdogRetries < cap := Nat.not_lt_of_le hcap
    simp [hcap, hseen, Tally.run, Tally.step, Tally.fail, BodyFailure.giveUp, QueueOp.step]
  · have hseen : job.row.watchdogRetries < cap := Nat.lt_of_not_le hcap
    rw [if_neg hcap]
    cases hresult : requeueJobForRetry job.id db with
    | mk after found =>
      cases found with
      | none =>
        refine ⟨_, Or.inr rfl, ?_⟩
        simp [hseen, hresult, Tally.run, Tally.step, Tally.fail, QueueOp.step]
      | some =>
        refine ⟨[], Or.inl rfl, ?_⟩
        simp [hseen, hresult, Tally.run, Tally.step, Tally.fail]

end

/-! ### Admission -/

def KeepsTables {α : Type} (prog : BoxProg α) : Prop :=
  prog.Moves fun box after => after.db = box.db

namespace KeepsTables

variable {α : Type} (cfg : GpuWorkerConfig)

theorem exec {run : GpuBox → GpuBox × α} (hrun : ∀ box, (run box).1.db = box.db) :
    KeepsTables (Prog.exec run) :=
  fun box => ⟨hrun box, trivial⟩

theorem readWorker (view : GpuWorker → α) : KeepsTables (readWorker cfg view) :=
  fun _ => ⟨rfl, trivial⟩

theorem writeWorker (set : GpuWorker → GpuWorker) : KeepsTables (writeWorker cfg set) :=
  fun _ => ⟨rfl, trivial⟩

theorem releaseLease (contended : Bool) : KeepsTables (releaseLease cfg contended) :=
  fun _ => ⟨rfl, trivial⟩

theorem abandonSwitch (env : AbandonEnv) : KeepsTables (abandonSwitch cfg env) := by
  apply (readWorker cfg _).bind
  intro state
  split
  · trivial
  · refine (exec fun _ => rfl).bind fun _ => ?_
    exact (releaseLease cfg _).bind fun _ => trivial

theorem beginClusterHold (job : JobId) (purpose : String) (env : AbandonEnv) :
    KeepsTables (beginClusterHold cfg job purpose env) :=
  (writeWorker cfg _).bind fun _ => (abandonSwitch cfg env).bind fun _ => trivial

theorem clusterHoldTick (job : JobId) (env : AbandonEnv) :
    KeepsTables (clusterHoldTick cfg job env) := by
  apply (readWorker cfg _).bind
  intro held
  split
  · exact (abandonSwitch cfg env).bind fun _ => trivial
  · trivial

theorem acquireFor (job : HeldJob) (contended : Bool) :
    KeepsTables (acquireFor cfg job contended) := by
  refine fun _ => ⟨rfl, exec fun box => ?_⟩
  unfold GpuBox.admitJob
  dsimp only
  split <;> rfl

theorem acquireBoxForReservation (job : HeldJob) (deadline : ℚ) (rounds : List ReservationRound) :
    KeepsTables (acquireBoxForReservation cfg job deadline rounds) := by
  induction rounds with
  | nil => trivial
  | cons round rest ih =>
    apply (acquireFor cfg job _).bind
    intro granted
    split
    · exact (writeWorker cfg _).bind fun _ => trivial
    split
    · trivial
    apply (clusterHoldTick cfg _ _).bind
    intro _
    split
    · trivial
    · exact ih

theorem safe {prog : BoxProg α} (hkeeps : KeepsTables prog) (hdb : box.db = db) :
    prog.Safe Nobody (fun _ _ => True) (onReturn fun _ after => after.db = db) box := by
  have hown : Stable (fun box after : GpuBox => after.db = box.db) (·.db = db) :=
    fun _ _ hsame hbefore => hsame.trans hbefore
  have hothers : Stable Nobody fun box : GpuBox => box.db = db :=
    fun _ _ hnobody => False.elim hnobody
  have hsafe := Safe.of_moves hkeeps (fun _ _ _ _ => trivial) hothers hown hdb
  refine hsafe.mono fun result after hafter => ?_
  cases result with
  | ok => exact hafter
  | error raised => exact raised.elim

end KeepsTables

section

variable (d : Dialect) (cfg : GpuWorkerConfig) (job : HeldJob)

def GivenBackUnless (db : Db) (admitted : Bool) (after : GpuBox) : Prop :=
  after.db = if admitted then db else (QueueOp.requeueForRetry job.id).step d db

variable {d job}

theorem givenBack_requeue (hdb : box.db = db) :
    (do
      let _ ← onDb (requeueJobForRetry job.id)
      return false : BoxProg Bool).Safe Nobody (fun _ _ => True)
        (onReturn (GivenBackUnless d job db)) box := by
  intro before hbefore
  refine ⟨trivial, fun after hafter => ?_⟩
  rw [eq_of_nobody hafter, eq_of_nobody hbefore, ← hdb]
  rfl

theorem acquireBoxOrSpill_givesBack (contended : Bool) (clock : ℚ) (box : GpuBox) :
    (acquireBoxOrSpill cfg job contended clock).Safe Nobody (fun _ _ => True)
      (onReturn (GivenBackUnless d job box.db)) box := by
  refine ((KeepsTables.acquireFor cfg job contended).safe rfl).andThen
    fun granted after hafter => ?_
  split
  · rename_i hgranted
    refine ((KeepsTables.writeWorker cfg _).safe hafter).map fun _ _ hdb => ?_
    exact hdb
  · exact ((KeepsTables.writeWorker cfg _).safe hafter).andThen fun _ _ hdb => givenBack_requeue hdb

theorem admitPoolNode_givesBack (env : NodeEnv) (box : GpuBox) :
    (admitPoolNode cfg job env).Safe Nobody (fun _ _ => True)
      (onReturn (GivenBackUnless d job box.db)) box := by
  unfold admitPoolNode
  split
  · refine ((KeepsTables.beginClusterHold cfg _ _ _).safe rfl).andThen fun _ held hheld => ?_
    refine ((KeepsTables.acquireBoxForReservation cfg job _ _).safe hheld).andThen
      fun granted after hafter => ?_
    split
    · intro last hlast
      rwa [eq_of_nobody hlast]
    · exact ((KeepsTables.writeWorker cfg _).safe hafter).andThen fun _ _ hdb =>
        givenBack_requeue hdb
  · exact acquireBoxOrSpill_givesBack cfg _ _ box

end

/-- The counter is the number of the body's failures, and the cap fails the job after the last
retry, exactly if every failure gets through and finds the row running, and nobody gives the running
row back as a retry. -/
theorem retries_count_failures_iff (d : Dialect) (cap : ℕ) (id : JobId) (db : Db) (row : NodeJob)
    (history : List RetryMove) (hget : db.jobs.get? id = some row)
    (hnew : row.watchdogRetries = 0) :
    (∀ before after, history = before ++ after →
        ((Tally.mk db 0 none).run d cap id before).Lawful cap id) ↔
      ∀ before move after, history = before ++ move :: after →
        ((Tally.mk db 0 none).run d cap id before).Fair cap id move := by
  have hissued : ∀ before, id < ((Tally.mk db 0 none).run d cap id before).db.jobs.nextKey :=
    Tally.issued_run (Table.lt_nextKey hget)
  constructor
  · intro hlawful before move after hsplit
    have hnext := hlawful (before ++ [move]) after (by rw [hsplit, List.append_assoc]; rfl)
    rw [Tally.run_concat] at hnext
    exact (Tally.lawful_step_iff (hlawful before _ hsplit) (hissued before) move).mp hnext
  · intro hfair before
    induction before using List.reverseRecOn with
    | nil =>
      intro after _
      exact (Tally.lawful_iff_of_get? hget rfl).mpr hnew
    | append_singleton before move ih =>
      intro after hsplit
      rw [List.append_assoc] at hsplit
      rw [Tally.run_concat]
      exact (Tally.lawful_step_iff (ih _ hsplit) (hissued before) move).mpr
        (hfair before move after hsplit)

def pairClaim : GpuClaim :=
  { host := some "box", maxRunning := some 2, servedTypes := ["ollama"],
    requireModel := some false }

/-- One retry: the first trip takes it, the second one fails the job. -/
theorem retries_count_failures_iff_trips :
    let start : Tally := { db := poolDb [poolRow "node" "ollama" none false] }
    let trip seen := RetryMove.bodyFailed (.watchdogTrip "stalled") seen true
    (start.run .pg 1 0 [.queue (.claimGpu pairClaim {}), trip 0, .queue (.claimGpu pairClaim {}),
      trip 1]).cappedAt = some 2 ∧
    ∀ before after, [.queue (.claimGpu pairClaim {}), trip 0, .queue (.claimGpu pairClaim {}),
        trip 1] = before ++ after →
      (start.run .pg 1 0 before).Lawful 1 0 := by
  intro start trip
  refine ⟨by decide +kernel, ?_⟩
  refine (retries_count_failures_iff .pg 1 0 start.db (poolRow "node" "ollama" none false) _ rfl
    rfl).mpr ?_
  have hfirst : ((start.run .pg 1 0 [.queue (.claimGpu pairClaim {})]).db.jobs.get? 0).all
      (fun row => row.status = .running) = true := by
    decide +kernel
  have hsecond : ((start.run .pg 1 0 [.queue (.claimGpu pairClaim {}), trip 0,
      .queue (.claimGpu pairClaim {})]).db.jobs.get? 0).all
      (fun row => row.status.Open ∧ row.watchdogRetries = 1) = true := by
    decide +kernel
  intro before move after hsplit row hget _
  simp only [List.cons_eq_append_iff, List.nil_eq_append_iff, List.cons.injEq] at hsplit
  rcases hsplit with ⟨rfl, rfl, -⟩ | ⟨_, rfl, ⟨rfl, rfl, -⟩ | ⟨_, rfl, ⟨rfl, rfl, -⟩ |
    ⟨_, rfl, ⟨rfl, rfl, -⟩ | ⟨_, rfl, -, hnil⟩⟩⟩⟩
  · exact fun hop => nomatch hop
  · rw [hget] at hfirst
    exact ⟨rfl, of_decide_eq_true hfirst⟩
  · exact fun hop => nomatch hop
  · rw [hget] at hsecond
    exact ⟨rfl, of_decide_eq_true hsecond⟩
  · cases hnil

/-- A job that was denied the card once has no retry left: the cap fails it at its first trip. -/
theorem spilled_job_failed_at_first_trip :
    let start : Tally := { db := poolDb [poolRow "node" "ollama" none false] }
    let spilled := start.run .pg 1 0 [.queue (.claimGpu pairClaim {}),
      .queue (.requeueForRetry 0), .queue (.claimGpu pairClaim {})]
    let tripped := spilled.step .pg 1 0
      (.bodyFailed (.watchdogTrip "stalled") (readRetries true 0 spilled.db) true)
    (spilled.db.jobs.get? 0).map NodeJob.watchdogRetries = some 1 ∧ spilled.failures = 0 ∧
      (tripped.db.jobs.get? 0).map NodeJob.status = some .failed ∧ tripped.cappedAt = some 1 ∧
        ¬ tripped.Lawful 1 0 := by
  intro start spilled tripped
  have hcapped : tripped.cappedAt = some 1 := by decide +kernel
  refine ⟨by decide +kernel, rfl, by decide +kernel, hcapped, fun hlawful => ?_⟩
  cases hlawful.capped 1 hcapped

end BrokerParrot
