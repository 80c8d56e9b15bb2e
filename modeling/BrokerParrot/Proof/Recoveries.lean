import BrokerParrot.OverClaim
import BrokerParrot.Proof.BoxSlots

/-!
# Taking claims back

The recoveries put a running row back on the queue when its run is running and cancel it otherwise,
while the claim takes rows of every run that is not cancelled or failed.

The reaper judges the rows of one transaction and re-queues them in later ones, by their status
alone. What it takes is the claim it saw as long as nobody claims the row anew in between. A worker
that stays within its budget is judged by the capacity it advertises, and its model cache advertises
one slot whatever the budget is.
-/

namespace BrokerParrot

open Prog Relation Option

variable {db : Db} {id : JobId} {row : NodeJob} {d : Dialect} {op : QueueOp} {queue : Queue}
  {seen : RunningRow}

/-! ### Recoveries and the claim -/

inductive Recovery where
  | expiredLeases
  | leaseFrozen (id : JobId) (expected : ℚ)
  | overClaimed (id : JobId)

namespace Recovery

def run : Recovery → Db → Db
  | expiredLeases, db => reclaimExpiredLeases db
  | leaseFrozen id expected, db => requeueRunningIfLeaseFrozen id expected db
  | overClaimed id, db => requeueOverClaimedRunning id db

def Selects (db : Db) (id : JobId) (row : NodeJob) : Recovery → Prop
  | expiredLeases => ∃ lease ∈ row.leaseExpiresAt, lease < db.now
  | leaseFrozen target expected => id = target ∧ row.leaseExpiresAt = some expected
  | overClaimed target => id = target

end Recovery

def Db.Active (db : Db) (runId : String) : Prop :=
  runClaimable db runId = true ∧ db.runStatus? runId ≠ some .completed

section

variable {parent : RunStatus}

theorem get?_recoverWhere {selects : JobId → NodeJob → Bool} (hget : db.jobs.get? id = some row)
    (hrunning : row.status = .running) (hparent : db.runStatus? row.runId = some parent)
    (hselects : selects id row = true) :
    (db.recoverWhere selects).jobs.get? id = some (row.recover (parent = .running) db.now) := by
  unfold Db.recoverWhere Db.updateJobs
  rw [Table.get?_update, hget]
  simp only [map_some, hparent, hrunning, hselects, and_self, if_true]

theorem Recovery.get?_run (recovery : Recovery) (hget : db.jobs.get? id = some row)
    (hrunning : row.status = .running) (hparent : db.runStatus? row.runId = some parent)
    (hselects : recovery.Selects db id row) :
    (recovery.run db).jobs.get? id = some (row.recover (parent = .running) db.now) := by
  cases recovery with
  | expiredLeases =>
    obtain ⟨lease, hlease, hexpired⟩ := hselects
    refine get?_recoverWhere hget hrunning hparent ?_
    rw [mem_def.mp hlease]
    exact decide_eq_true hexpired
  | leaseFrozen | overClaimed =>
    exact get?_recoverWhere hget hrunning hparent (decide_eq_true hselects)

theorem active_iff (hparent : db.runStatus? row.runId = some parent) :
    db.Active row.runId ↔ ¬ parent.Terminal := by
  unfold Db.Active runClaimable RunStatus.Terminal
  rw [hparent]
  cases parent <;> simp

end

/-- A recovery re-queues a running row exactly when the claim would still take it, and cancels it
otherwise, if and only if the parent run is running or finished. -/
theorem recovery_agrees_iff (recovery : Recovery) (db : Db) (id : JobId) (row : NodeJob)
    (parent : RunStatus) (hget : db.jobs.get? id = some row) (hrunning : row.status = .running)
    (hparent : db.runStatus? row.runId = some parent) (hselects : recovery.Selects db id row) :
    (∃ after, (recovery.run db).jobs.get? id = some after ∧
        (after.status = .queued ↔ db.Active row.runId) ∧
        (¬ db.Active row.runId → after.status = .cancelled)) ↔
      parent = .running ∨ parent.Terminal := by
  rw [recovery.get?_run hget hrunning hparent hselects]
  simp only [Option.some.injEq, exists_eq_left', active_iff hparent]
  by_cases hactive : parent = .running
  · subst hactive
    simp [NodeJob.recover, NodeJob.requeue, RunStatus.Terminal]
  · have hcancelled : (row.recover (parent = .running) db.now).status = .cancelled := by
      simp [NodeJob.recover, hactive]
    rw [hcancelled]
    simp [hactive]

def expandedDb (status : RunStatus) : Db where
  jobs := Table.ofRows
    [{ runId := "r", nodeId := "n", nodeModule := "m", queue := .cpu, project := "",
       status := .running, claimedBy := some "box", leaseExpiresAt := some 5, createdAt := 0 }]
  runs := OrdDict.empty.insert "r" { workflowName := "w", status := status }
  now := 10

theorem recovery_agrees_iff_running :
    ∃ row, (expandedDb .running).jobs.get? 0 = some row ∧
      ∃ after, (Recovery.expiredLeases.run (expandedDb .running)).jobs.get? 0 = some after ∧
        (after.status = .queued ↔ (expandedDb .running).Active row.runId) ∧
        (¬ (expandedDb .running).Active row.runId → after.status = .cancelled) := by
  refine ⟨_, rfl, (recovery_agrees_iff .expiredLeases (expandedDb .running) 0 _ .running rfl rfl
    rfl ⟨5, rfl, by decide +kernel⟩).mpr (Or.inl rfl)⟩

/-- The claim takes rows of a queued run, and each recovery cancels one that a worker lost. -/
theorem queued_run_loses_row :
    runClaimable (expandedDb .queued) "r" = true ∧
      [Recovery.expiredLeases, .leaseFrozen 0 5, .overClaimed 0].map (fun recovery =>
        ((recovery.run (expandedDb .queued)).jobs.get? 0).map NodeJob.status) =
        [some .cancelled, some .cancelled, some .cancelled] := by
  decide +kernel

/-! ### The claim the reaper saw -/

def Db.RunsAt (db : Db) (id : JobId) : Prop :=
  ∃ row, db.jobs.get? id = some row ∧ row.status = .running

def NotClaiming (d : Dialect) (id : JobId) (db after : Db) : Prop :=
  ∃ op : QueueOp, after = op.step d db ∧ (after.RunsAt id → db.RunsAt id)

theorem claim_step {after : NodeJob} (hget : db.jobs.get? id = some row)
    (hrunning : row.status = .running) (hafter : (op.step d db).jobs.get? id = some after)
    (hstill : after.status = .running) :
    after.claimedBy = row.claimedBy ∧ after.startedAt = row.startedAt := by
  have hstep := step_row d db op id
  rw [hget, hafter] at hstep
  cases hstep with
  | same => exact ⟨rfl, rfl⟩
  | take _ _ hqueued | cancel hqueued => cases hqueued.symm.trans hrunning
  | leave _ hleft =>
    rcases hleft with hleft | hleft <;> exact absurd (hleft.symm.trans hstill) (by decide)
  | finish hmarks => exact absurd hstill (QueueOp.marks_ne_running hmarks)
  | edit _ hclaim _ _ _ hstarted => exact ⟨hclaim, hstarted⟩

def SeenClaim (seen : RunningRow) (db : Db) : Prop :=
  ∀ row, db.jobs.get? seen.id = some row → row.status = .running →
    row.claimedBy = some seen.claimedBy ∧ row.startedAt = seen.startedAt ∧
      row.project = seen.project

theorem stable_seenClaim (d : Dialect) (seen : RunningRow) :
    Stable (NotClaiming d seen.id) (SeenClaim seen) := by
  rintro db _ ⟨op, rfl, hclaims⟩ hseen after hafter hstill
  obtain ⟨row, hget, hrunning⟩ := hclaims ⟨after, hafter, hstill⟩
  obtain ⟨hclaim, hstarted⟩ := claim_step hget hrunning hafter hstill
  rw [hclaim, hstarted, (step_sameCell hget hafter).project]
  exact hseen row hget hrunning

theorem notClaiming_requeue (d : Dialect) (victim id : JobId) (db : Db) :
    NotClaiming d id db (requeueOverClaimedRunning victim db) := by
  refine ⟨.requeueOverClaimed victim, rfl, ?_⟩
  rintro ⟨after, hafter, hstill⟩
  rcases get?_requeueOverClaimedRunning victim id db with
    hsame | ⟨row, parent, -, -, -, hnew⟩
  · exact ⟨after, hsame ▸ hafter, hstill⟩
  · rw [hnew] at hafter
    cases hafter
    exact absurd hstill (NodeJob.recover_not_running parent db.now row)

theorem mem_runningRows (hmem : seen ∈ runningRows queue db) :
    ∃ row, db.jobs.get? seen.id = some row ∧
      row.status = .running ∧ row.claimedBy = some seen.claimedBy ∧
      row.startedAt = seen.startedAt ∧ row.project = seen.project := by
  obtain ⟨key, hseen⟩ := Table.mem_collect.mp hmem
  obtain ⟨row, hget, hview⟩ := bind_eq_some_iff.mp hseen
  unfold runningRow at hview
  split at hview
  · rename_i host hclaim
    split_ifs at hview with hruns
    cases hview
    exact ⟨row, hget, hruns.1, hclaim, rfl, rfl⟩
  · cases hview

theorem seenClaim_of_mem (hmem : seen ∈ runningRows queue db) : SeenClaim seen db := by
  obtain ⟨row, hget, -, hclaim⟩ := mem_runningRows hmem
  intro other hother _
  obtain rfl := mem_unique hget hother
  exact hclaim

/-! ### The reaper's statements -/

def Requeues (victims : List JobId) (db after : Db) : Prop :=
  ∃ victim ∈ victims, after = requeueOverClaimedRunning victim db

theorem requeueVictims_moves (victims : List JobId) :
    (requeueVictims victims).Moves (Requeues victims) := by
  suffices hsub : ∀ rest ⊆ victims, (requeueVictims rest).Moves (Requeues victims) from
    hsub victims (List.Subset.refl victims)
  intro rest hrest
  induction rest with
  | nil => trivial
  | cons victim rest ih =>
    obtain ⟨hvictim, hothers⟩ := List.cons_subset.mp hrest
    exact (Moves.exec fun db => ⟨victim, hvictim, rfl⟩).bind fun hit =>
      (ih hothers).bind fun reaped => trivial

theorem reaper_acts {snap mid after : Db} (hsteps : ReflTransGen (NotClaiming d id) snap mid)
    (hacts : Acts (NotClaiming d id)
      (requeueVictims (overClaimVictims (runningRows queue snap) (advertisedConcurrency queue mid)))
      mid db after) (hget : db.jobs.get? id = some row) (hrunning : row.status = .running)
    (htaken : after.jobs.get? id ≠ some row) :
    ∃ seen ∈ runningRows queue snap, seen.id = id ∧ row.claimedBy = some seen.claimedBy ∧
      row.startedAt = seen.startedAt ∧ row.project = seen.project ∧
      ∃ cap, advertisedConcurrency queue mid seen.claimedBy seen.project = some cap ∧
        cap < (boxMembers (runningRows queue snap) (seen.claimedBy, seen.project)).length := by
  let fact (db : Db) : Prop := ∀ seen ∈ runningRows queue snap, seen.id = id → SeenClaim seen db
  have hstable : Stable (NotClaiming d id) fact := by
    rintro s t hmove hfact seen hmem rfl
    exact stable_seenClaim d seen s t hmove (hfact seen hmem rfl)
  have hfact : fact mid := hstable.steps hsteps fun seen hmem _ => seenClaim_of_mem hmem
  have hown (victims : List JobId) : Stable (Requeues victims) fact := by
    rintro s _ ⟨victim, -, rfl⟩ hs
    exact hstable s _ (notClaiming_requeue d victim id s) hs
  obtain ⟨hthen, victim, hvictim, rfl⟩ :=
    (Safe.of_moves (G := fun s t => fact s ∧ Requeues _ s t) (requeueVictims_moves _)
      (fun _ _ hs hmove => ⟨hs, hmove⟩) hstable (hown _) hfact).of_acts hacts
  rcases get?_requeueOverClaimedRunning victim id db with hsame | ⟨_, _, rfl, -⟩
  · exact absurd (hsame.trans hget) htaken
  · obtain ⟨seen, hmem, hid, hover⟩ := mem_overClaimVictims hvictim
    obtain ⟨hclaim, hstarted, hproject⟩ := hthen seen hmem hid row (hid ▸ hget) hrunning
    exact ⟨seen, hmem, hid, hclaim, hstarted, hproject, hover⟩

/-- A row the reaper takes is still held as in its snapshot, if nobody claims it anew in between. -/
theorem reaper_acts_on_seen_claim (d : Dialect) (queue : Queue) (id : JobId) (snap db after : Db)
    (hacts : Prog.Acts (NotClaiming d id) ((reapOverClaimed queue).advance snap).2 snap db after)
    (row : NodeJob) (hget : db.jobs.get? id = some row) (hrunning : row.status = .running)
    (htaken : after.jobs.get? id ≠ some row) :
    ∃ seen ∈ runningRows queue snap, seen.id = id ∧ row.claimedBy = some seen.claimedBy ∧
      row.startedAt = seen.startedAt := by
  cases hacts with
  | now => exact absurd hget htaken
  | later hsteps hrest =>
    obtain ⟨seen, hmem, hid, hclaim, hstarted, -⟩ :=
      reaper_acts hsteps hrest hget hrunning htaken
    exact ⟨seen, hmem, hid, hclaim, hstarted⟩

def OldestFirst (rows : List RunningRow) : Prop :=
  rows.Pairwise fun left right =>
    ¬ victimKey (liveFloor rows 30) right < victimKey (liveFloor rows 30) left

instance (rows : List RunningRow) : Decidable (OldestFirst rows) :=
  inferInstanceAs (Decidable (List.Pairwise _ _))

theorem overClaimVictims_of_oldestFirst {rows : List RunningRow}
    {capacity : String → String → Option ℤ}
    (hsorted : ∀ group ∈ (boxGroups rows).entries, OldestFirst group.2) :
    overClaimVictims rows capacity = (boxGroups rows).entries.flatMap fun group =>
      (capacity group.1.1 group.1.2).elim [] fun cap =>
        if (group.2.length : ℤ) ≤ cap then [] else (group.2.drop cap.toNat).map RunningRow.id := by
  refine List.flatMap_congr fun group hgroup => ?_
  cases capacity group.1.1 group.1.2 with
  | none => rfl
  | some =>
    have horder : (group.2.mergeSort fun left right => ¬ victimKey (liveFloor group.2 30) right <
        victimKey (liveFloor group.2 30) left) = group.2 :=
      List.mergeSort_of_pairwise (by simpa [OldestFirst] using hsorted group hgroup)
    simp only [pickOverClaimVictims, elim_some]
    rw [horder]

def crowdedDb : Db :=
  let row (node : String) : NodeJob :=
    { runId := "r", nodeId := node, nodeModule := "m", queue := .gpu, project := "",
      status := .queued, createdAt := 0 }
  let held (node : String) (started : ℚ) : NodeJob :=
    { row node with status := .running, claimedBy := some "a", startedAt := some started }
  { jobs := Table.ofRows [held "n0" 1, held "n1" 2, row "n2", row "n3"]
    runs := OrdDict.empty.insert "r" { workflowName := "w", status := .running }
    heartbeats := OrdDict.empty.insert ⟨"a", .gpu, ""⟩ ⟨1, 3⟩
    now := 3 }

theorem crowded_victims :
    overClaimVictims (runningRows .gpu crowdedDb) (advertisedConcurrency .gpu crowdedDb) = [1] := by
  rw [overClaimVictims_of_oldestFirst (by decide +kernel)]
  decide +kernel

theorem reaper_acts_on_seen_claim_crowded :
    ∃ row, crowdedDb.jobs.get? 1 = some row ∧ ∃ seen ∈ runningRows .gpu crowdedDb,
      seen.id = 1 ∧ row.claimedBy = some seen.claimedBy ∧ row.startedAt = seen.startedAt := by
  have hqueued : ((requeueOverClaimedRunning 1 crowdedDb).jobs.get? 1).map NodeJob.status =
      some .queued := by decide +kernel
  refine ⟨_, rfl, reaper_acts_on_seen_claim .sqlite .gpu 1 crowdedDb crowdedDb
    (requeueOverClaimedRunning 1 crowdedDb) (.later ReflTransGen.refl ?_) _ rfl rfl ?_⟩
  · change Acts _ (requeueVictims (overClaimVictims _ _)) _ _ _
    rw [crowded_victims]
    exact .now ReflTransGen.refl
  · intro hsame
    rw [hsame] at hqueued
    exact absurd hqueued (by decide +kernel)

/-- The box hands its rows back and another one takes them, all between the reads and the first
write: the reaper takes the row from a box it never judged. -/
theorem reaper_takes_new_claim :
    let rest := (((reapOverClaimed .gpu).advance crowdedDb).2.advance crowdedDb).2
    let args : GpuClaim :=
      { host := some "b", kindCaps := some (OrdDict.empty.insert "ollama" 4) }
    let db := QueueOp.run .sqlite crowdedDb
      [.requeueForWorker ⟨"a", .gpu, ""⟩, .claimGpu args {}, .claimGpu args {}]
    (runningRows .gpu crowdedDb).map RunningRow.claimedBy = ["a", "a"] ∧
      (db.jobs.get? 1).map NodeJob.claimedBy = some (some "b") ∧
      (db.jobs.get? 1).map NodeJob.status = some .running ∧
      ((rest.advance db).1.jobs.get? 1).map NodeJob.status = some .queued := by
  intro rest args db
  have hrest : rest = requeueVictims [1] := congrArg requeueVictims crowded_victims
  rw [hrest]
  decide +kernel

theorem left_reapOverClaimed (queue : Queue) (db : Db) :
    (reapOverClaimed queue).left db = reapOverClaimedBoxes queue db := by
  have hvictims (victims : List JobId) (db : Db) :
      (requeueVictims victims).left db = recoverAll victims db := by
    induction victims generalizing db with
    | nil => rfl
    | cons victim rest ih =>
      change (requeueVictims rest >>= fun reaped => _).left _ = _
      rw [left_bind_pure]
      exact ih (requeueOverClaimedRunning victim db)
  exact hvictims _ db

/-! ### A worker within its budget -/

section

variable {host project : String} {slots : ℤ}

def QueueOp.Advertises (host project : String) (slots : ℤ) (op : QueueOp) : Prop :=
  ∀ concurrency, op = .heartbeat ⟨host, .gpu, project⟩ concurrency →
    op = beat host project slots ∨ op = publishCurrentModel host project

def Advertised (host project : String) (slots : ℤ) (db : Db) : Prop :=
  ∀ cap, advertisedConcurrency .gpu db host project = some cap → cap = slots ∨ cap = 1

theorem advertised_step (hslots : 1 ≤ slots) (hop : op.Advertises host project slots)
    (hdb : Advertised host project slots db) : Advertised host project slots (op.step d db) := by
  by_cases hbeat : ∃ worker concurrency, op = .heartbeat worker concurrency
  · obtain ⟨worker, concurrency, rfl⟩ := hbeat
    intro cap hcap
    change ((db.heartbeats.insert worker ⟨concurrency, db.now⟩).get? _).map _ = _ at hcap
    by_cases hworker : worker = ⟨host, .gpu, project⟩
    · subst hworker
      rw [OrdDict.get?_insert_self] at hcap
      have hcap : concurrency = cap := Option.some.inj hcap
      rcases hop concurrency rfl with hown | hcache
      · have hwritten : concurrency = max 1 slots := (QueueOp.heartbeat.inj hown).2
        exact Or.inl (by omega)
      · have hwritten : concurrency = 1 := (QueueOp.heartbeat.inj hcache).2
        exact Or.inr (by omega)
    · rw [OrdDict.get?_insert_of_ne _ _ (Ne.symm hworker)] at hcap
      exact hdb cap hcap
  · have hsame := step_heartbeats d db fun worker concurrency heq =>
      hbeat ⟨worker, concurrency, heq⟩
    unfold Advertised advertisedConcurrency
    rwa [hsame]

def QuietMove (d : Dialect) (host project : String) (slots : ℤ) (id : JobId) (db after : Db) :
    Prop :=
  ∃ op : QueueOp, after = op.step d db ∧ op.Advertises host project slots ∧
    (after.RunsAt id → db.RunsAt id)

theorem QuietMove.notClaiming {after : Db} (hmove : QuietMove d host project slots id db after) :
    NotClaiming d id db after := by
  obtain ⟨op, hafter, -, hclaims⟩ := hmove
  exact ⟨op, hafter, hclaims⟩

end

/-- The reaper takes no row of a worker within its budget, unless it reads the single slot of the
model cache while the worker runs several rows. -/
theorem reaper_spares_admitted (d : Dialect) (host project : String) (hhost : host ≠ "")
    (slots : ℤ) (hslots : 1 ≤ slots) (start : Db)
    (hidle : runningHere start (some host) project = [])
    (hsilent : advertisedConcurrency .gpu start host project = none) (history : List QueueOp)
    (hclaims : ∀ op ∈ history, op.WithBudget host project slots)
    (hbeats : ∀ op ∈ history, op.Advertises host project slots) (id : JobId) (mid : Db)
    (hsteps : Relation.ReflTransGen (QuietMove d host project slots id)
      (QueueOp.run d start history) mid)
    (hcache : advertisedConcurrency .gpu mid host project = some 1 →
      (runningHere (QueueOp.run d start history) (some host) project).length ≤ 1)
    (db after : Db)
    (hacts : Prog.Acts (NotClaiming d id)
      (((reapOverClaimed .gpu).advance (QueueOp.run d start history)).2.advance mid).2 mid db after)
    (row : NodeJob) (hget : db.jobs.get? id = some row)
    (hhere : RunningHere (some host) project row) :
    after.jobs.get? id = some row := by
  by_contra htaken
  obtain ⟨hrunning, -, hclaimed, hproject⟩ := runningHere_iff.mp hhere
  have hquiet : ReflTransGen (NotClaiming d id) (QueueOp.run d start history) mid :=
    hsteps.lift _ fun _ _ hmove => QuietMove.notClaiming hmove
  obtain ⟨seen, -, -, hseen, -, hseenProject, cap, hcap, hover⟩ :=
    reaper_acts hquiet hacts hget hrunning htaken
  obtain rfl : host = seen.claimedBy := mem_unique hclaimed hseen
  obtain rfl : project = seen.project := hproject.symm.trans hseenProject
  rw [length_boxMembers] at hover
  have hadvertised : Advertised seen.claimedBy seen.project slots mid := by
    have hsnap : Advertised seen.claimedBy seen.project slots (QueueOp.run d start history) := by
      refine QueueOp.run_invariant _ ?_ fun db op hmem hdb =>
        advertised_step hslots (hbeats op hmem) hdb
      intro cap hcap
      rw [hsilent] at hcap
      cases hcap
    refine Stable.steps ?_ hsteps hsnap
    rintro s _ ⟨op, rfl, hop, -⟩ hs
    exact advertised_step hslots hop hs
  rcases hadvertised cap hcap with rfl | rfl
  · have hweight := runningWeight_run (d := d) hhost hslots hidle hclaims
    have hlength := (length_runningHere_le hslots).trans hweight
    omega
  · have hone := hcache hcap
    omega

def twoSlots : List QueueOp :=
  let args : GpuClaim :=
    { host := some "box", maxRunning := some 2,
      kindCaps := some (OrdDict.empty.insert "ollama" 4) }
  [.claimGpu args {}, .claimGpu args {}, beat "box" "" 2]

theorem reaper_spares_admitted_two :
    let snap := QueueOp.run .sqlite crowdedDb twoSlots
    (runningHere snap (some "box") "").length = 2 ∧
      ∃ row, snap.jobs.get? 2 = some row ∧
        (requeueOverClaimedRunning 1 snap).jobs.get? 2 = some row := by
  intro snap
  have hvictims : overClaimVictims (runningRows .gpu snap) (advertisedConcurrency .gpu snap) =
      [1] := by
    rw [overClaimVictims_of_oldestFirst (by decide +kernel)]
    decide +kernel
  have hhere : (snap.jobs.get? 2).any (fun row => RunningHere (some "box") "" row) = true := by
    decide +kernel
  obtain ⟨row, hget, hrow⟩ := (any_eq_true _ _).mp hhere
  refine ⟨by decide +kernel, row, hget, ?_⟩
  refine reaper_spares_admitted .sqlite "box" "" (by decide) 2 (by decide) crowdedDb
    (by decide +kernel) (by decide +kernel) twoSlots ?_ ?_ 2 snap ReflTransGen.refl
    (by decide +kernel) snap _ ?_ row hget (of_decide_eq_true hrow)
  · simp [QueueOp.WithBudget, twoSlots, beat]
  · simp [QueueOp.Advertises, twoSlots, beat]
  · change Acts _ (requeueVictims (overClaimVictims _ _)) _ _ _
    rw [hvictims]
    exact .now ReflTransGen.refl

/-- The model cache announces the model it loaded, and with it one slot. The next sweep takes a row
of a worker that runs no more than it may. -/
theorem cache_publish_exposes_row :
    let snap := QueueOp.run .sqlite crowdedDb (twoSlots ++ [publishCurrentModel "box" ""])
    (runningHere snap (some "box") "").length = 2 ∧
      (snap.jobs.get? 3).map NodeJob.status = some .running ∧
      (snap.jobs.get? 3).map NodeJob.claimedBy = some (some "box") ∧
      (((reapOverClaimed .gpu).left snap).jobs.get? 3).map NodeJob.status = some .queued := by
  intro snap
  have hvictims : overClaimVictims (runningRows .gpu snap) (advertisedConcurrency .gpu snap) =
      [1, 3] := by
    rw [overClaimVictims_of_oldestFirst (by decide +kernel)]
    decide +kernel
  rw [left_reapOverClaimed, reapOverClaimedBoxes, hvictims]
  decide +kernel

end BrokerParrot
