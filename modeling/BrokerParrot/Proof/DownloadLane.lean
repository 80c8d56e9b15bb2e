import BrokerParrot.Proof.Occupancy
import BrokerParrot.Proof.TenantIsolation

/-!
# The width of the download lane

At most so many downloads of a project run at a time, on all its hosts together. The claim counts
what runs in its own statement. On PostgreSQL another claim could count at the same moment, so a
claim first takes a lock that is keyed by the queue and the project, and counts in a snapshot taken
after it has the lock; everything but a claim of the lane may happen in between.
-/

namespace BrokerParrot

variable {d : Dialect} {project : String} {args : DownloadClaim} {op : QueueOp} {id : JobId}
  {env : ClaimEnv} {seen : Db}

/-! ### Claims with a lock -/

structure LaneTxn where
  args : DownloadClaim
  env : ClaimEnv
  snapshot : Option Db := none

structure Lane where
  db : Db
  held : String → Option LaneTxn
  keyed : ∀ project txn, held project = some txn → txn.args.project = project

inductive LaneMove where
  | enter (args : DownloadClaim) (env : ClaimEnv)
  | look (project : String)
  | commit (project : String)
  | other (op : QueueOp)

variable {after : Lane}

namespace Lane

def ofDb (db : Db) : Lane := ⟨db, fun _ => none, fun _ _ hheld => nomatch hheld⟩

def hold (lane : Lane) (txn : LaneTxn) : Lane where
  db := lane.db
  held := Function.update lane.held txn.args.project (some txn)
  keyed := fun project holder hheld => by
    by_cases heq : project = txn.args.project
    · rw [heq, Function.update_self] at hheld
      rw [heq, ← Option.some.inj hheld]
    · rw [Function.update_of_ne heq] at hheld
      exact lane.keyed project holder hheld

@[simp]
theorem held_hold (lane : Lane) (txn : LaneTxn) :
    (lane.hold txn).held txn.args.project = some txn :=
  Function.update_self _ _ _

def release (lane : Lane) (released : String) : Lane where
  db := lane.db
  held := Function.update lane.held released none
  keyed := fun project holder hheld => by
    by_cases heq : project = released
    · rw [heq, Function.update_self] at hheld
      exact nomatch hheld
    · rw [Function.update_of_ne heq] at hheld
      exact lane.keyed project holder hheld

/-- A row that somebody else has changed since is judged again as it stands now. -/
def stamp (d : Dialect) (args : DownloadClaim) (now : ℚ) (row : NodeJob) : NodeJob :=
  if row.status = .queued ∧ row.queue = .download ∧ row.project = args.project then
    (args.sql d).take now row
  else
    row

def finish (d : Dialect) (db : Db) (args : DownloadClaim) (env : ClaimEnv) (seen : Db) : Db :=
  match (args.sql d).pick d env seen with
  | none => db
  | some (id, _) => { db with jobs := db.jobs.modify id (stamp d args db.now) }

def blocked (lane : Lane) : QueueOp → Bool
  | .claimDownload args _ => (lane.held args.project).isSome
  | _ => false

def enter (lane : Lane) (args : DownloadClaim) (env : ClaimEnv) : Lane :=
  match lane.held args.project with
  | none => lane.hold { args, env }
  | some _ => lane

def look (lane : Lane) (project : String) : Lane :=
  match lane.held project with
  | some ⟨args, env, none⟩ => lane.hold ⟨args, env, some lane.db⟩
  | _ => lane

def commit (d : Dialect) (lane : Lane) (project : String) : Lane :=
  match lane.held project with
  | some ⟨args, env, some seen⟩ =>
    { lane.release project with db := finish d lane.db args env seen }
  | _ => lane

def step (d : Dialect) (lane : Lane) : LaneMove → Lane
  | .enter args env => lane.enter args env
  | .look project => lane.look project
  | .commit project => lane.commit d project
  | .other op => if lane.blocked op then lane else { lane with db := op.step d lane.db }

def run (d : Dialect) (lane : Lane) (moves : List LaneMove) : Lane := moves.foldl (step d) lane

end Lane

/-! ### What runs in the lane -/

section

variable {db : Db} {item : JobId} {row : NodeJob}

def downloading (project : String) (id : JobId) (row : NodeJob) : Option JobId :=
  if row.status = .running ∧ row.queue = .download ∧ row.project = project then some id else none

theorem downloading_eq_some :
    downloading project id row = some item ↔
      (row.status = .running ∧ row.queue = .download ∧ row.project = project) ∧ id = item := by
  unfold downloading
  split <;> simp [*]

def QueueOp.ClaimsDownload (project : String) (op : QueueOp) : Prop :=
  ∃ args env, op = .claimDownload args env ∧ args.project = project

theorem RowStep.downloading_of_after {before after : Option NodeJob}
    (hstep : RowStep d op id before after) (hclaim : ¬ op.ClaimsDownload project)
    (hitem : after.bind (downloading project id) = some item) :
    before.bind (downloading project id) = some item := by
  obtain ⟨shown, rfl, hshown⟩ := Option.bind_eq_some_iff.mp hitem
  obtain ⟨⟨hrunning, hdownload, htag⟩, hid⟩ := downloading_eq_some.mp hshown
  rcases hstep.running_cases hrunning with
    ⟨row, rfl, hbefore, -, -, -, hcell⟩ | ⟨sql, hsql, hqueue, hproject, -⟩
  · refine downloading_eq_some.mpr ⟨⟨hbefore, ?_, ?_⟩, hid⟩
    · exact hcell.queue ▸ hdownload
    · exact hcell.project ▸ htag
  · refine absurd ?_ hclaim
    -- the queue of the row tells which of the three claims took it
    cases op <;> simp only [QueueOp.claimSql, Option.some.injEq, reduceCtorEq] at hsql
    case claimCpu args env =>
      subst hsql
      cases hqueue.symm.trans hdownload
    case claimGpu args env =>
      subst hsql
      cases hqueue.symm.trans hdownload
    case claimDownload args env =>
      subst hsql
      exact ⟨args, env, rfl, hproject.symm.trans htag⟩

theorem length_runningDownloads_step (hclaim : ¬ op.ClaimsDownload project) :
    (runningDownloads (op.step d db) project).length ≤ (runningDownloads db project).length := by
  have hsub : (runningDownloads (op.step d db) project).Subperm (runningDownloads db project) :=
    Table.collect_subperm fun id _ hitem =>
      (step_row d db op id).downloading_of_after hclaim hitem
  exact hsub.length_le

theorem seen_downloading {table : Table NodeJob} {key : JobId}
    (hseen : table.seen (downloading project) key = some item) : key = item := by
  obtain ⟨row, -, hshown⟩ := Option.bind_eq_some_iff.mp hseen
  exact (downloading_eq_some.mp hshown).2

theorem length_runningDownloads_modify {after : Db} (id : JobId) {rewrite : NodeJob → NodeJob}
    (hafter : after.jobs = db.jobs.modify id rewrite) :
    (runningDownloads after project).length ≤ (runningDownloads db project).length + 1 := by
  have hothers (other : JobId) (hne : other ≠ id) :
      after.jobs.seen (downloading project) other = db.jobs.seen (downloading project) other := by
    unfold Table.seen
    rw [hafter, Table.get?_modify_of_ne _ _ hne]
  by_cases hadds : db.jobs.seen (downloading project) id = none ∧
      after.jobs.seen (downloading project) id = some id
  · exact (Table.collect_perm_cons id hadds.1 hadds.2 hothers).length_eq.le
  · have hsub : (after.jobs.collect (downloading project)).Subperm
        (db.jobs.collect (downloading project)) := by
      refine Table.collect_subperm fun key item hitem => ?_
      by_cases hkey : key = id
      · subst hkey
        obtain rfl := seen_downloading hitem
        cases hbefore : db.jobs.seen (downloading project) key with
        | none => exact absurd ⟨hbefore, hitem⟩ hadds
        | some => rw [seen_downloading hbefore]
      · rwa [← hothers key hkey]
    exact Nat.le_succ_of_le hsub.length_le

theorem Lane.finish_cases (d : Dialect) (db : Db) (args : DownloadClaim) (env : ClaimEnv)
    (seen : Db) :
    Lane.finish d db args env seen = db ∨
      ∃ id row, (args.sql d).pick d env seen = some (id, row) ∧
        (Lane.finish d db args env seen).jobs =
          db.jobs.modify id (Lane.stamp d args db.now) := by
  unfold finish
  cases (args.sql d).pick d env seen with
  | none => exact Or.inl rfl
  | some entry => exact Or.inr ⟨entry.1, entry.2, rfl, rfl⟩

theorem length_runningDownloads_finish (hother : args.project ≠ project) :
    (runningDownloads (Lane.finish d db args env seen) project).length ≤
      (runningDownloads db project).length := by
  rcases Lane.finish_cases d db args env seen with hnone | ⟨id, row, -, hjobs⟩
  · rw [hnone]
  · refine List.Subperm.length_le (Table.collect_subperm fun key item hitem => ?_)
    rw [hjobs] at hitem
    by_cases hkey : key = id
    · subst hkey
      unfold Table.seen at hitem ⊢
      rw [Table.get?_modify_self] at hitem
      cases hget : db.jobs.get? key with
      | none => simp [hget] at hitem
      | some row =>
        rw [hget, Option.map_some, Option.bind_some] at hitem
        have hstamped := (downloading_eq_some.mp hitem).1.2.2
        unfold Lane.stamp at hitem hstamped
        split at hitem
        · rename_i hqueued
          rw [if_pos hqueued] at hstamped
          exact absurd (hqueued.2.2.symm.trans hstamped) hother
        · exact hitem
    · unfold Table.seen at hitem ⊢
      rwa [Table.get?_modify_of_ne _ _ hkey] at hitem

theorem runningDownloads_lt_of_eligible (hholds : ((args.sql d).eligible d seen row).Holds) :
    ((runningDownloads seen args.project).length : ℤ) < max 1 args.maxConcurrent :=
  Tri.holds_ofProp.mp (ClaimSql.eligible_holds.mp hholds).2.2.2.2.2

end

/-! ### The bound -/

section

variable {cap : ℤ} {lane : Lane}

def LaneMove.WithCap (project : String) (cap : ℤ) (move : LaneMove) : Prop :=
  ∀ args env, move = .enter args env ∨ move = .other (.claimDownload args env) →
    args.project = project → args.maxConcurrent = cap

structure Lane.WithinCap (project : String) (cap : ℤ) (lane : Lane) : Prop where
  bound : ((runningDownloads lane.db project).length : ℤ) ≤ cap
  holder : ∀ txn, lane.held project = some txn → txn.args.maxConcurrent = cap
  snapshot : ∀ txn seen, lane.held project = some txn → txn.snapshot = some seen →
    (runningDownloads lane.db project).length ≤ (runningDownloads seen project).length

namespace Lane.WithinCap

theorem of_free (hbound : ((runningDownloads after.db project).length : ℤ) ≤ cap)
    (hfree : after.held project = none) : after.WithinCap project cap where
  bound := hbound
  holder := fun _ htxn => absurd (hfree.symm.trans htxn) (by simp)
  snapshot := fun _ _ htxn => absurd (hfree.symm.trans htxn) (by simp)

variable (hone : 1 ≤ cap) (hlane : lane.WithinCap project cap)

include hlane

theorem of_held (hrunning : (runningDownloads after.db project).length ≤
      (runningDownloads lane.db project).length) (hheld : after.held project = lane.held project) :
    after.WithinCap project cap where
  bound := le_trans (Int.ofNat_le.mpr hrunning) hlane.bound
  holder := fun txn htxn => hlane.holder txn (hheld ▸ htxn)
  snapshot := fun txn seen htxn hseen =>
    hrunning.trans (hlane.snapshot txn seen (hheld ▸ htxn) hseen)

theorem hold {txn : LaneTxn} (hcap : txn.args.project = project → txn.args.maxConcurrent = cap)
    (hsnapshot : txn.snapshot = none ∨ txn.snapshot = some lane.db) :
    (lane.hold txn).WithinCap project cap := by
  by_cases hproject : txn.args.project = project
  · have hheld (other : LaneTxn) (hother : (lane.hold txn).held project = some other) :
        txn = other := by
      rw [← hproject, Lane.held_hold] at hother
      exact Option.some.inj hother
    refine ⟨hlane.bound, fun other hother => ?_, fun other seen hother hseen => ?_⟩
    · rw [← hheld other hother]
      exact hcap hproject
    · rw [← hheld other hother] at hseen
      rcases hsnapshot with hnone | hsome
      · cases hnone.symm.trans hseen
      · rw [← Option.mem_unique hsome hseen]
        exact le_rfl
  · exact hlane.of_held le_rfl (Function.update_of_ne (Ne.symm hproject) _ _)

theorem enter (hcap : args.project = project → args.maxConcurrent = cap) :
    (lane.enter args env).WithinCap project cap := by
  unfold Lane.enter
  split
  · exact hlane.hold hcap (Or.inl rfl)
  · exact hlane

theorem look (other : String) : (lane.look other).WithinCap project cap := by
  unfold Lane.look
  split
  · rename_i args env hheld
    refine hlane.hold (fun hproject => ?_) (Or.inr rfl)
    obtain rfl : other = project := (lane.keyed other _ hheld).symm.trans hproject
    exact hlane.holder ⟨args, env, none⟩ hheld
  · exact hlane

include hone

theorem commit (other : String) : (lane.commit d other).WithinCap project cap := by
  unfold Lane.commit
  split
  · rename_i args env seen hheld
    have htag : args.project = other := lane.keyed other _ hheld
    by_cases hproject : other = project
    · subst hproject
      have hcap : args.maxConcurrent = cap := hlane.holder _ hheld
      have hcounted := hlane.snapshot _ seen hheld rfl
      refine of_free ?_ (Function.update_self _ _ _)
      change ((runningDownloads (Lane.finish d lane.db args env seen) other).length : ℤ) ≤ cap
      rcases Lane.finish_cases d lane.db args env seen with hnone | ⟨id, row, hpick, hjobs⟩
      · rw [hnone]
        exact hlane.bound
      · have hroom := runningDownloads_lt_of_eligible (ClaimSql.mem_of_pick hpick).2
        have hadded : (runningDownloads (Lane.finish d lane.db args env seen) other).length ≤
            (runningDownloads lane.db other).length + 1 :=
          length_runningDownloads_modify id hjobs
        rw [htag, hcap, max_eq_right hone] at hroom
        omega
    · refine hlane.of_held ?_ (Function.update_of_ne (Ne.symm hproject) _ _)
      exact length_runningDownloads_finish (htag ▸ hproject)
  · exact hlane

theorem other (hcap : ∀ args env, op = .claimDownload args env → args.project = project →
      args.maxConcurrent = cap) : (lane.step d (.other op)).WithinCap project cap := by
  unfold Lane.step
  dsimp only
  split
  · exact hlane
  · rename_i hopen
    by_cases hclaims : op.ClaimsDownload project
    · obtain ⟨args, env, rfl, rfl⟩ := hclaims
      have hfree : lane.held args.project = none := by
        simpa [Lane.blocked] using hopen
      refine of_free ?_ hfree
      change ((runningDownloads (claimNextDownloadJob d args env lane.db).1 args.project).length :
        ℤ) ≤ cap
      unfold claimNextDownloadJob
      rcases (args.sql d).execute_cases d env lane.db with hnone | ⟨id, row, -, hholds, htaken⟩
      · rw [hnone]
        exact hlane.bound
      · have hroom := runningDownloads_lt_of_eligible hholds
        have hadded : (runningDownloads ((args.sql d).execute d env lane.db).1
            args.project).length ≤ (runningDownloads lane.db args.project).length + 1 :=
          length_runningDownloads_modify id (congrArg (fun result => result.1.jobs) htaken)
        rw [hcap args env rfl rfl, max_eq_right hone] at hroom
        omega
    · exact hlane.of_held (length_runningDownloads_step hclaims) rfl

theorem step {move : LaneMove} (hmove : move.WithCap project cap) :
    (lane.step d move).WithinCap project cap := by
  cases move with
  | enter args env => exact hlane.enter (hmove args env (Or.inl rfl))
  | look project => exact hlane.look project
  | commit project => exact hlane.commit hone project
  | other =>
    refine hlane.other hone fun args env hop => hmove args env (Or.inr ?_)
    rw [hop]

theorem run {moves : List LaneMove} (hmoves : ∀ move ∈ moves, move.WithCap project cap) :
    (lane.run d moves).WithinCap project cap := by
  induction moves generalizing lane with
  | nil => exact hlane
  | cons move rest ih =>
    obtain ⟨hmove, hrest⟩ := List.forall_mem_cons.mp hmoves
    exact ih (hlane.step hone hmove) hrest

end Lane.WithinCap

end

/-- No more downloads run than the cap allows, and what a claim takes does not depend on the rows of
other projects. -/
theorem download_lane_capped (d : Dialect) (project : String) (cap : ℤ) (db : Db)
    (moves : List LaneMove) (hone : 1 ≤ cap)
    (hstart : ((runningDownloads db project).length : ℤ) ≤ cap)
    (hmoves : ∀ move ∈ moves, move.WithCap project cap) :
    ((runningDownloads ((Lane.ofDb db).run d moves).db project).length : ℤ) ≤ cap ∧
      ∀ (args : DownloadClaim) (env : ClaimEnv) (other : Db), args.project = project →
        other.now = ((Lane.ofDb db).run d moves).db.now →
        other.runs = ((Lane.ofDb db).run d moves).db.runs →
        other.tagged project = ((Lane.ofDb db).run d moves).db.tagged project →
        (claimNextDownloadJob d args env other).2 =
          (claimNextDownloadJob d args env ((Lane.ofDb db).run d moves).db).2 := by
  have hfree : (Lane.ofDb db).WithinCap project cap := .of_free hstart rfl
  refine ⟨(hfree.run hone hmoves).bound, fun args env other hproject hnow hruns hjobs => ?_⟩
  have hsame : other.SameFor project ((Lane.ofDb db).run d moves).db := by
    refine ⟨hnow, hjobs, fun entry _ => ?_⟩
    unfold runClaimable Db.runStatus?
    rw [hruns]
  exact (DownloadClaim.alike hproject hsame).answer_eq hproject env

def sharedFleet (others : List NodeJob) : Fleet where
  db :=
    { jobs := Table.ofRows
        ({ runId := "r", nodeId := "n", nodeModule := "m", queue := .download, project := "a",
           status := .queued, createdAt := 0 } :: others)
      runs := (OrdDict.empty.insert "r" { workflowName := "w", status := .running, project := "a" }
        ).insert "s" { workflowName := "w", status := .running, project := "b" } }

/-- Two hosts claim the one download of a project at the same time. -/
theorem download_lane_capped_race :
    ((runningDownloads ((Lane.ofDb (sharedFleet [otherDownload]).db).run .pg
      [.enter { project := "a", host := some "x" } {},
        .enter { project := "a", host := some "y" } {}, .look "a", .commit "a",
        .other (.claimDownload { project := "a" } {})]).db "a").length :
      ℤ) ≤ 1 := by
  refine (download_lane_capped .pg "a" 1 (sharedFleet [otherDownload]).db _ le_rfl
    (by decide +kernel) ?_).1
  intro move hmem args env hmove _
  simp only [List.mem_cons, List.not_mem_nil, or_false] at hmem
  rcases hmem with rfl | rfl | rfl | rfl | rfl <;> rcases hmove with hmove | hmove <;>
    cases hmove <;> rfl

end BrokerParrot
