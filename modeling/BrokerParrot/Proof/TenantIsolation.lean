import BrokerParrot.Fleet
import BrokerParrot.Dispatcher
import BrokerParrot.Proof.RowSteps

/-!
# Tenants do not see each other

Two databases that hold the same rows of a project answer a call that schedules work alike and are
changed alike, whatever the other projects do, and nothing of another project is written. The one
term without a scope is the guard on the parent run. A host that queues a job of its own may name
a run of another project there, and the guard then reads that run's status. Where every row has the
tag of its run, which is how the dispatcher writes it, nothing leaks.
-/

namespace BrokerParrot

open OrdDict List

variable {db : Db} {entry : JobId × NodeJob} {id : JobId} {d : Dialect} {left right : Fleet}
  {collation : Collation} {clears raises : Fleet → JobId → NodeJob → Prop}

/-! ### The rows of one project -/

namespace Db

variable {project : String} {left right : Db}

def tagged (db : Db) (project : String) : List (JobId × NodeJob) :=
  db.jobs.entries.filter fun entry => entry.2.project = project

structure AgreeOn (project : String) (left right : Db) : Prop where
  now : left.now = right.now
  jobs : left.tagged project = right.tagged project
  runs : ∀ runId run, run.project = project →
    (left.runs.get? runId = some run ↔ right.runs.get? runId = some run)
  heartbeats : (left.heartbeats.entries.filter fun entry => entry.1.project = project) =
    right.heartbeats.entries.filter fun entry => entry.1.project = project

def RunsTagged (project : String) (db : Db) : Prop :=
  ∀ entry ∈ db.tagged project, ∀ run, db.runs.get? entry.2.runId = some run → run.project = project

structure OnlyTouches (project : String) (before after : Db) : Prop where
  jobs : ∀ id row, row.project ≠ project →
    (after.jobs.get? id = some row ↔ before.jobs.get? id = some row)
  runs : after.runs = before.runs
  heartbeats : after.heartbeats = before.heartbeats
  events : after.events = before.events
  now : after.now = before.now

theorem OnlyTouches.refl (project : String) (db : Db) : db.OnlyTouches project db :=
  ⟨fun _ _ _ => Iff.rfl, rfl, rfl, rfl, rfl⟩

theorem mem_tagged :
    entry ∈ db.tagged project ↔
      db.jobs.get? entry.1 = some entry.2 ∧ entry.2.project = project := by
  unfold tagged
  rw [mem_filter, decide_eq_true_iff]
  exact and_congr_left fun _ => Table.mem_entries

structure SameFor (project : String) (left right : Db) : Prop where
  now : left.now = right.now
  jobs : left.tagged project = right.tagged project
  guard : ∀ entry ∈ left.tagged project,
    runClaimable left entry.2.runId = runClaimable right entry.2.runId

/-- The parents of the project's jobs, whatever their tag, pass the guard in both or in neither. -/
def GuardsAgree (project : String) (left right : Db) : Prop :=
  ∀ entry ∈ left.tagged project,
    runClaimable left entry.2.runId = runClaimable right entry.2.runId

theorem AgreeOn.guardsAgree (hagree : left.AgreeOn project right)
    (hleft : left.RunsTagged project) (hright : right.RunsTagged project) :
    left.GuardsAgree project right := by
  intro entry hmem
  have hget : left.runs.get? entry.2.runId = right.runs.get? entry.2.runId := by
    refine Option.ext fun run => ?_
    constructor
    · intro hrun
      exact (hagree.runs _ run (hleft entry hmem run hrun)).mp hrun
    · intro hrun
      exact (hagree.runs _ run (hright entry (hagree.jobs ▸ hmem) run hrun)).mpr hrun
  unfold runClaimable runStatus?
  rw [hget]

section

variable {β : Type} (hjobs : left.tagged project = right.tagged project)

include hjobs

theorem collect_agree {view other : JobId → NodeJob → Option β}
    (hview : ∀ id row, row.project ≠ project → view id row = none)
    (hother : ∀ id row, row.project ≠ project → other id row = none)
    (hsame : ∀ entry ∈ left.tagged project, view entry.1 entry.2 = other entry.1 entry.2) :
    left.jobs.collect view = right.jobs.collect other := by
  have hleft : left.jobs.collect view =
      (left.tagged project).filterMap fun entry => view entry.1 entry.2 :=
    left.jobs.rows.collect_filter fun id row hother => hview id row (of_decide_eq_false hother)
  have hright : right.jobs.collect other =
      (right.tagged project).filterMap fun entry => other entry.1 entry.2 :=
    right.jobs.rows.collect_filter fun id row hout => hother id row (of_decide_eq_false hout)
  rw [hleft, hright, ← hjobs]
  exact filterMap_congr hsame

theorem exists_agree {p q : JobId × NodeJob → Prop}
    (hp : ∀ entry, p entry → entry.2.project = project)
    (hq : ∀ entry, q entry → entry.2.project = project)
    (hsame : ∀ entry ∈ left.tagged project, p entry ↔ q entry) :
    (∃ entry ∈ left.jobs.entries, p entry) ↔ ∃ entry ∈ right.jobs.entries, q entry := by
  constructor
  · rintro ⟨entry, hmem, hholds⟩
    have htag : entry ∈ left.tagged project :=
      mem_tagged.mpr ⟨Table.mem_entries.mp hmem, hp _ hholds⟩
    refine ⟨entry, ?_, (hsame entry htag).mp hholds⟩
    rw [hjobs] at htag
    exact Table.mem_entries.mpr (mem_tagged.mp htag).1
  · rintro ⟨entry, hmem, hholds⟩
    have htag : entry ∈ right.tagged project :=
      mem_tagged.mpr ⟨Table.mem_entries.mp hmem, hq _ hholds⟩
    rw [← hjobs] at htag
    exact ⟨entry, Table.mem_entries.mpr (mem_tagged.mp htag).1, (hsame entry htag).mpr hholds⟩

theorem filter_agree {p q : JobId × NodeJob → Bool}
    (hp : ∀ entry, p entry = true → entry.2.project = project)
    (hq : ∀ entry, q entry = true → entry.2.project = project)
    (hsame : ∀ entry ∈ left.tagged project, p entry = q entry) :
    left.jobs.entries.filter p = right.jobs.entries.filter q := by
  have hscoped {db : Db} {r : JobId × NodeJob → Bool}
      (hr : ∀ entry, r entry = true → entry.2.project = project) :
      db.jobs.entries.filter r = (db.tagged project).filter r := by
    unfold tagged
    rw [filter_filter]
    refine filter_congr fun entry _ => ?_
    cases hentry : r entry with
    | false => rfl
    | true => simp [hr entry hentry]
  rw [hscoped hp, hscoped hq, ← hjobs]
  exact filter_congr hsame

end

theorem AgreeOn.exists_beat (hagree : left.AgreeOn project right)
    {p q : WorkerKey × Heartbeat → Prop} (hp : ∀ entry, p entry → entry.1.project = project)
    (hsame : ∀ entry, p entry ↔ q entry) :
    (∃ entry ∈ left.heartbeats.entries, p entry) ↔
      ∃ entry ∈ right.heartbeats.entries, q entry := by
  have hscoped (db : Db) : (∃ entry ∈ db.heartbeats.entries, p entry) ↔
      ∃ entry ∈ db.heartbeats.entries.filter (fun entry => entry.1.project = project), p entry := by
    constructor
    · rintro ⟨entry, hmem, hholds⟩
      exact ⟨entry, mem_filter.mpr ⟨hmem, decide_eq_true (hp entry hholds)⟩, hholds⟩
    · rintro ⟨entry, hmem, hholds⟩
      exact ⟨entry, mem_of_mem_filter hmem, hholds⟩
  simp only [← hsame]
  rw [hscoped left, hscoped right, hagree.heartbeats]

theorem tagged_modify {after : Db} {rewrite : NodeJob → NodeJob}
    (hafter : after.jobs = db.jobs.modify id rewrite)
    (hproject : ∀ row, (rewrite row).project = row.project) :
    after.tagged project =
      (db.tagged project).map fun entry =>
        (entry.1, if entry.1 = id then rewrite entry.2 else entry.2) := by
  have hkeeps (entry : JobId × NodeJob) :
      (if entry.1 = id then rewrite entry.2 else entry.2).project = entry.2.project := by
    split
    · exact hproject _
    · rfl
  unfold tagged
  rw [hafter]
  change List.filter _ (List.map _ _) = _
  rw [filter_map]
  congr 1
  refine filter_congr fun entry _ => ?_
  simp only [Function.comp_apply, hkeeps]

end Db

/-! ### The claims -/

namespace ClaimSql

variable {project : String} {left right : Db} {sql : ClaimSql}

structure Alike (sql : ClaimSql) (project : String) (left right : Db) : Prop
    extends left.SameFor project right where
  capability : ∀ row, sql.capability left row = sql.capability right row
  counted : sql.counted left = sql.counted right

section

variable (halike : sql.Alike project left right)

include halike

variable (hproject : sql.project = project)

include hproject

theorem Alike.pick_eq (env : ClaimEnv) : sql.pick d env left = sql.pick d env right := by
  have hcandidates : sql.candidates d env left = sql.candidates d env right := by
    refine Db.filter_agree halike.jobs ?_ ?_ fun entry hmem => ?_
    · intro entry hcandidate
      have heligible := (of_decide_eq_true hcandidate).1
      exact (eligible_holds.mp heligible).2.2.1.trans hproject
    · intro entry hcandidate
      have heligible := (of_decide_eq_true hcandidate).1
      exact (eligible_holds.mp heligible).2.2.1.trans hproject
    · unfold eligible
      rw [halike.guard entry hmem, halike.capability]
  unfold pick
  rw [hcandidates]

theorem Alike.raises_iff (env : ClaimEnv) (row : NodeJob) :
    sql.Raises env left row ↔ sql.Raises env right row := by
  have hvisited : (∃ entry ∈ left.jobs.entries, env.visits entry.1 = true ∧ sql.Waiting entry.2 ∧
        sql.raisesOn entry.2 = true) ↔
      ∃ entry ∈ right.jobs.entries, env.visits entry.1 = true ∧ sql.Waiting entry.2 ∧
        sql.raisesOn entry.2 = true := by
    refine Db.exists_agree halike.jobs ?_ ?_ fun _ _ => Iff.rfl
    · exact fun entry hentry => hentry.2.1.2.2.trans hproject
    · exact fun entry hentry => hentry.2.1.2.2.trans hproject
  unfold Raises
  rw [halike.counted, hvisited]

theorem Alike.answer_eq (env : ClaimEnv) :
    (sql.execute d env left).2 = (sql.execute d env right).2 := by
  unfold execute
  rw [halike.pick_eq hproject env, halike.now]
  cases sql.pick d env right with
  | none => rfl
  | some entry =>
    simp only [halike.raises_iff hproject]
    split <;> rfl

theorem Alike.tagged_eq (env : ClaimEnv) :
    (sql.execute d env left).1.tagged project = (sql.execute d env right).1.tagged project := by
  unfold execute
  rw [halike.pick_eq hproject env, halike.now]
  cases sql.pick d env right with
  | none => exact halike.jobs
  | some entry =>
    have hkeeps (row : NodeJob) : (sql.take right.now row).project = row.project := rfl
    simp only [halike.raises_iff hproject]
    split
    · exact halike.jobs
    · refine (Db.tagged_modify rfl hkeeps).trans (Eq.trans ?_ (Db.tagged_modify rfl hkeeps).symm)
      rw [halike.jobs]

end

theorem keys_tagged_execute (env : ClaimEnv) (db : Db) :
    ((sql.execute d env db).1.tagged project).map Prod.fst =
      (db.tagged project).map Prod.fst := by
  rcases sql.execute_cases d env db with hnone | ⟨id, row, -, -, htaken⟩
  · rw [hnone]
  · rw [htaken]
    have hkeeps (row : NodeJob) : (sql.take db.now row).project = row.project := rfl
    refine (congrArg (List.map Prod.fst) (Db.tagged_modify rfl hkeeps)).trans ?_
    rw [map_map]
    rfl

theorem onlyTouches_execute (hproject : sql.project = project) (env : ClaimEnv) (db : Db) :
    db.OnlyTouches project (sql.execute d env db).1 := by
  rcases sql.execute_cases d env db with hnone | ⟨id, row, hget, hholds, htaken⟩
  · rw [hnone]
    exact Db.OnlyTouches.refl project db
  · rw [htaken]
    refine ⟨fun other untouched huntouched => ?_, rfl, rfl, rfl, rfl⟩
    have htag : row.project = project := (eligible_holds.mp hholds).2.2.1.trans hproject
    by_cases heq : other = id
    · subst heq
      rw [Table.get?_modify_self, hget, Option.map_some]
      refine iff_of_false ?_ ?_ <;> intro hsame <;> refine huntouched ?_ <;>
        rw [← Option.some.inj hsame] <;> exact htag
    · rw [Table.get?_modify_of_ne _ _ heq]

end ClaimSql

section

variable {project : String} {left right : Db}

theorem runningDownloads_agree (hjobs : left.tagged project = right.tagged project) :
    runningDownloads left project = runningDownloads right project := by
  have hscope (id : JobId) (row : NodeJob) (hother : row.project ≠ project) :
      (if row.status = .running ∧ row.queue = .download ∧ row.project = project then some id
        else none) = none :=
    if_neg fun hrunning => hother hrunning.2.2
  exact Db.collect_agree hjobs hscope hscope fun _ _ => rfl

theorem runningHere_agree (hjobs : left.tagged project = right.tagged project)
    (host : Option String) : runningHere left host project = runningHere right host project := by
  have hscope (id : JobId) (row : NodeJob) (hother : row.project ≠ project) :
      (if RunningHere host project row then some row else none) = none :=
    if_neg fun hhere => hother hhere.2.2.2
  exact Db.collect_agree hjobs hscope hscope fun _ _ => rfl

theorem CpuClaim.alike {args : CpuClaim} (hsame : left.SameFor project right) :
    (args.sql d).Alike project left right :=
  ⟨hsame, fun _ => rfl, rfl⟩

theorem DownloadClaim.alike {args : DownloadClaim} (hproject : args.project = project)
    (hsame : left.SameFor project right) : (args.sql d).Alike project left right := by
  refine ⟨hsame, fun row => ?_, rfl⟩
  unfold DownloadClaim.sql
  dsimp only
  rw [hproject, runningDownloads_agree hsame.jobs]

theorem GpuClaim.alike {args : GpuClaim} (hproject : args.project = project)
    (hsame : left.SameFor project right) : (args.sql d).Alike project left right := by
  have hhere := runningHere_agree hsame.jobs args.host
  have hcounted : (args.sql d).counted left = (args.sql d).counted right := by
    change runningHere left args.host args.project = runningHere right args.host args.project
    rw [hproject, hhere]
  refine ⟨hsame, fun row => ?_, hcounted⟩
  have hslots : args.boxSlotGate left row = args.boxSlotGate right row := by
    unfold boxSlotGate runningWeight
    rw [hproject, hhere]
  have hkinds : args.kindGate left row = args.kindGate right row := by
    unfold kindGate kindCount
    rw [hproject, hhere]
  have hreserved (budget : ℤ) :
      (∃ entry ∈ left.jobs.entries, args.Reserves d left budget entry.2) ↔
        ∃ entry ∈ right.jobs.entries, args.Reserves d right budget entry.2 := by
    refine Db.exists_agree hsame.jobs ?_ ?_ fun entry hmem => ?_
    · exact fun entry hreserves => hreserves.2.2.1.trans hproject
    · exact fun entry hreserves => hreserves.2.2.1.trans hproject
    · unfold Reserves
      rw [hsame.guard entry hmem]
  have hreservation : args.reservationGate d left row = args.reservationGate d right row := by
    unfold reservationGate
    cases args.budget with
    | none => rfl
    | some => simp only [hreserved]
  change args.capability d left row = args.capability d right row
  unfold capability
  rw [hslots, hkinds, hreservation]

end

/-! ### The fleet's statements -/

namespace Fleet

variable {project : String}

structure AgreeOn (project : String) (left right : Fleet) : Prop
    extends left.db.AgreeOn project right.db where
  flags : ∀ entry ∈ left.db.tagged project, left.flags entry.1 = right.flags entry.1
  adverts : ∀ worker, worker.project = project → left.adverts worker = right.adverts worker
  controls : ∀ worker, worker.project = project →
    left.controls.get? worker = right.controls.get? worker

structure OnlyTouches (project : String) (before after : Fleet) : Prop
    extends before.db.OnlyTouches project after.db where
  flags : ∀ id row, before.db.jobs.get? id = some row → row.project ≠ project →
    after.flags id = before.flags id
  adverts : after.adverts = before.adverts
  controls : after.controls = before.controls

theorem OnlyTouches.refl (project : String) (fleet : Fleet) : fleet.OnlyTouches project fleet :=
  ⟨Db.OnlyTouches.refl project fleet.db, fun _ _ _ _ => rfl, rfl, rfl⟩

theorem liveGpu_agree (hagree : left.db.AgreeOn project right.db) (windowS : ℚ) :
    left.liveGpu project windowS = right.liveGpu project windowS := by
  have hscope (db : Db) (worker : WorkerKey) (beat : Heartbeat)
      (hother : decide (worker.project = project) = false) :
      (if worker.queue = .gpu ∧ worker.project = project ∧ db.now - windowS < beat.lastSeen then
        some worker else none) = none :=
    if_neg fun hlive => of_decide_eq_false hother hlive.2.1
  unfold liveGpu
  rw [collect_filter _ (hscope left.db), collect_filter _ (hscope right.db),
    hagree.heartbeats, hagree.now]

theorem exists_live_agree (hagree : left.AgreeOn project right) (windowS : ℚ)
    (p : Advert → Prop) :
    (∃ worker ∈ left.liveGpu project windowS, p (left.adverts worker)) ↔
      ∃ worker ∈ right.liveGpu project windowS, p (right.adverts worker) := by
  rw [← liveGpu_agree hagree.toAgreeOn]
  refine exists_congr fun worker => and_congr_right fun hmem => ?_
  rw [hagree.adverts worker (key_of_mem_liveGpu hmem).2]

end Fleet

/-! #### Deferring -/

section

variable {args : PoolFeeder} {left right : Db}

theorem PoolFeeder.runningPool_agree (hjobs : left.tagged args.project = right.tagged args.project)
    (host : String) : args.runningPool left host = args.runningPool right host := by
  have hscope (id : JobId) (row : NodeJob) (hother : row.project ≠ args.project) :
      (if row.queue = .gpu ∧ row.status = .running ∧ (poolRowTerm row).Holds ∧
          row.project = args.project ∧ row.claimedBy = some host then some row else none) = none :=
    if_neg fun hrunning => hother hrunning.2.2.2.1
  exact Db.collect_agree hjobs hscope hscope fun _ _ => rfl

theorem vlmPoolShouldDefer_agree (hagree : left.AgreeOn args.project right)
    (hsame : left.SameFor args.project right) :
    vlmPoolShouldDefer d collation args left = vlmPoolShouldDefer d collation args right := by
  have hstarving : (∃ entry ∈ left.jobs.entries, args.Starving d left entry.2) ↔
      ∃ entry ∈ right.jobs.entries, args.Starving d right entry.2 := by
    refine Db.exists_agree hsame.jobs ?_ ?_ fun entry hmem => ?_
    · exact fun entry hstarving => hstarving.2.2.2.1
    · exact fun entry hstarving => hstarving.2.2.2.1
    · unfold PoolFeeder.Starving
      rw [hsame.guard entry hmem, hsame.now]
  have hroom : (∃ entry ∈ left.heartbeats.entries, args.Fresh left entry.1 entry.2 ∧
        args.RankedAbove collation entry.1 entry.2 ∧ args.HasRoom left entry.1 entry.2) ↔
      ∃ entry ∈ right.heartbeats.entries, args.Fresh right entry.1 entry.2 ∧
        args.RankedAbove collation entry.1 entry.2 ∧ args.HasRoom right entry.1 entry.2 := by
    refine hagree.exists_beat (fun entry hentry => hentry.1.2.1) fun entry => ?_
    unfold PoolFeeder.Fresh PoolFeeder.HasRoom
    rw [hsame.now, args.runningPool_agree hsame.jobs]
  unfold vlmPoolShouldDefer
  simp only [hstarving, hroom]

end

/-! #### The context switch -/

section

variable {args : ContextNeed}

variable (hagree : left.AgreeOn args.project right)

include hagree

theorem ContextNeed.live_agree : args.live left = args.live right := by
  have hparked (worker : WorkerKey) : left.Parked args.project worker.hostLabel ↔
      right.Parked args.project worker.hostLabel := by
    unfold Fleet.Parked
    rw [hagree.controls _ rfl]
  unfold ContextNeed.live
  rw [Fleet.liveGpu_agree hagree.toAgreeOn]
  refine filter_congr fun worker _ => ?_
  rw [decide_eq_decide, hparked]

theorem ContextNeed.adverts_of_live {worker : WorkerKey} (hmem : worker ∈ args.live left) :
    left.adverts worker = right.adverts worker :=
  hagree.adverts worker (Fleet.key_of_mem_liveGpu (mem_of_mem_filter hmem)).2

theorem ContextNeed.asks_agree (hsame : left.db.SameFor args.project right.db) (ceiling : ℤ)
    (hmem : entry ∈ left.db.tagged args.project) :
    args.Asks d collation left ceiling entry.2 ↔ args.Asks d collation right ceiling entry.2 := by
  have hserved : (∀ worker ∈ args.live left, ¬ (Tri.compare (· ≤ ·) entry.2.contextLength
        (left.adverts worker).contextLength).Holds) ↔
      ∀ worker ∈ args.live right, ¬ (Tri.compare (· ≤ ·) entry.2.contextLength
        (right.adverts worker).contextLength).Holds := by
    rw [← live_agree hagree]
    refine forall₂_congr fun worker hlive => ?_
    rw [adverts_of_live hagree hlive]
  have helected : (∀ worker ∈ args.live left,
        ¬ args.Outbid collation left ceiling entry.2 worker) ↔
      ∀ worker ∈ args.live right, ¬ args.Outbid collation right ceiling entry.2 worker := by
    rw [← live_agree hagree]
    refine forall₂_congr fun worker hlive => ?_
    unfold Outbid
    rw [adverts_of_live hagree hlive]
  unfold Asks
  rw [hserved, helected, hsame.now, hsame.guard entry hmem]

theorem contextSwitchNeed_agree (hsame : left.db.SameFor args.project right.db) :
    contextSwitchNeed d collation args left = contextSwitchNeed d collation args right := by
  have hasked (ceiling : ℤ) :
      (left.db.jobs.collect fun _ row =>
        if args.Asks d collation left ceiling row then row.contextLength else none) =
      right.db.jobs.collect fun _ row =>
        if args.Asks d collation right ceiling row then row.contextLength else none := by
    refine Db.collect_agree hsame.jobs ?_ ?_ fun entry hmem => ?_
    · exact fun id row hother => if_neg fun hasks => hother hasks.2.2.1
    · exact fun id row hother => if_neg fun hasks => hother hasks.2.2.1
    · exact if_congr (ContextNeed.asks_agree hagree hsame ceiling hmem) rfl rfl
  unfold contextSwitchNeed
  simp only [hasked]

end

/-! #### The sweeps -/

namespace Fleet

variable {project : String}

/-- A condition of a sweep that looks at rows of the project only, and judges them by what the
project's own rows say. -/
structure Scoped (project : String) (selects : Fleet → JobId → NodeJob → Prop) : Prop where
  scope : ∀ fleet id row, selects fleet id row → row.project = project
  judges : ∀ {left right : Fleet}, left.AgreeOn project right →
    ∀ entry ∈ left.db.tagged project, selects left entry.1 entry.2 ↔ selects right entry.1 entry.2

section

variable {selects : Fleet → JobId → NodeJob → Prop}
  [∀ fleet id row, Decidable (selects fleet id row)] {flag : NodeJob → RedFlag}

theorem setFlags_of_get? {fleet : Fleet} {row : NodeJob} (hget : fleet.db.jobs.get? id = some row) :
    (fleet.setFlags (selects fleet) flag).flags id =
      if selects fleet id row then flag row else fleet.flags id := by
  unfold setFlags
  dsimp only
  rw [hget]

theorem AgreeOn.setFlags (hagree : left.AgreeOn project right) (hscoped : Scoped project selects) :
    (left.setFlags (selects left) flag).AgreeOn project
      (right.setFlags (selects right) flag) := by
  refine ⟨hagree.toAgreeOn, fun entry hmem => ?_, hagree.adverts, hagree.controls⟩
  have hleft : left.db.jobs.get? entry.1 = some entry.2 := (Db.mem_tagged.mp hmem).1
  have hright : right.db.jobs.get? entry.1 = some entry.2 :=
    (Db.mem_tagged.mp (hagree.jobs ▸ hmem)).1
  rw [setFlags_of_get? hleft, setFlags_of_get? hright, hagree.flags entry hmem]
  exact if_congr (hscoped.judges hagree entry hmem) rfl rfl

theorem onlyTouches_setFlags (fleet : Fleet) (hscoped : Scoped project selects) :
    fleet.OnlyTouches project (fleet.setFlags (selects fleet) flag) := by
  refine ⟨Db.OnlyTouches.refl project fleet.db, fun id row hget hother => ?_, rfl, rfl⟩
  rw [setFlags_of_get? hget, if_neg fun hselected => hother (hscoped.scope _ _ _ hselected)]

theorem flagged_agree (hagree : left.AgreeOn project right) (hscoped : Scoped project selects) :
    left.flagged (selects left) flag = right.flagged (selects right) flag := by
  refine Db.collect_agree hagree.jobs ?_ ?_ fun entry hmem => ?_
  · exact fun id row hother => if_neg fun hselected => hother (hscoped.scope _ _ _ hselected)
  · exact fun id row hother => if_neg fun hselected => hother (hscoped.scope _ _ _ hselected)
  · exact if_congr (hscoped.judges hagree entry hmem) rfl rfl

end

section

variable [∀ fleet id row, Decidable (clears fleet id row)]
  [∀ fleet id row, Decidable (raises fleet id row)] {reason : NodeJob → Option String}

theorem sweep_agree (hagree : left.AgreeOn project right) (hclears : Scoped project clears)
    (hraises : Scoped project raises) :
    (left.sweep clears raises reason).2 = (right.sweep clears raises reason).2 ∧
      (left.sweep clears raises reason).1.AgreeOn project
        (right.sweep clears raises reason).1 := by
  unfold sweep
  dsimp only
  rw [hagree.now]
  have hcleared : (left.setFlags (clears left) fun _ => {}).AgreeOn project
      (right.setFlags (clears right) fun _ => {}) :=
    hagree.setFlags hclears
  exact ⟨flagged_agree hcleared hraises, hcleared.setFlags hraises⟩

theorem onlyTouches_sweep (fleet : Fleet) (hclears : Scoped project clears)
    (hraises : Scoped project raises) :
    fleet.OnlyTouches project (fleet.sweep clears raises reason).1 := by
  have hcleared : fleet.OnlyTouches project (fleet.setFlags (clears fleet) fun _ => {}) :=
    onlyTouches_setFlags fleet hclears
  refine ⟨Db.OnlyTouches.refl project fleet.db, fun id row hget hother => ?_, rfl, rfl⟩
  refine Eq.trans ?_ (hcleared.flags id row hget hother)
  exact (onlyTouches_setFlags _ hraises).flags id row hget hother

end

theorem servedBySome_agree (hagree : left.AgreeOn project right) (windowS : ℚ) (row : NodeJob) :
    left.ServedBySome d project windowS row ↔ right.ServedBySome d project windowS row :=
  exists_live_agree hagree windowS fun advert =>
    (d.arraysOverlap row.serverTypes advert.llmServersAvailable).Holds ∨
      advert.llmServersAvailable = []

theorem scoped_clearsStranded (windowS : ℚ) :
    Scoped project (ClearsStranded d project windowS) where
  scope := fun _ _ _ hclears => hclears.2.2.1
  judges := fun hagree entry hmem => by
    unfold ClearsStranded
    rw [hagree.flags entry hmem, servedBySome_agree hagree]

theorem scoped_raisesStranded (windowS : ℚ) :
    Scoped project (RaisesStranded d project windowS) where
  scope := fun _ _ _ hraises => hraises.2.2.1
  judges := fun hagree entry hmem => by
    unfold RaisesStranded
    rw [hagree.flags entry hmem, servedBySome_agree hagree, liveGpu_agree hagree.toAgreeOn]

theorem exists_servesHere_agree (hagree : left.AgreeOn project right) (windowS : ℚ)
    (row : NodeJob) :
    (∃ worker ∈ left.liveGpu project windowS, left.ServesHere d row worker) ↔
      ∃ worker ∈ right.liveGpu project windowS, right.ServesHere d row worker :=
  exists_live_agree hagree windowS fun advert =>
    (row.requiredModel = none ∨
        (d.arrayContainsValue (some advert.fitsModels) row.requiredModel).Holds) ∧
      (row.contextLength = none ∨
        (Tri.compare (· ≤ ·) row.contextLength advert.contextMax).Holds)

theorem scoped_clearsUnassignable (windowS : ℚ) :
    Scoped project (ClearsUnassignable d project windowS) where
  scope := fun _ _ _ hclears => hclears.2.2.1
  judges := fun hagree entry hmem => by
    unfold ClearsUnassignable
    rw [hagree.flags entry hmem, exists_servesHere_agree hagree]

theorem scoped_raisesUnassignable (windowS : ℚ) :
    Scoped project (RaisesUnassignable d project windowS) where
  scope := fun _ _ _ hraises => hraises.2.1
  judges := fun hagree entry hmem => by
    unfold RaisesUnassignable
    rw [hagree.flags entry hmem, exists_servesHere_agree hagree, liveGpu_agree hagree.toAgreeOn]

theorem largest_agree (hagree : left.AgreeOn project right) (windowS : ℚ)
    (column : Advert → Option ℤ) :
    left.largest project windowS column = right.largest project windowS column := by
  unfold largest
  rw [← liveGpu_agree hagree.toAgreeOn]
  congr 3
  refine filterMap_congr fun worker hmem => ?_
  rw [hagree.adverts worker (key_of_mem_liveGpu hmem).2]

theorem unassignableReason_agree (hagree : left.AgreeOn project right) (windowS : ℚ) :
    left.unassignableReason d project windowS = right.unassignableReason d project windowS := by
  funext row
  have hreaches := exists_live_agree hagree windowS fun advert =>
    (Tri.compare (· ≤ ·) row.contextLength advert.contextMax).Holds
  have hknows := exists_live_agree hagree windowS fun advert =>
    (d.arrayContainsValue (some advert.knownModels) row.requiredModel).Holds
  have hfits := exists_live_agree hagree windowS fun advert =>
    (d.arrayContainsValue (some advert.fitsModels) row.requiredModel).Holds
  unfold unassignableReason
  rw [largest_agree hagree, largest_agree hagree, liveGpu_agree hagree.toAgreeOn] at *
  refine if_congr (and_congr_right fun _ => not_congr hreaches) rfl ?_
  refine if_congr (and_congr_right fun _ => not_congr hknows) rfl ?_
  exact if_congr (and_congr_right fun _ => not_congr hfits) rfl rfl

end Fleet

/-! ### The seven calls -/

inductive TenantCall where
  | claimCpu (args : CpuClaim) (env : ClaimEnv)
  | claimGpu (args : GpuClaim) (env : ClaimEnv)
  | claimDownload (args : DownloadClaim) (env : ClaimEnv)
  | shouldDefer (args : PoolFeeder)
  | contextNeed (args : ContextNeed)
  | flagUnassignable (project : String) (windowS : ℚ)
  | flagStranded (project : String) (windowS : ℚ)

inductive TenantAnswer where
  | claimed (row : Option (JobId × NodeJob))
  | deferred (answer : Bool)
  | window (tokens : Option ℤ)
  | flagged (rows : List Flagged)

namespace TenantCall

def project : TenantCall → String
  | claimCpu args _ => args.project
  | claimGpu args _ => args.project
  | claimDownload args _ => args.project
  | shouldDefer args => args.project
  | contextNeed args => args.project
  | flagUnassignable project _ => project
  | flagStranded project _ => project

def onClaim (fleet : Fleet) (result : Db × Option (JobId × NodeJob)) : Fleet × TenantAnswer :=
  ({ fleet with db := result.1 }, .claimed result.2)

def onSweep (result : Fleet × List Flagged) : Fleet × TenantAnswer := (result.1, .flagged result.2)

def run (d : Dialect) (collation : Collation) : TenantCall → Fleet → Fleet × TenantAnswer
  | claimCpu args env, fleet => onClaim fleet (claimNextCpuJob d args env fleet.db)
  | claimGpu args env, fleet => onClaim fleet (claimNextGpuJob d args env fleet.db)
  | claimDownload args env, fleet => onClaim fleet (claimNextDownloadJob d args env fleet.db)
  | shouldDefer args, fleet => (fleet, .deferred (vlmPoolShouldDefer d collation args fleet.db))
  | contextNeed args, fleet => (fleet, .window (contextSwitchNeed d collation args fleet))
  | flagUnassignable project windowS, fleet =>
    onSweep (fleet.flagUnassignableGpuJobs d project windowS)
  | flagStranded project windowS, fleet =>
    onSweep (fleet.flagServerStrandedJobs d project windowS)

end TenantCall

structure Isolated (d : Dialect) (collation : Collation) (call : TenantCall) (left right : Fleet) :
    Prop where
  answer : (call.run d collation left).2 = (call.run d collation right).2
  agree : (call.run d collation left).1.AgreeOn call.project (call.run d collation right).1
  left_only : left.OnlyTouches call.project (call.run d collation left).1
  right_only : right.OnlyTouches call.project (call.run d collation right).1

section

variable {call : TenantCall}

theorem isolated_of_claim {sql : ClaimSql} {env : ClaimEnv} (hproject : sql.project = call.project)
    (hagree : left.AgreeOn call.project right) (halike : sql.Alike call.project left.db right.db)
    (hrun : ∀ fleet, call.run d collation fleet =
      TenantCall.onClaim fleet (sql.execute d env fleet.db)) :
    Isolated d collation call left right := by
  have htouches (fleet : Fleet) :
      fleet.OnlyTouches call.project (call.run d collation fleet).1 := by
    rw [hrun]
    exact ⟨sql.onlyTouches_execute hproject env fleet.db, fun _ _ _ _ => rfl, rfl, rfl⟩
  refine ⟨?_, ?_, htouches left, htouches right⟩
  · rw [hrun, hrun]
    exact congrArg TenantAnswer.claimed (halike.answer_eq hproject env)
  · have hleft := (htouches left).toOnlyTouches
    have hright := (htouches right).toOnlyTouches
    rw [hrun] at hleft hright ⊢
    rw [hrun]
    refine ⟨⟨?_, halike.tagged_eq hproject env, ?_, ?_⟩, fun entry hmem => ?_, hagree.adverts,
      hagree.controls⟩
    · exact (hleft.now.trans hagree.now).trans hright.now.symm
    · rw [hleft.runs, hright.runs]
      exact hagree.runs
    · rw [hleft.heartbeats, hright.heartbeats]
      exact hagree.heartbeats
    · have hkey : entry.1 ∈ (left.db.tagged call.project).map Prod.fst := by
        rw [← sql.keys_tagged_execute env left.db]
        exact mem_map_of_mem hmem
      obtain ⟨before, hbefore, hsame⟩ := mem_map.mp hkey
      have hflag := hagree.flags before hbefore
      rwa [hsame] at hflag

theorem isolated_of_read (hagree : left.AgreeOn call.project right)
    (hstays : ∀ fleet, (call.run d collation fleet).1 = fleet)
    (hanswer : (call.run d collation left).2 = (call.run d collation right).2) :
    Isolated d collation call left right := by
  refine ⟨hanswer, ?_, ?_, ?_⟩
  · rwa [hstays, hstays]
  · rw [hstays]
    exact Fleet.OnlyTouches.refl call.project left
  · rw [hstays]
    exact Fleet.OnlyTouches.refl call.project right

theorem isolated_of_sweep [∀ fleet id row, Decidable (clears fleet id row)]
    [∀ fleet id row, Decidable (raises fleet id row)] {reason : Fleet → NodeJob → Option String}
    (hagree : left.AgreeOn call.project right) (hclears : Fleet.Scoped call.project clears)
    (hraises : Fleet.Scoped call.project raises) (hreason : reason left = reason right)
    (hrun : ∀ fleet, call.run d collation fleet =
      TenantCall.onSweep (fleet.sweep clears raises (reason fleet))) :
    Isolated d collation call left right := by
  obtain ⟨hrows, hafter⟩ :
      (left.sweep clears raises (reason left)).2 = (right.sweep clears raises (reason left)).2 ∧
        (left.sweep clears raises (reason left)).1.AgreeOn call.project
          (right.sweep clears raises (reason left)).1 :=
    Fleet.sweep_agree hagree hclears hraises
  refine ⟨?_, ?_, ?_, ?_⟩
  · rw [hrun, hrun, ← hreason]
    exact congrArg TenantAnswer.flagged hrows
  · rwa [hrun, hrun, ← hreason]
  · rw [hrun]
    exact left.onlyTouches_sweep hclears hraises
  · rw [hrun]
    exact right.onlyTouches_sweep hclears hraises

end

theorem tenants_isolated (d : Dialect) (collation : Collation) (call : TenantCall)
    (left right : Fleet) (hagree : left.AgreeOn call.project right)
    (hguards : left.db.GuardsAgree call.project right.db) :
    Isolated d collation call left right := by
  have hsame : left.db.SameFor call.project right.db := ⟨hagree.now, hagree.jobs, hguards⟩
  cases call with
  | claimCpu => exact isolated_of_claim rfl hagree (CpuClaim.alike hsame) fun _ => rfl
  | claimGpu => exact isolated_of_claim rfl hagree (GpuClaim.alike rfl hsame) fun _ => rfl
  | claimDownload => exact isolated_of_claim rfl hagree (DownloadClaim.alike rfl hsame) fun _ => rfl
  | shouldDefer =>
    refine isolated_of_read hagree (fun _ => rfl) ?_
    exact congrArg TenantAnswer.deferred (vlmPoolShouldDefer_agree hagree.toAgreeOn hsame)
  | contextNeed =>
    refine isolated_of_read hagree (fun _ => rfl) ?_
    exact congrArg TenantAnswer.window (contextSwitchNeed_agree hagree hsame)
  | flagUnassignable project windowS =>
    exact isolated_of_sweep hagree (Fleet.scoped_clearsUnassignable windowS)
      (Fleet.scoped_raisesUnassignable windowS) (Fleet.unassignableReason_agree hagree windowS)
      fun _ => rfl
  | flagStranded project windowS =>
    exact isolated_of_sweep hagree (Fleet.scoped_clearsStranded windowS)
      (Fleet.scoped_raisesStranded windowS) rfl fun _ => rfl

/-- A job of one tenant in a run of the other. -/
def guestFleet (status : RunStatus) (others : List NodeJob) : Fleet where
  db :=
    { jobs := Table.ofRows
        ({ runId := "s", nodeId := "n", nodeModule := "m", queue := .download, project := "a",
           status := .queued, createdAt := 0 } :: others)
      runs := OrdDict.empty.insert "s" { workflowName := "w", status := status, project := "b" } }

def otherDownload : NodeJob where
  runId := "s"
  nodeId := "n"
  nodeModule := "m"
  queue := .download
  project := "b"
  status := .running
  createdAt := 0

theorem agreeOn_guestFleet (status other : RunStatus) :
    (guestFleet status []).AgreeOn "a" (guestFleet other [otherDownload]) := by
  refine ⟨⟨rfl, rfl, fun runId run htag => ?_, rfl⟩, fun _ _ => rfl, fun _ _ => rfl, fun _ _ => rfl⟩
  -- The only run belongs to the other tenant.
  have hnone (kept : RunStatus) (rows : List NodeJob) :
      (guestFleet kept rows).db.runs.get? runId ≠ some run := by
    intro hrun
    by_cases heq : runId = "s"
    · subst heq
      rw [← Option.some.inj ((get?_insert_self _ _ _).symm.trans hrun)] at htag
      exact absurd htag (show "b" ≠ "a" by decide)
    · rw [guestFleet, get?_insert_of_ne _ _ heq] at hrun
      exact absurd hrun (by simp)
  exact iff_of_false (hnone _ _) (hnone _ _)

theorem tenants_isolated_download :
    Isolated .pg .binary (.claimDownload { project := "a" } {}) (guestFleet .running [])
      (guestFleet .completed [otherDownload]) := by
  refine tenants_isolated .pg .binary (.claimDownload { project := "a" } {}) _ _
    (agreeOn_guestFleet _ _) fun entry hmem => ?_
  obtain rfl := mem_singleton.mp hmem
  rfl

/-- The job of the first tenant names a run of the second, and whether it is claimed depends on
whether the second has cancelled that run. -/
theorem cancelled_run_leaks :
    (guestFleet .running []).AgreeOn "a" (guestFleet .cancelled [otherDownload]) ∧
      ¬ Isolated .pg .binary (.claimDownload { project := "a" } {}) (guestFleet .running [])
        (guestFleet .cancelled [otherDownload]) := by
  refine ⟨agreeOn_guestFleet _ _, fun hisolated => ?_⟩
  have hanswer := hisolated.answer
  change TenantAnswer.claimed _ = TenantAnswer.claimed _ at hanswer
  have hsome := congrArg Option.isSome (TenantAnswer.claimed.inj hanswer)
  exact absurd hsome (by decide +kernel)

end BrokerParrot
