import Mathlib.Data.List.DropRight
import BrokerParrot.Sqlite
import BrokerParrot.Proof.RowSteps

/-!
# Where the two backends part

Three places where a statement of the engine means one thing on PostgreSQL and may mean another on
SQLite: the placement of a row when the worker has no box name, what an inner block leaves behind
when it raises, and the lease that the frozen-lease sweep compares. Then, which file a connection
string opens and when a `bootstrap` may be stopped.
-/

namespace BrokerParrot

open Tri List Option TimeText

variable {row : NodeJob} {d : Dialect} {ω : Type}

/-! ### Placement -/

namespace Dialect

theorem holds_arrayContainsValue (d : Dialect) (items : List String) (value : Option String) :
    (d.arrayContainsValue (some items) value).Holds ↔ ∃ item ∈ value, item ∈ items := by
  cases d <;> cases items <;> cases value <;> simp [arrayContainsValue, Holds]

theorem holds_not_arrayContainsValue (d : Dialect) (items : List String) (item : String) :
    (d.arrayContainsValue (some items) (some item)).not.Holds ↔ item ∉ items := by
  cases d <;> cases items <;> simp [arrayContainsValue, Tri.not, Holds]

end Dialect

theorem holds_placementTerms_some (d : Dialect) (box : String) (row : NodeJob) :
    (placementTerms d (some box) row).Holds ↔
      (∀ items ∈ row.avoidBox, box ∉ items) ∧ ∀ items ∈ row.forceBox, box ∈ items := by
  unfold placementTerms
  rw [holds_and, holds_or, holds_or, holds_isNull, holds_isNull]
  refine and_congr ?_ ?_
  · cases row.avoidBox with
    | none => simp
    | some => simp [Dialect.holds_not_arrayContainsValue]
  · cases row.forceBox with
    | none => simp
    | some => simp [Dialect.holds_arrayContainsValue]

theorem not_holds_placementTerms_none (hforce : row.forceBox ≠ none) :
    ¬ (placementTerms d none row).Holds := by
  obtain ⟨items, hitems⟩ := ne_none_iff_exists'.mp hforce
  unfold placementTerms
  rw [hitems, holds_and]
  rintro ⟨-, hlisted⟩
  rw [holds_or, Dialect.holds_arrayContainsValue] at hlisted
  simp at hlisted

theorem holds_placementTerms_unconstrained {box : Option String} (havoid : row.avoidBox = none)
    (hforce : row.forceBox = none) : (placementTerms d box row).Holds := by
  unfold placementTerms
  simp [havoid, hforce]

theorem holds_placementTerms_avoiding (hforce : row.forceBox = none) :
    (placementTerms .sqlite none row).Holds := by
  unfold placementTerms
  rw [hforce, holds_and, holds_or]
  refine ⟨?_, by simp⟩
  cases row.avoidBox with
  | none => exact Or.inl rfl
  | some => exact Or.inr rfl

def PlacedAlike (box : Option String) (row : NodeJob) : Prop :=
  ((placementTerms .pg box row).Holds ↔ (placementTerms .sqlite box row).Holds) ∧
    (box = none → ∀ d, (placementTerms d box row).Holds →
      row.avoidBox = none ∧ row.forceBox = none)

theorem placement_parity_iff (box : Option String) (row : NodeJob) :
    PlacedAlike box row ↔ box ≠ none ∨ row.avoidBox = none ∨ row.forceBox ≠ none := by
  cases box with
  | some box =>
    refine iff_of_true ⟨?_, fun habsurd => nomatch habsurd⟩ (Or.inl (some_ne_none box))
    rw [holds_placementTerms_some, holds_placementTerms_some]
  | none =>
    constructor
    · rintro ⟨-, hunlisted⟩
      by_cases hforce : row.forceBox = none
      · have htakes := holds_placementTerms_avoiding hforce
        exact Or.inr (Or.inl (hunlisted rfl .sqlite htakes).1)
      · exact Or.inr (Or.inr hforce)
    · rintro (habsurd | hfree)
      · exact absurd rfl habsurd
      · by_cases hforce : row.forceBox = none
        · have havoid : row.avoidBox = none := hfree.resolve_right (not_not_intro hforce)
          have htakes (d : Dialect) : (placementTerms d none row).Holds :=
            holds_placementTerms_unconstrained havoid hforce
          exact ⟨iff_of_true (htakes .pg) (htakes .sqlite), fun _ _ _ => ⟨havoid, hforce⟩⟩
        · have hrefused (d : Dialect) : ¬ (placementTerms d none row).Holds :=
            not_holds_placementTerms_none hforce
          exact ⟨iff_of_false (hrefused .pg) (hrefused .sqlite),
            fun _ d htakes => absurd htakes (hrefused d)⟩

def avoidingRow : NodeJob where
  runId := "r"
  nodeId := "n"
  nodeModule := "m"
  queue := .cpu
  project := ""
  status := .queued
  avoidBox := some ["a"]
  createdAt := 0

/-- A worker without a box name is refused the row on PostgreSQL and takes it on SQLite. -/
theorem nameless_worker_takes_avoiding_row : ¬ (placementTerms .pg none avoidingRow).Holds ∧
      (placementTerms .sqlite none avoidingRow).Holds ∧ ¬ PlacedAlike none avoidingRow := by
  refine ⟨by decide, by decide, fun halike => ?_⟩
  cases halike.1.mpr (by decide)

/-! ### Blocks that raise -/

namespace Activity

def direct : Activity ω → List ω
  | done => []
  | write entry next => entry :: next.direct
  | block _ _ next => next.direct

def inner : Activity ω → List (Activity ω × Bool)
  | done => []
  | write _ next => next.inner
  | block body raised next => (body, raised) :: (body.inner ++ next.inner)

def writes (body : Activity ω) : List ω :=
  body.direct ++ body.inner.flatMap fun entry => entry.1.direct

def lost (body : Activity ω) : List ω :=
  body.inner.flatMap fun entry => if entry.2 then entry.1.direct else []

def innerKept (body : Activity ω) : List ω :=
  body.inner.flatMap fun entry => if entry.2 then [] else entry.1.direct

theorem writes_block (body next : Activity ω) (raised : Bool) : (block body raised next).writes =
      next.direct ++ (body.writes ++ next.inner.flatMap fun entry => entry.1.direct) := by
  simp [writes, direct, inner]

theorem innerKept_block (body next : Activity ω) (raised : Bool) :
    (block body raised next).innerKept =
      (if raised then [] else body.direct) ++ body.innerKept ++ next.innerKept := by
  simp [innerKept, inner]

theorem writes_perm (body : Activity ω) :
    body.writes.Perm (body.direct ++ body.innerKept ++ body.lost) := by
  have hsplit : body.inner.flatMap (fun entry => entry.1.direct) =
      body.inner.flatMap fun entry =>
        (if entry.2 then [] else entry.1.direct) ++ if entry.2 then entry.1.direct else [] := by
    congr 1
    funext entry
    cases entry.2 <;> simp
  unfold writes
  rw [hsplit, append_assoc]
  exact (flatMap_append_perm _ _ _).symm.append_left _

theorem lost_eq_nil_iff (body : Activity ω) :
    body.lost = [] ↔ ∀ entry ∈ body.inner, entry.2 = true → entry.1.direct = [] := by
  unfold lost
  rw [flatMap_eq_nil_iff]
  refine forall₂_congr fun entry _ => ?_
  cases entry.2 <;> simp

end Activity

namespace SharedConn

theorem leave_false (raised : Bool) (conn : SharedConn ω) :
    leave false raised conn = { conn with depth := conn.depth - 1 } := rfl

theorem run_joins (body : Activity ω) {conn : SharedConn ω} (hopen : 0 < conn.depth) :
    (run body conn).committed = conn.committed ∧ (run body conn).depth = conn.depth ∧
      (run body conn).pending.Perm (conn.pending ++ body.writes) := by
  induction body generalizing conn with
  | done => simp [run, Activity.writes, Activity.direct, Activity.inner]
  | write entry next ih =>
    obtain ⟨hcommitted, hdepth, hpending⟩ :=
      ih (show 0 < (conn.execute entry).depth from hopen)
    refine ⟨hcommitted, hdepth, ?_⟩
    have hwrites : conn.pending ++ (Activity.write entry next).writes =
        (conn.execute entry).pending ++ next.writes := by
      simp [Activity.writes, Activity.direct, Activity.inner, execute]
    rwa [hwrites]
  | block body raised next ihBody ihNext =>
    have hne : conn.depth ≠ 0 := hopen.ne'
    obtain ⟨hcommitted, hdepth, hpending⟩ :=
      ihBody (show 0 < conn.enter.depth from Nat.succ_pos _)
    -- the inner block neither commits nor rolls back: only the depth goes down again
    have hleft : leave (decide (conn.depth = 0)) raised (run body conn.enter) =
        { run body conn.enter with depth := conn.depth } := by
      rw [decide_eq_false hne, leave_false, hdepth]
      rfl
    rw [run, hleft]
    obtain ⟨hcommitted', hdepth', hpending'⟩ :=
      ihNext (show 0 < ({ run body conn.enter with depth := conn.depth } : SharedConn ω).depth
        from hopen)
    refine ⟨hcommitted'.trans hcommitted, hdepth', hpending'.trans ?_⟩
    have hentered : conn.enter.pending = conn.pending := if_neg hne
    rw [hentered] at hpending
    refine (hpending.append_right _).trans ?_
    rw [append_assoc]
    refine Perm.append_left _ ?_
    rw [Activity.writes_block]
    exact perm_append_comm_assoc _ _ _

theorem connection_perm (body : Activity ω) (before : List ω) :
    (connection body false { committed := before }).committed.Perm (before ++ body.writes) := by
  obtain ⟨hcommitted, -, hpending⟩ :=
    run_joins body (show 0 < (enter { committed := before }).depth from Nat.one_pos)
  have hshown : (connection body false { committed := before }).committed =
      (run body (enter { committed := before })).committed ++
        (run body (enter { committed := before })).pending := rfl
  rw [hshown, hcommitted]
  exact hpending.append_left before

end SharedConn

namespace PooledConn

theorem run_isolates (body : Activity ω) (conn : PooledConn ω) :
    (run body conn).pending = conn.pending ++ body.direct ∧
      (run body conn).committed.Perm (conn.committed ++ body.innerKept) := by
  induction body generalizing conn with
  | done => simp [run, Activity.direct, Activity.innerKept, Activity.inner]
  | write entry next ih =>
    obtain ⟨hpending, hcommitted⟩ := ih (conn.execute entry)
    refine ⟨hpending.trans ?_, hcommitted⟩
    simp [execute, Activity.direct]
  | block body raised next ihBody ihNext =>
    obtain ⟨hpending, hcommitted⟩ := ihBody { committed := conn.committed }
    obtain ⟨hpending', hcommitted'⟩ :=
      ihNext (conn.leave raised (run body { committed := conn.committed }))
    refine ⟨hpending', hcommitted'.trans ?_⟩
    rw [Activity.innerKept_block, ← append_assoc]
    refine Perm.append_right _ ?_
    cases raised with
    | true => exact hcommitted
    | false =>
      have hshown : (conn.leave false (run body { committed := conn.committed })).committed =
          (run body { committed := conn.committed }).committed ++ body.direct := by
        change _ ++ (run body { committed := conn.committed }).pending = _
        rw [hpending, nil_append]
      rw [hshown]
      refine (hcommitted.append_right _).trans ?_
      rw [append_assoc]
      exact perm_append_comm.append_left _

theorem connection_perm (body : Activity ω) (before : List ω) :
    (connection body false { committed := before }).committed.Perm
      (before ++ (body.direct ++ body.innerKept)) := by
  obtain ⟨hpending, hcommitted⟩ := run_isolates body { committed := before }
  have hshown : (connection body false { committed := before }).committed =
      (run body { committed := before }).committed ++ (run body { committed := before }).pending :=
    rfl
  rw [hshown, hpending, nil_append]
  refine (hcommitted.append_right _).trans ?_
  rw [append_assoc]
  exact perm_append_comm.append_left before

end PooledConn

/-- After a clean outer block, the writes on disk are those from before, its own, and those of the
inner blocks that did not raise. -/
def FailuresLeaveNothing {ω : Type} (before : List ω) (body : Activity ω) (shown : List ω) : Prop :=
  shown.Perm (before ++ (body.direct ++ body.innerKept))

/-- PostgreSQL isolates every inner block that raises. SQLite does so exactly when none of them has
written anything itself. -/
theorem failed_blocks_leave_nothing_iff {ω : Type} (before : List ω) (body : Activity ω) :
    FailuresLeaveNothing before body
        (PooledConn.connection body false { committed := before }).committed ∧
      (FailuresLeaveNothing before body
          (SharedConn.connection body false { committed := before }).committed ↔
        ∀ entry ∈ body.inner, entry.2 = true → entry.1.direct = []) := by
  refine ⟨PooledConn.connection_perm body before, ?_⟩
  have hshared := SharedConn.connection_perm body before
  rw [← Activity.lost_eq_nil_iff]
  constructor
  · intro hnothing
    have hlength := (hshared.symm.trans hnothing).length_eq
    have hsplit := body.writes_perm.length_eq
    simp only [length_append] at hlength hsplit
    exact eq_nil_of_length_eq_zero (by omega)
  · intro hlost
    have hsplit := body.writes_perm
    rw [hlost, append_nil] at hsplit
    exact hshared.trans (hsplit.append_left before)

def drainedEvent : Activity String :=
  .block (.write "run completed" .done) true (.write "attempts + 1" .done)

/-- The callback's write is on disk on SQLite and not on PostgreSQL. -/
theorem failed_callback_write_committed :
    (SharedConn.connection drainedEvent false { committed := [] }).committed =
        ["run completed", "attempts + 1"] ∧
      (PooledConn.connection drainedEvent false { committed := [] }).committed =
        ["attempts + 1"] ∧
      ¬ FailuresLeaveNothing [] drainedEvent
        (SharedConn.connection drainedEvent false { committed := [] }).committed := by
  refine ⟨rfl, rfl, fun hnothing => ?_⟩
  exact absurd hnothing.length_eq (by decide)

/-! ### The frozen lease -/

theorem parseTs_of_strptime {text : List Char} {time : Time} (hne : text ≠ [])
    (hstrip : PyString.strip text = text) (hplain : ∀ c ∈ text, c ≠ 'T' ∧ c ≠ 'Z')
    (hread : TimeText.strptime (text.contains '.') text = some time) :
    parseTs text = .time time := by
  have hblanked : text.map (fun c => if c = 'T' then ' ' else c) = text := by
    refine (map_congr_left fun c hmem => ?_).trans (map_id text)
    exact if_neg (hplain c hmem).1
  have hlast : text.getLast? ≠ some 'Z' := fun hlast =>
    (hplain 'Z' (mem_of_getLast? hlast)).2 rfl
  simp only [parseTs, hstrip, hblanked, if_neg hne, if_neg hlast, hread]

theorem ne_of_isDigit {c : Char} (hdigit : c.isDigit = true) : c ≠ 'T' ∧ c ≠ 'Z' ∧ c ≠ '.' := by
  refine ⟨?_, ?_, ?_⟩ <;> rintro rfl <;> exact absurd hdigit (by decide)

theorem parseTs_secondsText (time : Time) :
    parseTs (TimeText.secondsText time) = .time (time.withMicro 0 (by decide)) := by
  have hchars : ∀ c ∈ TimeText.secondsText time, c ≠ 'T' ∧ c ≠ 'Z' ∧ c ≠ '.' := by
    intro c hmem
    rcases mem_secondsText hmem with hdigit | hsign
    · exact ne_of_isDigit hdigit
    · have hsigns : ∀ c ∈ ['-', ' ', ':'], c ≠ 'T' ∧ c ≠ 'Z' ∧ c ≠ '.' := by simp
      exact hsigns c hsign
  have hwhole : (TimeText.secondsText time).contains '.' = false := by
    rw [contains_eq_mem, decide_eq_false_iff_not]
    exact fun hmem => (hchars _ hmem).2.2 rfl
  refine parseTs_of_strptime (ne_nil_of_length_pos ?_) (strip_secondsText time)
    (fun c hmem => ⟨(hchars c hmem).1, (hchars c hmem).2.1⟩) ?_
  · simp [TimeText.secondsText]
  · rw [hwhole]
    exact strptime_secondsText time

theorem parseTs_millisText (time : Time) : parseTs (TimeText.millisText time) =
      .time (time.withMicro (time.micro / 1000 * 1000) time.millis_lt) := by
  have hchars : ∀ c ∈ TimeText.millisText time, c ≠ 'T' ∧ c ≠ 'Z' := by
    intro c hmem
    rcases mem_millisText hmem with hdigit | hsign
    · exact ⟨(ne_of_isDigit hdigit).1, (ne_of_isDigit hdigit).2.1⟩
    · have hsigns : ∀ c ∈ ['-', ' ', ':', '.'], c ≠ 'T' ∧ c ≠ 'Z' := by simp
      exact hsigns c hsign
  have hfraction : (TimeText.millisText time).contains '.' = true := by
    rw [contains_eq_mem, decide_eq_true_iff]
    exact mem_append_right _ mem_cons_self
  refine parseTs_of_strptime (ne_nil_of_length_pos ?_) (strip_millisText time)
    hchars ?_
  · simp [TimeText.millisText]
  · rw [hfraction]
    exact strptime_millisText time

theorem bound_parseTs_leaseText (writer : LeaseWriter) (expiry : Time) :
    (parseTs (writer.leaseText expiry)).bound = TimeText.secondsText expiry := by
  cases writer with
  | claim =>
    rw [LeaseWriter.leaseText, parseTs_secondsText]
    rfl
  | renewer =>
    rw [LeaseWriter.leaseText, parseTs_millisText]
    rfl

theorem lease_round_trip_iff (writer : LeaseWriter) (expiry : Time) :
    (parseTs (writer.leaseText expiry)).bound = writer.leaseText expiry ↔ writer = .claim := by
  rw [bound_parseTs_leaseText]
  cases writer with
  | claim => exact iff_of_true rfl rfl
  | renewer =>
    exact iff_of_false (secondsText_ne_millisText expiry expiry) LeaseWriter.noConfusion

namespace SqliteStore

variable {store : SqliteStore} {expiry : Time} {id : JobId}

theorem leaseText_claimed
    {result : Db × Option (JobId × NodeJob)} (htook : result.2.map Prod.fst = some id) :
    (store.claimed expiry result).leaseText id = some (LeaseWriter.claim.leaseText expiry) := by
  obtain ⟨after, _ | ⟨taken, row⟩⟩ := result
  · exact nomatch htook
  · obtain rfl : taken = id := Option.some.inj htook
    exact Function.update_self _ _ _

theorem get?_requeueRunningIfLeaseFrozen
    {parent : RunStatus} (expected : Stamp) (hget : store.db.jobs.get? id = some row)
    (hrunning : row.status = .running) (hparent : store.db.runStatus? row.runId = some parent) :
    (store.requeueRunningIfLeaseFrozen id expected).db.jobs.get? id =
      if store.leaseText id = some expected.bound then
        some (row.recover (parent = .running) store.db.now)
      else
        some row := by
  unfold requeueRunningIfLeaseFrozen Db.recoverWhere Db.updateJobs
  rw [Table.get?_update, hget, map_some, hparent]
  by_cases hsame : store.leaseText id = some expected.bound <;> simp [hsame, hrunning]

end SqliteStore

/-- On SQLite the frozen-lease sweep takes a row back exactly when its lease is still the one the
claim wrote: a renewed lease does not survive being read and bound. -/
theorem frozen_lease_reclaimed_iff (store : SqliteStore) (id : JobId) (row : NodeJob)
    (parent : RunStatus) (writer : LeaseWriter) (expiry : TimeText.Time)
    (hget : store.db.jobs.get? id = some row) (hrunning : row.status = .running)
    (hparent : store.db.runStatus? row.runId = some parent)
    (hlease : store.leaseText id = some (writer.leaseText expiry)) :
    ((∀ observed ∈ store.observedLease id, store.leaseText id = some observed.bound) ↔
        writer = .claim) ∧
      ((∀ observed ∈ store.observedLease id,
          (store.requeueRunningIfLeaseFrozen id observed).db.jobs.get? id =
            some (row.recover (parent = .running) store.db.now)) ↔
        writer = .claim) := by
  have hobserved : store.observedLease id = some (parseTs (writer.leaseText expiry)) := by
    rw [SqliteStore.observedLease, hlease]
    rfl
  have hbound : store.leaseText id = some (parseTs (writer.leaseText expiry)).bound ↔
      writer = .claim := by
    rw [hlease, some_inj, eq_comm]
    exact lease_round_trip_iff writer expiry
  simp only [hobserved, mem_some_iff, forall_eq']
  refine ⟨hbound, ?_⟩
  rw [SqliteStore.get?_requeueRunningIfLeaseFrozen _ hget hrunning hparent]
  by_cases hclaim : writer = .claim
  · rw [if_pos (hbound.mpr hclaim)]
    exact iff_of_true rfl hclaim
  · rw [if_neg fun hsame => hclaim (hbound.mp hsame)]
    refine iff_of_false (fun hrecovered => ?_) hclaim
    have hstatus := congrArg NodeJob.status (Option.some.inj hrecovered)
    exact NodeJob.recover_not_running (parent = .running) store.db.now row
      (hstatus.symm.trans hrunning)

def queuedStore : SqliteStore where
  db :=
    { jobs := Table.ofRows [{ avoidingRow with avoidBox := none }]
      runs := OrdDict.empty.insert "r" { workflowName := "w", status := .running } }
  leaseText := fun _ => none

def leaseEnd : TimeText.Time where
  year := 2026
  month := 7
  day := 1
  hour := 12
  minute := 0
  second := 0
  micro := 250000
  year_mem := by decide
  month_mem := by decide
  day_mem := by decide
  hour_lt := by decide
  minute_lt := by decide
  second_lt := by decide
  micro_lt := by decide

def claimedStore : SqliteStore :=
  queuedStore.claimed leaseEnd
    (claimNextCpuJob .sqlite { host := some "box" } {} queuedStore.db)

theorem frozen_lease_reclaimed_iff_claimed : ∃ row, claimedStore.db.jobs.get? 0 = some row ∧
      ∀ observed ∈ claimedStore.observedLease 0,
        (claimedStore.requeueRunningIfLeaseFrozen 0 observed).db.jobs.get? 0 =
          some (row.recover true claimedStore.db.now) := by
  have hlease : claimedStore.leaseText 0 = some (LeaseWriter.claim.leaseText leaseEnd) :=
    SqliteStore.leaseText_claimed (by decide +kernel)
  have hrow : (claimedStore.db.jobs.get? 0).map (fun row =>
      (row.status, claimedStore.db.runStatus? row.runId)) = some (.running, some .running) := by
    decide +kernel
  obtain ⟨row, hget, hfields⟩ := map_eq_some_iff.mp hrow
  obtain ⟨hrunning, hparent⟩ := Prod.mk.inj hfields
  exact ⟨row, hget, (frozen_lease_reclaimed_iff claimedStore 0 row .running .claim leaseEnd hget
    hrunning hparent hlease).2.mpr rfl⟩

/-- After one renewal the worker dies, and the sweep passes its row over. -/
theorem renewed_lease_never_reclaimed : let renewed := claimedStore.renewLease 0 "box" 600 leaseEnd
    (renewed.leaseText 0).map String.ofList = some "2026-07-01 12:00:00.250" ∧
      (renewed.observedLease 0).map (fun observed => String.ofList observed.bound) =
        some "2026-07-01 12:00:00" ∧
      (renewed.observedLease 0).map (fun observed =>
          ((renewed.requeueRunningIfLeaseFrozen 0 observed).db.jobs.get? 0).map NodeJob.status) =
        some (some .running) := by
  decide +kernel

/-! ### The file -/

theorem rdropWhile_slash (front path : List Char) :
    (front ++ '/' :: path).rdropWhile PyString.isSpace =
      front ++ '/' :: path.rdropWhile PyString.isSpace := by
  unfold List.rdropWhile
  rw [reverse_append, reverse_cons, append_assoc, dropWhile_append]
  split
  · rename_i hblank
    rw [isEmpty_iff.mp hblank]
    simp [PyString.isSpace]
  · simp

theorem sqlitePath_url (name : String) (path : List Char) :
    sqlitePath name (some ("sqlite:///".toList ++ path)) =
      let file := path.rdropWhile PyString.isSpace
      .ok (if "//".toList <+: file then file
        else if "/".toList <+: file then file.dropWhile (· = '/')
        else '/' :: file) := by
  have hstrip : PyString.strip ("sqlite:///".toList ++ path) =
      "sqlite:///".toList ++ path.rdropWhile PyString.isSpace :=
    rdropWhile_slash "sqlite://".toList path
  unfold sqlitePath
  rw [getD_some, hstrip]
  simp

/-- The file is the one that was named exactly when its path has two slashes in front and no white
space behind. -/
theorem sqlite_path_named_iff (name : String) (path : List Char) :
    sqlitePath name (some ("sqlite:///".toList ++ path)) = .ok path ↔
      "//".toList <+: path ∧ path.rdropWhile PyString.isSpace = path := by
  rw [sqlitePath_url, Except.ok.injEq]
  constructor
  · split_ifs with htwo hone
    · exact fun hfile => ⟨hfile ▸ htwo, hfile⟩
    · -- at least the first slash is lost
      obtain ⟨rest, hrest⟩ := hone
      have hfile := (List.rdropWhile_prefix PyString.isSpace path).length_le
      have hlost : (rest.dropWhile (· = '/')).length ≤ rest.length :=
        (dropWhile_sublist _).length_le
      rw [← hrest] at hfile ⊢
      rintro rfl
      simp at hfile
      omega
    · -- a slash in front of a path without one
      intro hfile
      refine absurd ?_ hone
      have hslash := rdropWhile_slash [] (path.rdropWhile PyString.isSpace)
      rw [nil_append, hfile] at hslash
      exact hslash ▸ prefix_append ['/'] _
  · rintro ⟨htwo, hfile⟩
    rw [hfile, if_pos htwo]

theorem relative_path_rooted :
    (sqlitePath "DB" (some "sqlite:///queue.db".toList)).map String.ofList = .ok "/queue.db" ∧
      (sqlitePath "DB" (some "sqlite:////var/queue.db".toList)).map String.ofList =
        .ok "var/queue.db" := by
  decide +kernel

/-! ### A bootstrap that is stopped -/

namespace MigratedDb

open Migration BootWrite

variable {κ σ : Type} {exec : κ → σ → Option σ} {migrations todo before rest : List (Migration κ)}
  {db mid done : MigratedDb σ} {repeated : List κ}

/-- The statements alone, without the version table. -/
def executescript (exec : κ → σ → Option σ) (texts : List κ) (schema : σ) : Option σ :=
  texts.foldlM (fun schema text => exec text schema) schema

theorem executescript_append (first second : List κ) (schema : σ) :
    executescript exec (first ++ second) schema =
      (executescript exec first schema).bind (executescript exec second) :=
  foldlM_append ..

theorem statements_eq (texts : List κ) (db : MigratedDb σ) :
    (texts.map statement).foldlM (write exec) db =
      (executescript exec texts db.schema).map fun schema => { db with schema := schema } := by
  induction texts generalizing db with
  | nil => rfl
  | cons text texts ih =>
    simp only [map_cons, foldlM_cons, write, executescript]
    cases exec text db.schema with
    | none => rfl
    | some schema => exact ih _

theorem writes_iff :
    (todo.flatMap writes).foldlM (write exec) db = some done ↔
      ((todo.map version).Nodup ∧ ∀ m ∈ todo, m.version ∉ db.applied) ∧
      executescript exec (todo.flatMap script) db.schema = some done.schema ∧
      done.applied = db.applied ++ todo.map version := by
  induction todo generalizing db with
  | nil =>
    cases db
    cases done
    simp [executescript, eq_comm]
  | cons m todo ih =>
    rw [flatMap_cons, flatMap_cons, writes, foldlM_append, foldlM_append, statements_eq,
      executescript_append]
    cases executescript exec m.script db.schema with
    | none => simp
    | some schema =>
      by_cases hold : m.version ∈ db.applied
      · simp [write, hold]
      · have hnext : foldlM (write exec) { db with schema := schema } [insertVersion m.version] =
            some ⟨schema, db.applied ++ [m.version]⟩ := by
          simp [write, hold]
        simp only [Option.map_some, Option.bind_eq_bind, bind_some, hnext, ih]
        simp
        grind

/-- Some migrations are done, and perhaps the beginning of the next script. -/
theorem prefix_writes_iff {made : List (BootWrite κ)} :
    made <+: todo.flatMap writes ↔
      ∃ before rest repeated, todo = before ++ rest ∧ repeated <+: (rest.take 1).flatMap script ∧
        made = before.flatMap writes ++ repeated.map statement := by
  constructor
  · intro hmade
    induction todo generalizing made with
    | nil => exact ⟨[], [], [], rfl, nil_prefix, by simpa using hmade⟩
    | cons m todo ih =>
      by_cases hwhole : m.writes <+: made
      · obtain ⟨tail, rfl⟩ := hwhole
        obtain ⟨before, rest, repeated, rfl, hrepeated, rfl⟩ :=
          ih ((prefix_append_right_inj _).mp hmade)
        exact ⟨m :: before, rest, repeated, rfl, hrepeated, by simp⟩
      · have hin := Or.resolve_right
          (List.prefix_or_prefix_of_prefix hmade (prefix_append ..)) hwhole
        rcases prefix_concat_iff.mp hin with rfl | hin
        · exact absurd prefix_rfl hwhole
        · obtain ⟨repeated, hrepeated, rfl⟩ := prefix_map_iff.mp hin
          exact ⟨[], m :: todo, repeated, rfl, by simpa using hrepeated, rfl⟩
  · rintro ⟨before, rest, repeated, rfl, hrepeated, rfl⟩
    rw [flatMap_append, prefix_append_right_inj]
    cases rest with
    | nil => simpa using hrepeated
    | cons m rest =>
      have hscript : repeated <+: m.script := by simpa using hrepeated
      exact (hscript.map _).trans ((prefix_append ..).trans (prefix_append ..))

section Resumed

variable (hpending : db.pending migrations = before ++ rest)
  (hnodup : ((db.pending migrations).map version).Nodup)
include hpending hnodup

theorem pending_eq (happlied : mid.applied = db.applied ++ before.map version) :
    mid.pending migrations = rest := by
  have hsplit : mid.pending migrations =
      (db.pending migrations).filter (·.version ∉ before.map version) := by
    simp [pending, happlied, List.filter_filter, Bool.and_comm]
  rw [hpending, map_append, nodup_append] at hnodup
  rw [hsplit, hpending, filter_append, filter_eq_nil_iff.mpr, filter_eq_self.mpr, nil_append]
  · intro m hrest
    simpa using fun other hother =>
      hnodup.2.2 _ (mem_map_of_mem hother) _ (mem_map_of_mem hrest)
  · intro m hbefore
    simpa using ⟨m, hbefore, rfl⟩

theorem resumed_iff
    (hmid : (before.flatMap writes ++ repeated.map statement).foldlM (write exec) db = some mid) :
    mid.bootstrap exec migrations = some done ↔
      executescript exec (before.flatMap script ++ repeated ++ rest.flatMap script) db.schema =
        some done.schema ∧
      done.applied = db.applied ++ (db.pending migrations).map version := by
  rw [foldlM_append, Option.bind_eq_bind, bind_eq_some_iff] at hmid
  obtain ⟨first, hbefore, hrepeated⟩ := hmid
  obtain ⟨-, hscripts, happlied⟩ := writes_iff.mp hbefore
  rw [statements_eq, map_eq_some_iff] at hrepeated
  obtain ⟨schema, hschema, rfl⟩ := hrepeated
  have hrest : pending migrations { first with schema := schema } = rest :=
    pending_eq hpending hnodup happlied
  have hfresh : ∀ m ∈ rest, m.version ∉ first.applied := by
    rw [← hrest]
    exact fun m hm => by simpa using of_mem_filter hm
  rw [hpending, map_append] at hnodup
  rw [bootstrap, hrest, writes_iff, and_iff_right ⟨hnodup.of_append_right, hfresh⟩,
    executescript_append, executescript_append, hscripts, bind_some, hschema, bind_some, happlied,
    hpending, map_append, append_assoc]

end Resumed

/-- Wherever it is stopped, a second `bootstrap` ends as an uninterrupted one exactly when the new
versions are distinct and the scripts still lead to one schema with the beginning of any of them
run twice. -/
theorem bootstrap_survives_iff (exec : κ → σ → Option σ) (migrations : List (Migration κ))
    (db : MigratedDb σ) :
    (∃ done, ∀ mid, Stopped exec migrations db mid → mid.bootstrap exec migrations = some done) ↔
      ((db.pending migrations).map version).Nodup ∧
      ∃ final, ∀ before rest repeated, db.pending migrations = before ++ rest →
        repeated <+: (rest.take 1).flatMap script →
        executescript exec (before.flatMap script ++ repeated ++ rest.flatMap script) db.schema =
          some final := by
  constructor
  · rintro ⟨done, hsafe⟩
    have hwhole := hsafe db ⟨[], nil_prefix, rfl⟩
    have hnodup := (writes_iff.mp hwhole).1.1
    refine ⟨hnodup, done.schema, fun before rest repeated hpending hrepeated => ?_⟩
    have hmade := prefix_writes_iff.mpr ⟨before, rest, repeated, hpending, hrepeated, rfl⟩
    obtain ⟨later, hlater⟩ := id hmade
    rw [bootstrap, ← hlater, foldlM_append, Option.bind_eq_bind, bind_eq_some_iff] at hwhole
    obtain ⟨mid, hmid, -⟩ := hwhole
    exact ((resumed_iff hpending hnodup hmid).mp (hsafe mid ⟨_, hmade, hmid⟩)).1
  · rintro ⟨hnodup, final, hfinal⟩
    refine ⟨⟨final, db.applied ++ (db.pending migrations).map version⟩, ?_⟩
    rintro mid ⟨made, hmade, hmid⟩
    obtain ⟨before, rest, repeated, hpending, hrepeated, rfl⟩ := prefix_writes_iff.mp hmade
    exact (resumed_iff hpending hnodup hmid).mpr
      ⟨hfinal before rest repeated hpending hrepeated, rfl⟩

/-- Stopped between an `ADD COLUMN` and its version, the next boot adds the column again. -/
theorem added_column_twice :
    let addColumn := fun (name : String) columns =>
      if name ∈ columns then none else some (name :: columns)
    let migrations := [⟨1, ["lane"]⟩]
    let mid : MigratedDb (List String) := ⟨["lane"], []⟩
    Stopped addColumn migrations ⟨[], []⟩ mid ∧
      (bootstrap addColumn migrations ⟨[], []⟩).isSome ∧
      bootstrap addColumn migrations mid = none :=
  ⟨⟨[statement "lane"], ⟨[insertVersion 1], rfl⟩, rfl⟩, rfl, rfl⟩

/-- **An upgrade in stages is the upgrade at once.** -/
theorem bootstrap_in_stages (first second : List (Migration κ))
    (hnodup : ((db.pending (first ++ second)).map version).Nodup) :
    db.bootstrap exec (first ++ second) =
      (db.bootstrap exec first).bind (bootstrap exec (first ++ second)) := by
  rw [bootstrap, pending, filter_append, flatMap_append, foldlM_append]
  refine bind_congr fun mid hmid => ?_
  rw [bootstrap, pending_eq (filter_append ..) hnodup (writes_iff.mp hmid).2.2]

theorem bootstrap_in_stages_two :
    let exec := fun (text : ℕ) done => some (text :: done)
    bootstrap exec [⟨1, [3]⟩, ⟨2, [4]⟩] ⟨[], []⟩ =
      (bootstrap exec [⟨1, [3]⟩] ⟨[], []⟩).bind (bootstrap exec [⟨1, [3]⟩, ⟨2, [4]⟩]) :=
  bootstrap_in_stages [_] [_] (by decide)

end MigratedDb

end BrokerParrot
