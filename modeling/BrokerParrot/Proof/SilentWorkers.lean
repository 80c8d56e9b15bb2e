import BrokerParrot.Fleet
import BrokerParrot.Lib.History

/-!
# A dead worker is reported once

The sweep is kept from reporting a silent worker again by the age of its last flag, and a flag ages
like a heartbeat. So a worker is reported once for each silence as long as no sweep finds a flag
that is older than the threshold of the sweep.
-/

namespace BrokerParrot

open Option

namespace DeadFlags

structure Watch where
  board : DeadFlags
  reported : WorkerKey → Bool := fun _ => false

inductive WatchOp where
  | queue (op : QueueOp)
  | sweep (project : String) (staleAfterS : Option ℤ)

def beats (worker : WorkerKey) : QueueOp → Bool
  | .heartbeat other _ => other = worker
  | _ => false

def threshold (defaultS : ℤ) (staleAfterS : Option ℤ) : ℚ := (staleAfterS.map (max 1)).getD defaultS

variable (d : Dialect) (defaultS : ℤ) {watch : Watch}

def step (watch : Watch) : WatchOp → Watch
  | .queue op =>
    { board :=
        { db := op.step d watch.board.db
          flaggedAt := fun worker =>
            if beats worker op then none else watch.board.flaggedAt worker }
      reported := fun worker => !beats worker op && watch.reported worker }
  | .sweep project staleAfterS =>
    let swept := watch.board.flagStaleWorkersHoldingRunningJobs project
      (threshold defaultS staleAfterS)
    { board := swept.1
      reported := fun worker =>
        worker ∈ swept.2.map StaleWorker.worker || watch.reported worker }

def ReportsOnce (watch : Watch) (op : WatchOp) : Prop :=
  ∀ project staleAfterS, op = .sweep project staleAfterS →
    ∀ row ∈ (watch.board.flagStaleWorkersHoldingRunningJobs project
      (threshold defaultS staleAfterS)).2, watch.reported row.worker = false

def InTime (watch : Watch) (op : WatchOp) : Prop :=
  ∀ project staleAfterS, op = .sweep project staleAfterS →
    ∀ worker beat, watch.board.db.heartbeats.get? worker = some beat →
      watch.board.Silent project (threshold defaultS staleAfterS) worker beat →
      ∀ flagged, watch.board.flaggedAt worker = some flagged →
        watch.board.db.now - threshold defaultS staleAfterS ≤ flagged

theorem mem_staleWorkers {board : DeadFlags} {project : String} {thresholdS : ℚ}
    {worker : WorkerKey} :
    worker ∈ (board.staleWorkers project thresholdS).map StaleWorker.worker ↔
      ∃ beat, board.db.heartbeats.get? worker = some beat ∧
        board.Silent project thresholdS worker beat ∧ board.FlagAged thresholdS worker := by
  rw [List.mem_map]
  constructor
  · rintro ⟨row, hrow, rfl⟩
    obtain ⟨key, hseen⟩ := OrdDict.mem_collect.mp hrow
    obtain ⟨beat, hget, hshown⟩ := bind_eq_some_iff.mp hseen
    dsimp only at hshown
    split_ifs at hshown with hstale
    cases hshown
    exact ⟨beat, hget, hstale⟩
  · rintro ⟨beat, hget, hstale⟩
    refine ⟨⟨worker, beat.lastSeen, board.runningJobs worker⟩, ?_, rfl⟩
    refine OrdDict.mem_collect.mpr ⟨worker, ?_⟩
    exact bind_eq_some_iff.mpr ⟨beat, hget, if_pos hstale⟩

def Matches (watch : Watch) : Prop :=
  ∀ worker, (watch.board.flaggedAt worker).isSome = watch.reported worker

theorem Matches.step (hmatches : Matches watch) (op : WatchOp) :
    Matches (step d defaultS watch op) := by
  intro worker
  cases op with
  | queue op =>
    change (if beats worker op then none else watch.board.flaggedAt worker).isSome =
      (!beats worker op && watch.reported worker)
    cases beats worker op with
    | true => rfl
    | false => exact hmatches worker
  | sweep =>
    dsimp only [DeadFlags.step, flagStaleWorkersHoldingRunningJobs]
    split
    · next hmem => simp [hmem]
    · next hmem => simp [hmem, hmatches worker]

theorem reportsOnce_iff (hmatches : Matches watch) (op : WatchOp) :
    ReportsOnce defaultS watch op ↔ InTime defaultS watch op := by
  refine forall₃_congr fun project staleAfterS _ => ?_
  constructor
  · intro honce worker beat hget hsilent flagged hflagged
    by_contra hold
    have haged : watch.board.FlagAged (threshold defaultS staleAfterS) worker := by
      intro other hother
      obtain rfl : flagged = other := mem_unique hflagged hother
      exact not_le.mp hold
    obtain ⟨row, hrow, rfl⟩ := List.mem_map.mp (mem_staleWorkers.mpr ⟨beat, hget, hsilent, haged⟩)
    have hsome := hmatches row.worker
    rw [honce row hrow, hflagged] at hsome
    cases hsome
  · intro hintime row hrow
    obtain ⟨beat, hget, hsilent, haged⟩ := mem_staleWorkers.mp (List.mem_map_of_mem hrow)
    rw [← hmatches row.worker, isSome_eq_false_iff, isNone_iff_eq_none]
    by_contra hsome
    obtain ⟨flagged, hflagged⟩ := ne_none_iff_exists'.mp hsome
    exact (haged flagged hflagged).not_ge (hintime _ _ hget hsilent flagged hflagged)

/-- **A dead worker is reported once per silence** in a run, if and only if no sweep of the run
finds a silent worker with a flag older than its threshold. -/
theorem reported_once_iff (db : Db) (history : List WatchOp) :
    History.Throughout (step d defaultS) (ReportsOnce defaultS) { board := { db := db } } history ↔
      History.Throughout (step d defaultS) (InTime defaultS) { board := { db := db } } history :=
  History.throughout_iff (fun _ op hmatches _ => hmatches.step d defaultS op)
    (fun _ op hmatches => reportsOnce_iff defaultS hmatches op) (fun _ => rfl) history

/-- One worker, silent for two thresholds. -/
theorem silent_worker_reported_twice :
    let row : NodeJob :=
      { runId := "run", nodeId := "n", nodeModule := "m", queue := .gpu, project := "",
        status := .running, claimedBy := some "box", createdAt := 0 }
    ¬ History.Throughout (step .pg 30) (ReportsOnce 30)
      { board := { db := { jobs := Table.ofRows [row] } } }
      [.queue (.heartbeat ⟨"box", .gpu, ""⟩ 1), .queue (.clock 31), .sweep "" none,
        .queue (.clock 62), .sweep "" none] := by
  intro row honce
  have hsecond := honce [.queue (.heartbeat ⟨"box", .gpu, ""⟩ 1), .queue (.clock 31),
    .sweep "" none, .queue (.clock 62)] (.sweep "" none) [] rfl "" none rfl
    ⟨⟨"box", .gpu, ""⟩, 0, 1⟩
  exact absurd (hsecond (by decide +kernel)) (by decide +kernel)

end DeadFlags

end BrokerParrot
