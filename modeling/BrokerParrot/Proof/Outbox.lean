import BrokerParrot.Proof.RowSteps

/-!
# The outbox

Three writers can finish a row: the two finalisers of the executor and the watchdog's fail path. So
the events of a row are exactly its moves into completed and failed by these writers, in the order
they happened, and a writer that finds the row finished already writes nothing.
-/

namespace BrokerParrot

variable {op : QueueOp} {id : JobId} {runId nodeId : String} {d : Dialect}

def movedInto : Option NodeJob → Option NodeJob → Option EventKind
  | some before, some after =>
    if before.status = after.status then
      none
    else
      match after.status with
      | .completed => some .completed
      | .failed => some .failed
      | _ => none
  | _, _ => none

def finaliserMove (d : Dialect) (db : Db) (op : QueueOp) : Option EventKind :=
  op.finaliser.bind fun id => movedInto (db.jobs.get? id) ((op.step d db).jobs.get? id)

def finaliserMoves (d : Dialect) (db : Db) : List QueueOp → List EventKind
  | [] => []
  | op :: rest => (finaliserMove d db op).toList ++ finaliserMoves d (op.step d db) rest

def cellEvents (runId nodeId : String) (db : Db) : List EventKind :=
  db.events.filterMap fun event =>
    if event.runId = runId ∧ event.nodeId = nodeId ∧ event.kind ≠ .awaitingInput then
      some event.kind
    else
      none

def QueueOp.FinalisesOnly (id : JobId) (runId nodeId : String) : QueueOp → Prop
  | .finaliseCompleted job _ _ _ =>
    job.id = id ∧ job.row.runId = runId ∧ job.row.nodeId = nodeId
  | .finaliseFailed job _ _ => job.id = id ∧ job.row.runId = runId ∧ job.row.nodeId = nodeId
  | .failJob target _ => target = id
  | _ => True

theorem QueueOp.FinalisesOnly.target {target : JobId} (honly : op.FinalisesOnly id runId nodeId)
    (hop : op.finaliser = some target) : target = id := by
  cases op with
  | finaliseCompleted | finaliseFailed => exact (Option.some.inj hop).symm.trans honly.1
  | failJob => exact (Option.some.inj hop).symm.trans honly
  | _ => cases hop

theorem movedInto_self (row : Option NodeJob) : movedInto row row = none := by
  cases row <;> simp [movedInto]

theorem movedInto_completed {row after : NodeJob} (hopen : row.status.Open)
    (hstatus : after.status = .completed) :
    movedInto (some row) (some after) = some .completed := by
  simp [movedInto, hstatus, hopen.1]

theorem movedInto_failed {row after : NodeJob} (hopen : row.status.Open)
    (hstatus : after.status = .failed) : movedInto (some row) (some after) = some .failed := by
  simp [movedInto, hstatus, hopen.2.1]

section

variable {db : Db}

theorem cellEvents_append {event : DispatchEvent} {after : Db}
    (hevents : after.events = db.events ++ [event]) :
    cellEvents runId nodeId after = cellEvents runId nodeId db ++
      (if event.runId = runId ∧ event.nodeId = nodeId ∧ event.kind ≠ .awaitingInput then
        [event.kind] else []) := by
  unfold cellEvents
  rw [hevents, List.filterMap_append]
  split_ifs with hcell <;> simp [hcell]

theorem cellEvents_of_not_finaliser (hop : op.finaliser = none) :
    cellEvents runId nodeId (op.step d db) = cellEvents runId nodeId db := by
  have hsame : (op.step d db).events = db.events →
      cellEvents runId nodeId (op.step d db) = cellEvents runId nodeId db := by
    intro hevents
    unfold cellEvents
    rw [hevents]
  cases op with
  | finaliseCompleted | finaliseFailed | failJob => cases hop
  | parkInput job =>
    have hevents : ((QueueOp.parkInput job).step d db).events =
        db.events ++ [⟨job.row.runId, job.row.nodeId, .awaitingInput⟩] :=
      congrArg (· ++ _) (db.transition_jobsOnly job.id _).events
    rw [cellEvents_append hevents]
    simp
  | heartbeat | writeRun | clock => exact hsame rfl
  | _ => exact hsame (step_jobsOnly d db (by trivial)).events

theorem finaliser_cases (hop : op.finaliser = some id) (honly : op.FinalisesOnly id runId nodeId)
    (hcell : ∀ row, db.jobs.get? id = some row → row.runId = runId ∧ row.nodeId = nodeId) :
    op.step d db = db ∨
      ∃ kind, kind ≠ .awaitingInput ∧ finaliserMove d db op = some kind ∧
        (op.step d db).events = db.events ++ [⟨runId, nodeId, kind⟩] := by
  have hmove : ∀ {set : NodeJob → NodeJob} {row : NodeJob} {kind : EventKind},
      db.jobs.get? id = some row → (op.step d db).jobs = db.jobs.modify id set →
        movedInto (some row) (some (set row)) = some kind → finaliserMove d db op = some kind := by
    intro set row kind hget hjobs hmoved
    unfold finaliserMove
    rwa [hop, Option.bind_some, hjobs, Table.get?_modify_self, hget]
  cases op with
  | finaliseCompleted job contextDelta seconds vmRssMbPeak =>
    obtain ⟨rfl, rfl, rfl⟩ := honly
    rcases finaliseCompleted_cases job contextDelta seconds vmRssMbPeak db with
      hmiss | ⟨row, hget, hopen, hhit⟩
    · exact Or.inl (congrArg Prod.fst hmiss)
    · have hstep := congrArg Prod.fst hhit
      exact Or.inr ⟨.completed, by decide,
        hmove hget (congrArg Db.jobs hstep) (movedInto_completed hopen rfl),
        congrArg Db.events hstep⟩
  | finaliseFailed job error seconds =>
    obtain ⟨rfl, rfl, rfl⟩ := honly
    rcases finaliseFailed_cases job error seconds db with hmiss | ⟨row, hget, hopen, hhit⟩
    · exact Or.inl (congrArg Prod.fst hmiss)
    · have hstep := congrArg Prod.fst hhit
      exact Or.inr ⟨.failed, by decide,
        hmove hget (congrArg Db.jobs hstep) (movedInto_failed hopen rfl),
        congrArg Db.events hstep⟩
  | failJob target error =>
    obtain rfl : target = id := honly
    rcases failJobAndExit_cases target error db with hmiss | ⟨row, hget, hopen, hhit⟩
    · exact Or.inl hmiss
    -- The watchdog's event takes the cell from the row itself, not from a held copy.
    · obtain ⟨rfl, rfl⟩ := hcell row hget
      exact Or.inr ⟨.failed, by decide,
        hmove hget (congrArg Db.jobs hhit) (movedInto_failed hopen rfl),
        congrArg Db.events hhit⟩
  | _ => cases hop

theorem finaliserMove_of_same (hsame : op.step d db = db) : finaliserMove d db op = none := by
  unfold finaliserMove
  rw [hsame]
  cases op.finaliser with
  | none => rfl
  | some => exact movedInto_self _

theorem cellEvents_step (honly : op.FinalisesOnly id runId nodeId)
    (hcell : ∀ row, db.jobs.get? id = some row → row.runId = runId ∧ row.nodeId = nodeId) :
    cellEvents runId nodeId (op.step d db) =
      cellEvents runId nodeId db ++ (finaliserMove d db op).toList := by
  cases hop : op.finaliser with
  | none =>
    have hnone : finaliserMove d db op = none := by
      unfold finaliserMove
      rw [hop]
      rfl
    rw [cellEvents_of_not_finaliser hop, hnone]
    simp
  | some target =>
    obtain rfl : target = id := honly.target hop
    rcases finaliser_cases (d := d) hop honly hcell with hsame | ⟨kind, hkind, hmove, hevents⟩
    · rw [finaliserMove_of_same hsame, hsame]
      simp
    · rw [cellEvents_append hevents, hmove, if_pos ⟨rfl, rfl, hkind⟩]
      rfl

end

theorem cellEvents_run {db : Db} {history : List QueueOp} (hissued : IssuedTo id runId nodeId db)
    (honly : ∀ op ∈ history, op.FinalisesOnly id runId nodeId) :
    cellEvents runId nodeId (QueueOp.run d db history) =
      cellEvents runId nodeId db ++ finaliserMoves d db history := by
  induction history generalizing db with
  | nil => exact (List.append_nil _).symm
  | cons op rest ih =>
    have hop : op.FinalisesOnly id runId nodeId := honly op List.mem_cons_self
    have hrest : ∀ other ∈ rest, other.FinalisesOnly id runId nodeId := fun other hmem =>
      honly other (List.mem_cons_of_mem op hmem)
    calc
      cellEvents runId nodeId (QueueOp.run d (op.step d db) rest) =
          cellEvents runId nodeId (op.step d db) ++ finaliserMoves d (op.step d db) rest :=
        ih (hissued.step op) hrest
      _ = cellEvents runId nodeId db ++ finaliserMoves d db (op :: rest) := by
        rw [cellEvents_step hop hissued.cell, List.append_assoc]
        rfl

/-- **The outbox is exact.** The events written for a row are its moves into completed and failed by
the finalisers, one for one, and a finaliser that does not move it writes nothing. -/
theorem outbox_exact (d : Dialect) (db : Db) (id : JobId) (row : NodeJob)
    (hrow : db.jobs.get? id = some row) (history : List QueueOp)
    (honly : ∀ op ∈ history, op.FinalisesOnly id row.runId row.nodeId) :
    cellEvents row.runId row.nodeId (QueueOp.run d db history) =
        cellEvents row.runId row.nodeId db ++ finaliserMoves d db history ∧
      ∀ before op after, history = before ++ op :: after → op.finaliser = some id →
        finaliserMove d (QueueOp.run d db before) op = none →
          (op.step d (QueueOp.run d db before)).events = (QueueOp.run d db before).events := by
  have hissued := IssuedTo.of_get? hrow
  refine ⟨cellEvents_run hissued honly, ?_⟩
  intro before op after hsplit hop hlost
  have hreached : IssuedTo id row.runId row.nodeId (QueueOp.run d db before) :=
    QueueOp.run_invariant _ hissued fun _ other _ hinv => hinv.step other
  have hmine : op.FinalisesOnly id row.runId row.nodeId := honly op (by simp [hsplit])
  rcases finaliser_cases (d := d) hop hmine hreached.cell with hsame | ⟨kind, -, hmove, -⟩
  · rw [hsame]
  · rw [hlost] at hmove
    cases hmove

/-- A worker finishes its row; the watchdog and a second finaliser come too late. -/
theorem outbox_exact_race :
    let row : NodeJob :=
      { runId := "run", nodeId := "a", nodeModule := "m", queue := .cpu, project := "",
        status := .running, claimedBy := some "box", createdAt := 0 }
    let db : Db :=
      { jobs := Table.ofRows [row],
        runs := OrdDict.empty.insert "run" { workflowName := "w", status := .running } }
    let history : List QueueOp :=
      [.requeueForRetry 0, .finaliseCompleted ⟨0, row⟩ [] 1 none, .failJob 0 "watchdog",
        .finaliseFailed ⟨0, row⟩ "late" 2, .cancelQueuedForRun "run"]
    cellEvents "run" "a" (QueueOp.run .pg db history) = finaliserMoves .pg db history ∧
      finaliserMoves .pg db history = [.completed] := by
  intro row db history
  refine ⟨(outbox_exact .pg db 0 row rfl history ?_).1, by decide +kernel⟩
  simp [history, QueueOp.FinalisesOnly]

end BrokerParrot
