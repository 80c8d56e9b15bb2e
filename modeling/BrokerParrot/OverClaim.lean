import BrokerParrot.Dispatcher

/-!
# The over-claim reaper, statement by statement

`reap_over_claimed_boxes` reads what runs and what the boxes advertise in one transaction, and then
re-queues each row that is too many in a transaction of its own.

Two writers advertise the capacity of a GPU worker: its heartbeat, and its model cache whenever the
model on the card changes.
-/

namespace BrokerParrot

def overClaimHits (id : JobId) (db : Db) : Bool :=
  (db.jobs.get? id).any fun row => row.status = .running ∧ (db.runStatus? row.runId).isSome

def requeueVictims : List JobId → DbProg (List JobId)
  | [] => return []
  | id :: rest => do
    let hit ← Prog.exec fun db => (requeueOverClaimedRunning id db, overClaimHits id db)
    let reaped ← requeueVictims rest
    return if hit then id :: reaped else reaped

def reapOverClaimed (queue : Queue) : DbProg (List JobId) := do
  let rows ← Prog.read (runningRows queue)
  let capacity ← Prog.read (advertisedConcurrency queue)
  requeueVictims (overClaimVictims rows capacity)

/-! ### What a GPU worker advertises -/

def beat (host project : String) (slots : ℤ) : QueueOp :=
  .heartbeat ⟨host, .gpu, project⟩ (max 1 slots)

def publishCurrentModel (host project : String) : QueueOp := .heartbeat ⟨host, .gpu, project⟩ 1

end BrokerParrot
