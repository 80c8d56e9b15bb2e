import BrokerParrot.Claim

/-!
# The threaded cpu lane

A cpu worker with several threads runs as many jobs as fit into its width. How wide a job is stands
on its row, so a claim first reserves all that is free and tells the statement so, and shrinks the
hold to the width of the row that it got.
-/

namespace BrokerParrot

/-- A slot of `_cpu_inflight` and what its thread knows. Until the width is recorded, the entry has
no job and all that was free. -/
inductive CpuSlot where
  | reserved (free : ℤ)
  | claimed (free : ℤ) (id : JobId) (row : NodeJob)
  | held (id : JobId) (row : NodeJob) (weight : ℤ)

def CpuSlot.weight : CpuSlot → ℤ
  | reserved free => free
  | claimed free _ _ => free
  | held _ _ weight => weight

structure CpuLane where
  inflight : OrdDict String CpuSlot := OrdDict.empty
  drained : Bool := true

/-- The statements of the threads. A token is new when it is reserved; a claim runs on the tables as
they are then, and one that raises or finds nothing is followed by the release. -/
inductive CpuLaneStep where
  | reserve (token : String)
  | claim (token : String) (args : CpuClaim) (env : ClaimEnv) (db : Db)
  | setWeight (token : String)
  | release (token : String)

def heldWeight (threads : ℤ) (row : NodeJob) : ℤ :=
  max 1 (min ((row.cpuSlots.filter (· ≠ 0)).getD 1) threads)

def inflightWeight (inflight : OrdDict String CpuSlot) : ℤ :=
  (inflight.collect fun _ slot => some slot.weight).sum

namespace CpuLane

def weight (lane : CpuLane) : ℤ := inflightWeight lane.inflight

def put (lane : CpuLane) (token : String) (slot : CpuSlot) : CpuLane :=
  { lane with inflight := lane.inflight.insert token slot }

def step (d : Dialect) (threads : ℤ) (lane : CpuLane) : CpuLaneStep → CpuLane
  | .reserve token =>
    if (lane.inflight.get? token).isSome ∨ threads - lane.weight < 1 then
      lane
    else
      { lane.put token (.reserved (threads - lane.weight)) with drained := false }
  | .claim token args env db =>
    match lane.inflight.get? token with
    | some (.reserved free) =>
      match (claimNextCpuJob d
        { args with laneWidth := some threads, freeSlots := some free } env db).2 with
      | some (id, row) => lane.put token (.claimed free id row)
      | none => lane
    | _ => lane
  | .setWeight token =>
    match lane.inflight.get? token with
    | some (.claimed _ id row) => lane.put token (.held id row (heldWeight threads row))
    | _ => lane
  | .release token =>
    { inflight := lane.inflight.erase token
      drained := lane.drained || (lane.inflight.erase token).isEmpty }

def run (d : Dialect) (threads : ℤ) (lane : CpuLane) (steps : List CpuLaneStep) : CpuLane :=
  steps.foldl (step d threads) lane

end CpuLane

end BrokerParrot
