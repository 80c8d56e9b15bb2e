import Mathlib.Data.Rat.Defs
import BrokerParrot.Lib.OrdDict

/-!
# The frozen-lease detector

A live claimant moves the lease of its row every few seconds; the lease of a dead one stands still.
The orchestrator samples the leases of the running rows and keeps for each job the lease it saw last
and since when it has not moved.
-/

namespace BrokerParrot

namespace FrozenLeases

variable {κ ν : Type} [DecidableEq κ] [DecidableEq ν]

abbrev Sample (κ ν : Type) [DecidableEq κ] := OrdDict κ (ν × ℚ)

def frozenSince (prevSample : Sample κ ν) (now : ℚ) (job : κ) (lease : ν) : ℚ :=
  match prevSample.get? job with
  | some (held, since) => if held = lease then since else now
  | none => now

def detectFrozenLeases (prevSample : Sample κ ν) (rows : List (κ × ν)) (now frozenAfterS : ℚ) :
    List (κ × ν) × Sample κ ν :=
  (rows.filter fun row => frozenAfterS ≤ now - frozenSince prevSample now row.1 row.2,
    rows.foldl
      (fun newSample row =>
        newSample.insert row.1 (row.2, frozenSince prevSample now row.1 row.2))
      OrdDict.empty)

/-- The running rows with their leases at one time. A row has one id. -/
structure Snapshot (κ ν : Type) where
  time : ℚ
  rows : List (κ × ν)
  nodupJobs : (rows.map Prod.fst).Nodup

def sampleAfter (frozenAfterS : ℚ) (history : List (Snapshot κ ν)) : Sample κ ν :=
  history.foldl
    (fun sample snapshot =>
      (detectFrozenLeases sample snapshot.rows snapshot.time frozenAfterS).2)
    OrdDict.empty

def reported (frozenAfterS : ℚ) (history : List (Snapshot κ ν)) (snapshot : Snapshot κ ν) :
    List (κ × ν) :=
  (detectFrozenLeases (sampleAfter frozenAfterS history) snapshot.rows snapshot.time
    frozenAfterS).1

end FrozenLeases

end BrokerParrot
