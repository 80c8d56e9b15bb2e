import Mathlib.Algebra.Order.Ring.Int

/-!
# The ticker

`scheduler.py`: an entry of the schedule fires at its minute of every hour or of the hours it names.
The ticker looks for the soonest instant, sleeps in slices until the clock has reached it, enqueues
the entries that were due then, and looks again from the clock as it is. Times are microseconds.
-/

namespace BrokerParrot

def hourLength : ℤ := 3600000000

def hourOf (time : ℤ) : ℕ := (time / hourLength % 24).toNat

/-- `datetime.replace` takes no other minute. -/
structure ScheduleEntry where
  name : String
  minute : ℕ
  taskName : String
  queue : String
  hours : Option (List ℕ) := none
  minute_le : minute ≤ 59 := by decide
  deriving DecidableEq

namespace ScheduleEntry

def walk (hours : List ℕ) : ℕ → ℤ → ℤ
  | 0, candidate => candidate
  | steps + 1, candidate =>
    if hourOf candidate ∈ hours then candidate else walk hours steps (candidate + hourLength)

def candidate (entry : ScheduleEntry) (now : ℤ) : ℤ :=
  let candidate := now / hourLength * hourLength + entry.minute * 60000000
  if candidate ≤ now then candidate + hourLength else candidate

def nextFireAt (entry : ScheduleEntry) (now : ℤ) : ℤ :=
  match entry.hours with
  | none => entry.candidate now
  | some hours => walk hours 24 (entry.candidate now)

end ScheduleEntry

def soonest (schedule : List ScheduleEntry) (now : ℤ) : ℤ × List ScheduleEntry :=
  let first := ((schedule.map fun entry => entry.nextFireAt now).min?).getD now
  (first, schedule.filter fun entry => entry.nextFireAt now = first)

/-- `pending` is what it sleeps for, `fired` what it has enqueued and the instant each was due at.
The first and the last reading of the clock are kept beside. -/
structure Ticker where
  first : ℤ
  last : ℤ
  pending : Option (ℤ × List ScheduleEntry)
  fired : List (ℤ × ScheduleEntry) := []

namespace Ticker

def start (schedule : List ScheduleEntry) (now : ℤ) : Ticker :=
  ⟨now, now, some (soonest schedule now), []⟩

/-- `run_forever` from one reading of the clock to the next, so much later. -/
def step (schedule : List ScheduleEntry) (ticker : Ticker) (elapsed : ℕ) : Ticker :=
  let now := ticker.last + elapsed
  match ticker.pending with
  | none => { ticker with last := now, pending := some (soonest schedule now) }
  | some (instant, due) =>
    if instant ≤ now then
      { ticker with
        last := now
        pending := none
        fired := ticker.fired ++ due.map fun entry => (instant, entry) }
    else
      { ticker with last := now }

end Ticker

end BrokerParrot
