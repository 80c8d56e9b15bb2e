import BrokerParrot.ModelLease
import BrokerParrot.Lib.Prog

/-!
# The lease file, statement by statement

`FileLeaseStore` keeps the box's lease as a JSON text in one file. `update` holds an exclusive lock
while it reads the text, truncates the file in place and writes the new text through a buffered
handle; `read` takes no lock. Here it is the list of its statements, each of which may be the last
one a killed process runs.

The text of a record ends with the brace that closes it. A file with some but not all of the text is
therefore not JSON, and both readers take what is not JSON for an empty record.
-/

namespace BrokerParrot

abbrev LeaseFile := Option LeaseBody

def LeaseFile.body (file : LeaseFile) : LeaseBody := file.getD .blank

def LeaseFile.read (file : LeaseFile) : LeaseState := file.body.state

inductive LeaseError where
  | contended
  deriving DecidableEq, Repr

/-- The content once `written` of the `pieces` in which the text reaches the disk are there. -/
def LeaseBody.partly (state : LeaseState) (written pieces : ℕ) : LeaseBody :=
  if written = 0 then
    .blank
  else if written < pieces then
    .garbled
  else
    .record state.model (some state.holders)

namespace FileLeaseStore

variable {α : Type}

def opened (file : LeaseFile) : LeaseFile := some file.body

/-- Everything from the truncation on, for a text that reaches the disk in `pieces` writes. -/
def rewrite (state : LeaseState) (pieces : ℕ) : Prog LeaseFile LeaseError Unit := do
  Prog.write fun _ => some .blank
  Prog.forEach (List.range pieces) fun written =>
    Prog.write fun _ => some (.partly state (written + 1) pieces)
  -- `fsync`, and the unlock in the `finally`.
  Prog.write id
  Prog.write id

/-- `FileLeaseStore.update`, on a file whose lock is either free or stays taken past the wait. -/
def update (fn : LeaseState → α × LeaseState) (pieces : ℕ) (contended : Bool) :
    Prog LeaseFile LeaseError α := do
  let created ← Prog.read Option.isNone
  Prog.write opened
  if created then
    -- `chmod`: the mode is no part of the content.
    Prog.write id
  if contended then
    Prog.raise .contended
  -- `flock`.
  Prog.write id
  let body ← Prog.read LeaseFile.body
  let outcome := fn body.state
  rewrite outcome.2 pieces
  return outcome.1

end FileLeaseStore

end BrokerParrot
