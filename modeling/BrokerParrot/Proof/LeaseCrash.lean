import Mathlib.Tactic.IntervalCases
import BrokerParrot.LeaseStore
import BrokerParrot.Proof.OneModelPerBox

/-!
# A lease update that is killed

What the next process finds after an update was stopped at some statement. Up to the truncation it
is the old record and after the last write the new one. In between the file is empty or cut off, and
either reads as a box that nobody holds.
-/

namespace BrokerParrot

namespace LeaseBody

theorem state_partly_of_lt {state : LeaseState} {written pieces : ℕ} (hlt : written < pieces) :
    (partly state written pieces).state = LeaseState.vacant := by
  unfold partly
  by_cases hzero : written = 0
  · rw [if_pos hzero]
    rfl
  · rw [if_neg hzero, if_pos hlt]
    rfl

theorem partly_full (state : LeaseState) {pieces : ℕ} (hpieces : 0 < pieces) :
    partly state pieces pieces = .record state.model (some state.holders) := by
  unfold partly
  rw [if_neg (by omega), if_neg (by omega)]

end LeaseBody

namespace FileLeaseStore

variable {α : Type}

theorem foldl_pieces (state : LeaseState) (pieces written : ℕ) :
    (List.range written).foldl
        (fun _ index => some (LeaseBody.partly state (index + 1) pieces)) (some .blank) =
      some (LeaseBody.partly state written pieces) := by
  cases written with
  | zero => rfl
  | succ => rw [List.range_succ, List.foldl_append, List.foldl_cons, List.foldl_nil]

theorem killed_rewrite {next : Unit → Prog LeaseFile LeaseError α} (state : LeaseState)
    (pieces count : ℕ) (file : LeaseFile)
    (hnext : ∀ rest file, Prog.killed rest (next ()) file = file) :
    Prog.killed (count + 1) (rewrite state pieces >>= next) file =
      some (LeaseBody.partly state (min count pieces) pieces) := by
  unfold rewrite
  rw [Prog.bind_assoc, Prog.killed_write_bind, Prog.bind_assoc, Prog.killed_forEach_write,
    List.length_range]
  by_cases hcount : count ≤ pieces
  · rw [if_pos hcount, List.take_range, foldl_pieces]
  · -- What is left are the `fsync` and the unlock.
    rw [if_neg hcount, foldl_pieces, Nat.min_eq_right (by omega)]
    obtain ⟨rest, hrest⟩ : ∃ rest, count - pieces = rest + 1 := ⟨count - pieces - 1, by omega⟩
    rw [hrest, Prog.bind_assoc, Prog.killed_write_bind]
    cases rest with
    | zero => rfl
    | succ rest =>
      exact hnext rest _

def prologue (file : LeaseFile) : ℕ := if file.isNone then 5 else 4

variable (fn : LeaseState → α × LeaseState) (pieces count : ℕ) (file : LeaseFile)

theorem killed_update_of_prologue :
    Prog.killed (prologue file + count) (update fn pieces false) file =
      Prog.killed count (rewrite (fn file.read).2 pieces >>= fun _ => pure (fn file.read).1)
        (opened file) := by
  rw [Nat.add_comm]
  cases file with
  | none | some => rfl

theorem body_killed_prologue (hcount : count ≤ prologue file) :
    LeaseFile.body (Prog.killed count (update fn pieces false) file) = file.body := by
  cases file with
  | none =>
    have hle : count ≤ 5 := hcount
    interval_cases count <;> rfl
  | some =>
    have hle : count ≤ 4 := hcount
    interval_cases count <;> rfl

theorem killed_update :
    Prog.killed (prologue file + (count + 1)) (update fn pieces false) file =
      some (.partly (fn file.read).2 (min count pieces) pieces) := by
  rw [killed_update_of_prologue, killed_rewrite]
  intro rest file
  exact Prog.killed_ret rest _ file

theorem killed_update_of_le (hcount : prologue file + (pieces + 2) ≤ count) :
    Prog.killed count (update fn (pieces + 1) false) file = some (file.body.update fn).2 := by
  obtain ⟨rest, rfl⟩ := Nat.exists_eq_add_of_le hcount
  have hsplit : prologue file + (pieces + 2) + rest =
      prologue file + ((pieces + 1 + rest) + 1) := by omega
  rw [hsplit, killed_update, Nat.min_eq_right (by omega), LeaseBody.partly_full _ (by omega)]
  rfl

theorem body_killed_contended :
    LeaseFile.body (Prog.killed count (update fn pieces true) file) = file.body := by
  have hraise : ∀ (rest : ℕ) (file : LeaseFile),
      Prog.killed rest (Prog.raise .contended : Prog LeaseFile LeaseError α) file = file := by
    intro rest file
    induction rest with
    | zero => rfl
    | succ rest ih => exact ih
  match count, file with
  | 0, file => rfl
  | 1, file => rfl
  | 2, file => rfl
  | count + 3, none =>
    have hfile : Prog.killed (count + 3) (update fn pieces true) none = some .blank :=
      hraise count _
    rw [hfile]
    rfl
  | count + 3, some body => exact congrArg LeaseFile.body (hraise (count + 1) _)

def Midway (file : LeaseFile) (pieces count : ℕ) : Prop :=
  prologue file < count ∧ count < prologue file + (pieces + 1)

instance (file : LeaseFile) (pieces count : ℕ) : Decidable (Midway file pieces count) :=
  inferInstanceAs (Decidable (_ ∧ _))

theorem read_killed_of_midway {fn : LeaseState → α × LeaseState} {pieces count : ℕ}
    {file : LeaseFile} (hmidway : Midway file pieces count) :
    LeaseFile.read (Prog.killed count (update fn pieces false) file) = LeaseState.vacant := by
  obtain ⟨hlate, hearly⟩ := hmidway
  obtain ⟨written, rfl⟩ := Nat.exists_eq_add_of_lt hlate
  have hwritten : written < pieces := by omega
  rw [Nat.add_assoc, killed_update, Nat.min_eq_left hwritten.le]
  exact LeaseBody.state_partly_of_lt hwritten

theorem read_killed_of_not_midway {fn : LeaseState → α × LeaseState} {pieces count : ℕ}
    {file : LeaseFile} (hmidway : ¬ Midway file (pieces + 1) count) :
    LeaseFile.read (Prog.killed count (update fn (pieces + 1) false) file) = file.read ∨
      LeaseFile.read (Prog.killed count (update fn (pieces + 1) false) file) =
        (fn file.read).2 := by
  by_cases hearly : count ≤ prologue file
  · left
    exact congrArg LeaseBody.state (body_killed_prologue fn (pieces + 1) count file hearly)
  · right
    have hlate : prologue file + (pieces + 2) ≤ count := by
      unfold Midway at hmidway
      omega
    rw [killed_update_of_le fn pieces count file hlate]
    rfl

/-- **What a killed update leaves.** The next reader sees the old record or the new one exactly if
the lock was not got, or the process did not stop between the truncation and the last write, or one
of the two is vacant. Then the live entries of others are still there. -/
theorem killed_update_atomic_iff {α : Type} (fn : LeaseState → α × LeaseState) (file : LeaseFile)
    (contended : Bool) (more count : ℕ) :
    let seen {β : Type} (rule : LeaseState → β × LeaseState) :=
      LeaseFile.read (Prog.killed count (update rule (more + 1) contended) file)
    let Whole (after : LeaseState) : Prop := contended = true ∨ ¬ Midway file (more + 1) count ∨
      file.read = LeaseState.vacant ∨ after = LeaseState.vacant
    ((seen fn = file.read ∨ seen fn = (fn file.read).2) ↔ Whole (fn file.read).2) ∧
      ∀ (lease : ModelLease) (event : LeaseEvent), event.Timely →
        Whole (lease.txn event.call file.read).2 →
          ∀ other expiry, other ≠ lease.holder →
            file.read.holders.get? other = some expiry → event.commit < expiry →
              (seen (lease.txn event.call)).holders.get? other = some expiry := by
  intro seen Whole
  have hwhole : ∀ {β : Type} (rule : LeaseState → β × LeaseState),
      (seen rule = file.read ∨ seen rule = (rule file.read).2) ↔ Whole (rule file.read).2 := by
    intro β rule
    cases contended with
    | true =>
      have hbefore : seen rule = file.read :=
        congrArg LeaseBody.state (body_killed_contended rule (more + 1) count file)
      exact iff_of_true (Or.inl hbefore) (Or.inl rfl)
    | false =>
      by_cases hmidway : Midway file (more + 1) count
      · have hseen : seen rule = LeaseState.vacant := read_killed_of_midway hmidway
        rw [hseen]
        simp only [Whole, hmidway, not_true_eq_false, Bool.false_eq_true, false_or, eq_comm]
      · exact iff_of_true (read_killed_of_not_midway hmidway) (Or.inr (Or.inl hmidway))
  refine ⟨hwhole fn, ?_⟩
  intro lease event htimely hcondition other expiry hne hentry hlive
  rcases (hwhole (lease.txn event.call)).mpr hcondition with hbefore | hafter
  · rw [hbefore, hentry]
  · rw [hafter]
    exact LeaseState.get?_txn_of_ne lease htimely hne hentry hlive

/-- A worker that joins the holders of a model is killed right after it truncated the file: the
entry of the holder that was there, good until 200, is gone. -/
theorem killed_after_truncate_forgets :
    let file : LeaseFile := some (.record (some "image") (some (OrdDict.empty.insert "a" 200)))
    let lease : ModelLease := { holder := "b" }
    let seen := LeaseFile.read
      (Prog.killed 5 (update (lease.txn (.acquire "image" 100)) 1 false) file)
    file.read.holders.get? "a" = some 200 ∧ seen ≠ file.read ∧
      seen ≠ (lease.txn (.acquire "image" 100) file.read).2 ∧ seen.holders.get? "a" = none := by
  decide +kernel

end FileLeaseStore

end BrokerParrot
