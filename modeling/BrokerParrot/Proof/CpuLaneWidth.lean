import Mathlib.Algebra.Order.BigOperators.Group.List
import BrokerParrot.CpuLane
import BrokerParrot.Proof.RowSteps

/-!
# The width of the cpu lane

The claim statement and the worker clamp the width of a row in different orders, and mean the same.
So what is recorded is never more than what was reserved, and since a reservation takes only what is
free, the sum stays within the lane.
-/

namespace BrokerParrot

open OrdDict

variable {threads : ℤ} {lane : CpuLane} {token : String} {slot : CpuSlot} {d : Dialect}

def CpuSlot.Fits (threads : ℤ) : CpuSlot → Prop
  | reserved free => 1 ≤ free
  | claimed free _ row => 1 ≤ free ∧ claimWeight threads row ≤ free
  | held _ row weight => 1 ≤ weight ∧ weight = claimWeight threads row

structure CpuLane.Sound (threads : ℤ) (lane : CpuLane) : Prop where
  fits : ∀ token slot, lane.inflight.get? token = some slot → slot.Fits threads
  within : lane.weight ≤ threads
  drained : lane.drained = true ↔ lane.inflight.isEmpty = true

section

variable {inflight : OrdDict String CpuSlot}

theorem heldWeight_eq_claimWeight (hthreads : 1 ≤ threads) (row : NodeJob) :
    heldWeight threads row = claimWeight threads row := by
  unfold heldWeight claimWeight
  cases row.cpuSlots with
  | none => simp [hthreads]
  | some width =>
    by_cases hzero : width = 0
    · simp [Option.filter, hzero, hthreads]
    · simp only [Option.filter, hzero, ne_eq, not_false_eq_true, decide_true, if_true,
        Option.getD_some]
      omega

theorem claimWeight_le_of_claimed {args : CpuClaim} {env : ClaimEnv} {db : Db} {free : ℤ}
    {id : JobId} {row : NodeJob}
    (hclaimed : (claimNextCpuJob d { args with laneWidth := some threads, freeSlots := some free }
      env db).2 = some (id, row)) : claimWeight threads row ≤ free := by
  unfold claimNextCpuJob at hclaimed
  rcases ClaimSql.execute_cases _ d env db with hnone | ⟨_, found, -, hholds, htaken⟩
  · rw [hnone] at hclaimed
    exact nomatch hclaimed
  · rw [htaken, Option.some.injEq, Prod.mk.injEq] at hclaimed
    obtain ⟨-, rfl⟩ := hclaimed
    exact Tri.holds_ofProp.mp (ClaimSql.eligible_holds.mp hholds).2.2.2.2.2

theorem inflightWeight_eq_add {others : OrdDict String CpuSlot}
    (hget : inflight.get? token = some slot) (hnone : others.get? token = none)
    (hothers : ∀ other, other ≠ token → inflight.get? other = others.get? other) :
    inflightWeight inflight = slot.weight + inflightWeight others := by
  refine (collect_perm_cons token ?_ ?_ fun other hne => ?_).sum_eq
  · simp [OrdDict.seen, hnone]
  · simp [OrdDict.seen, hget]
  · simp [OrdDict.seen, hothers other hne]

theorem weight_put_of_none (slot : CpuSlot) (hnone : lane.inflight.get? token = none) :
    (lane.put token slot).weight = slot.weight + lane.weight :=
  inflightWeight_eq_add (get?_insert_self _ _ _) hnone fun _ hne =>
    get?_insert_of_ne _ _ hne

theorem weight_eq_add_erase (hget : lane.inflight.get? token = some slot) :
    lane.weight = slot.weight + inflightWeight (lane.inflight.erase token) :=
  inflightWeight_eq_add hget (get?_erase_self _ _) fun _ hne =>
    (get?_erase_of_ne _ hne).symm

theorem weight_put_of_some (later : CpuSlot) (hget : lane.inflight.get? token = some slot) :
    (lane.put token later).weight = later.weight + (lane.weight - slot.weight) := by
  have hput : (lane.put token later).weight =
      later.weight + inflightWeight (lane.inflight.erase token) :=
    inflightWeight_eq_add (get?_insert_self _ _ _) (get?_erase_self _ _)
      fun _ hne => by rw [get?_erase_of_ne _ hne]; exact get?_insert_of_ne _ _ hne
  have hbefore := weight_eq_add_erase hget
  omega

theorem CpuSlot.Fits.one_le (hfits : slot.Fits threads) : 1 ≤ slot.weight := by
  cases slot with
  | reserved => exact hfits
  | claimed | held => exact hfits.1

theorem inflightWeight_nonneg
    (hfits : ∀ token slot, inflight.get? token = some slot → slot.Fits threads) :
    0 ≤ inflightWeight inflight := by
  refine List.sum_nonneg fun weight hmem => ?_
  obtain ⟨token, hseen⟩ := mem_collect.mp hmem
  obtain ⟨slot, hget, hweight⟩ := Option.bind_eq_some_iff.mp hseen
  have hone := (hfits token slot hget).one_le
  rw [Option.some.injEq] at hweight
  omega

end

namespace CpuLane

theorem isEmpty_put (lane : CpuLane) (token : String) (slot : CpuSlot) :
    (lane.put token slot).inflight.isEmpty = false := by
  by_contra hempty
  have hnone := get?_of_isEmpty (Bool.not_eq_false _ ▸ hempty) token
  rw [CpuLane.put, get?_insert_self] at hnone
  exact nomatch hnone

variable (hsound : lane.Sound threads)

include hsound

theorem Sound.fits_put (hslot : slot.Fits threads) :
    ∀ other found, (lane.put token slot).inflight.get? other = some found →
      found.Fits threads := by
  intro other found hfound
  by_cases heq : other = token
  · rw [heq, CpuLane.put, get?_insert_self] at hfound
    exact Option.some.inj hfound ▸ hslot
  · rw [CpuLane.put, get?_insert_of_ne _ _ heq] at hfound
    exact hsound.fits other found hfound

theorem Sound.put {later : CpuSlot} (hget : lane.inflight.get? token = some slot)
    (hlater : later.Fits threads) (hle : later.weight ≤ slot.weight) :
    (lane.put token later).Sound threads where
  fits := hsound.fits_put hlater
  within := by
    have hwithin := hsound.within
    rw [weight_put_of_some later hget]
    omega
  drained := by
    refine iff_of_false (fun hdrained => ?_) (by rw [isEmpty_put]; exact Bool.false_ne_true)
    have hnone := get?_of_isEmpty (hsound.drained.mp hdrained) token
    exact nomatch hget.symm.trans hnone

theorem Sound.one_le_threads (hget : lane.inflight.get? token = some slot) : 1 ≤ threads := by
  have hrest : 0 ≤ inflightWeight (lane.inflight.erase token) :=
    inflightWeight_nonneg fun other found hfound =>
      hsound.fits other found (get?_of_erase hfound)
  have hone := (hsound.fits token slot hget).one_le
  calc (1 : ℤ) ≤ slot.weight + inflightWeight (lane.inflight.erase token) := by omega
    _ = lane.weight := (weight_eq_add_erase hget).symm
    _ ≤ threads := hsound.within

theorem Sound.reserve (token : String) : (lane.step d threads (.reserve token)).Sound threads := by
  dsimp only [CpuLane.step]
  split
  · exact hsound
  · next hfree =>
    obtain ⟨hnew, hroom⟩ := not_or.mp hfree
    have hnone := Option.not_isSome_iff_eq_none.mp hnew
    refine ⟨hsound.fits_put (not_lt.mp hroom), ?_, ?_⟩
    · change (lane.put token (.reserved (threads - lane.weight))).weight ≤ threads
      rw [weight_put_of_none _ hnone]
      change threads - lane.weight + lane.weight ≤ threads
      omega
    · refine iff_of_false Bool.false_ne_true ?_
      rw [isEmpty_put]
      exact Bool.false_ne_true

theorem Sound.release (token : String) :
    (lane.step d threads (.release token)).Sound threads where
  fits other slot hget := hsound.fits other slot (get?_of_erase hget)
  within := by
    change inflightWeight (lane.inflight.erase token) ≤ threads
    cases hget : lane.inflight.get? token with
    | none =>
      rw [erase_eq_self hget]
      exact hsound.within
    | some slot =>
      have hone := (hsound.fits token slot hget).one_le
      have hweight := weight_eq_add_erase hget
      have hwithin := hsound.within
      omega
  drained := by
    change (lane.drained || (lane.inflight.erase token).isEmpty) = true ↔ _
    rw [Bool.or_eq_true]
    refine or_iff_right_of_imp fun hdrained => ?_
    rw [eq_empty_of_isEmpty (hsound.drained.mp hdrained)]
    rfl

theorem Sound.step (next : CpuLaneStep) : (lane.step d threads next).Sound threads := by
  cases next with
  | reserve token => exact hsound.reserve token
  | claim token =>
    dsimp only [CpuLane.step]
    split
    · next free hget =>
      split
      · next id row hclaimed =>
        have hfree := hsound.fits token _ hget
        exact hsound.put hget ⟨hfree, claimWeight_le_of_claimed hclaimed⟩ le_rfl
      · exact hsound
    · exact hsound
  | setWeight token =>
    dsimp only [CpuLane.step]
    split
    · next free id row hget =>
      have hthreads := hsound.one_le_threads hget
      have hheld := heldWeight_eq_claimWeight hthreads row
      refine hsound.put hget ⟨le_max_left _ _, hheld⟩ ?_
      exact hheld.trans_le (hsound.fits token _ hget).2
    · exact hsound
  | release token => exact hsound.release token

end CpuLane

/-- **The width of the cpu lane.** The weights that are held never exceed the threads, each is the
one its row was admitted with, and the lane is drained exactly when nothing is held. -/
theorem cpu_lane_within_width (d : Dialect) (threads : ℕ) (steps : List CpuLaneStep) :
    let lane := CpuLane.run d threads {} steps
    lane.weight ≤ threads ∧
      (∀ token id row weight, lane.inflight.get? token = some (.held id row weight) →
        weight = claimWeight threads row) ∧
      (lane.drained = true ↔ lane.inflight.isEmpty = true) := by
  intro lane
  have hstart : ({} : CpuLane).Sound threads :=
    ⟨fun _ _ hget => (nomatch hget), Int.natCast_nonneg threads, iff_of_true rfl rfl⟩
  have hsound : lane.Sound threads :=
    List.foldlRecOn steps (CpuLane.step d threads) hstart fun _ hnow next _ => hnow.step next
  refine ⟨hsound.within, ?_, hsound.drained⟩
  exact fun token id row weight hget => (hsound.fits token _ hget).2

/-! ### The order of the queue -/

/-- What the workers of one pool take in turn, each with its own name and choice in a tie. -/
def servedIds (d : Dialect) (args : CpuClaim) : List (Option String × ℕ) → Db → List JobId
  | [], _ => []
  | (host, tie) :: workers, db =>
    let claim := claimNextCpuJob d { args with host := host } { tie := tie } db
    (claim.2.map Prod.fst).toList ++ servedIds d args workers claim.1

def CpuClaim.waiting (args : CpuClaim) (d : Dialect) (db : Db) : List (JobId × NodeJob) :=
  (args.sql d).candidates d {} db

open List

variable {args : CpuClaim} {db : Db} {id : JobId} {row : NodeJob}

theorem CpuClaim.mem_waiting : (id, row) ∈ args.waiting d db ↔
    db.jobs.get? id = some row ∧ ((args.sql d).eligible d db row).Holds := by
  cases d <;> simp [waiting, ClaimSql.candidates, Table.mem_entries, Dialect.skipLocked]

theorem CpuClaim.waiting_taken (sql : ClaimSql) (hwaits : (id, row) ∈ args.waiting d db) :
    let after := { db with jobs := db.jobs.modify id (sql.take db.now) }
    (args.waiting d db).Perm ((id, row) :: args.waiting d after) := by
  intro after
  have hrow := (mem_waiting.mp hwaits).1
  have hnodup (db : Db) : (args.waiting d db).Nodup := db.jobs.rows.nodupKeys.of_map.filter _
  have htaken (found : NodeJob) : (id, found) ∉ args.waiting d after := by
    rw [mem_waiting, Table.get?_modify_self, hrow]
    rintro ⟨⟨⟩, hholds⟩
    cases (ClaimSql.eligible_holds.mp hholds).2.1
  rw [perm_ext_iff_of_nodup (hnodup db) (nodup_cons.mpr ⟨htaken row, hnodup after⟩)]
  rintro ⟨key, found⟩
  rw [mem_cons]
  by_cases hkey : key = id
  · subst hkey
    rw [or_iff_left (htaken found)]
    refine ⟨fun hfound => ?_, fun hfound => hfound ▸ hwaits⟩
    rw [Option.mem_unique (mem_waiting.mp hfound).1 hrow]
  · rw [or_iff_right fun hsame => hkey (congrArg Prod.fst hsame), mem_waiting, mem_waiting,
      Table.get?_modify_of_ne _ _ hkey]
    rfl

/-- **No row is passed over.** What is taken and what is left are the rows that waited, each once.
None comes before a row that was taken earlier, and some are left only if every worker has one. -/
theorem cpu_queue_in_order (workers : List (Option String × ℕ)) (db : Db) :
    ∃ served left, servedIds d args workers db = served.map Prod.fst ∧
      (served ++ left).Perm (args.waiting d db) ∧
      (∀ before row after, served = before ++ row :: after → ∀ other ∈ after ++ left,
        ¬ (args.sql d).order other.1 other.2 < (args.sql d).order row.1 row.2) ∧
      (left ≠ [] → served.length = workers.length) := by
  induction workers generalizing db with
  | nil => exact ⟨[], args.waiting d db, rfl, .rfl, by simp, fun _ => rfl⟩
  | cons worker workers ih =>
    obtain ⟨host, tie⟩ := worker
    set sql := CpuClaim.sql { args with host := host } d with hsql
    have hraises (row : NodeJob) : ¬ sql.Raises { tie := tie } db row := by
      simp [ClaimSql.Raises, hsql, CpuClaim.sql]
    simp only [servedIds, claimNextCpuJob, ClaimSql.execute, ← hsql, hraises, if_false]
    cases hpick : sql.pick d { tie := tie } db with
    | none =>
      have hnone : args.waiting d db = [] := by
        by_contra hsome
        have hlength := length_pos_iff.mpr (sql.firsts_ne_nil hsome)
        exact (getElem?_eq_none_iff.mp hpick).not_gt (Nat.mod_lt tie hlength)
      obtain ⟨served, left, hserved, hperm, -⟩ := ih db
      obtain ⟨rfl, rfl⟩ := append_eq_nil_iff.mp (hnone ▸ hperm).eq_nil
      exact ⟨[], [], hserved, hperm, by simp, by simp⟩
    | some entry =>
      obtain ⟨hwaits, hleast⟩ := mem_filter.mp (mem_of_getElem? hpick)
      obtain ⟨served, left, hserved, hperm, horder, hall⟩ :=
        ih { db with jobs := db.jobs.modify entry.1 (sql.take db.now) }
      have hwhole := (hperm.cons entry).trans (CpuClaim.waiting_taken sql hwaits).symm
      refine ⟨entry :: served, left, congrArg (entry.1 :: ·) hserved, hwhole, ?_,
        fun hleft => congrArg (· + 1) (hall hleft)⟩
      rintro (_ | ⟨_, before⟩) row after hsplit other hother
      · cases hsplit
        exact of_decide_eq_true hleast other (hwhole.mem_iff.mp (.tail _ hother))
      · exact horder before row after (cons.inj hsplit).2 other hother

end BrokerParrot
