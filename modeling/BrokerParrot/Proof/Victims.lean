import BrokerParrot.NodeQueue

/-!
# Who is re-queued on a box that runs too much

The victims are what is left of a sort when the capacity is taken off its front. So a kept row never
sorts behind a victim, and the guarantees are read off the keys of two such rows.
-/

namespace BrokerParrot

variable {rows : List RunningRow} {leaseTieS : ℚ} {row : RunningRow}

def RunningRow.Live (rows : List RunningRow) (leaseTieS : ℚ) (row : RunningRow) : Prop :=
  ∃ lease ∈ row.leaseExpiresAt, ∀ other ∈ rows, ∀ fresh ∈ other.leaseExpiresAt,
    fresh - leaseTieS ≤ lease

def RunningRow.StartedBy (row other : RunningRow) : Prop :=
  ∀ start ∈ row.startedAt, ∃ otherStart ∈ other.startedAt, start ≤ otherStart

structure KeptBefore (rows : List RunningRow) (leaseTieS : ℚ) (row victim : RunningRow) :
    Prop where
  live : victim.Live rows leaseTieS → row.Live rows leaseTieS
  oldest : row.Live rows leaseTieS → victim.Live rows leaseTieS → row.StartedBy victim
  leased : victim.leaseExpiresAt.isSome → row.leaseExpiresAt.isSome

structure SparesLive (rows : List RunningRow) (capacity : ℤ) (leaseTieS : ℚ)
    (victims : List JobId) : Prop where
  count : (victims.length : ℤ) = max 0 (rows.length - max capacity 0)
  distinct : victims.Nodup
  known : ∀ id ∈ victims, ∃ row ∈ rows, row.id = id
  kept : ∀ row ∈ rows, ∀ victim ∈ rows, row.id ∉ victims → victim.id ∈ victims →
    KeptBefore rows leaseTieS row victim

section

variable {other : RunningRow} {lease : ℚ}

theorem exists_liveFloor (leaseTieS : ℚ) (hrow : row ∈ rows)
    (hlease : row.leaseExpiresAt = some lease) :
    ∃ floor, liveFloor rows leaseTieS = some floor ∧
      (floor ≤ lease ↔ row.Live rows leaseTieS) := by
  have hmem : lease ∈ rows.filterMap RunningRow.leaseExpiresAt :=
    List.mem_filterMap.mpr ⟨row, hrow, hlease⟩
  obtain ⟨top, htop⟩ := Option.ne_none_iff_exists'.mp
    (mt List.max?_eq_none_iff.mp (List.ne_nil_of_mem hmem))
  obtain ⟨hfound, hmost⟩ := List.max?_eq_some_iff.mp htop
  refine ⟨top - leaseTieS, by rw [liveFloor, htop, Option.map_some], ?_⟩
  constructor
  · intro hle
    refine ⟨lease, hlease, fun found hmember fresh hfresh => ?_⟩
    have hfreshest := hmost fresh (List.mem_filterMap.mpr ⟨found, hmember, hfresh⟩)
    exact (sub_le_sub_right hfreshest leaseTieS).trans hle
  · rintro ⟨own, hown, hfresh⟩
    obtain rfl := Option.mem_unique hlease hown
    obtain ⟨found, hmember, hlast⟩ := List.mem_filterMap.mp hfound
    exact hfresh found hmember top hlast

theorem victimKey_of_live (hrow : row ∈ rows) (hlive : row.Live rows leaseTieS) :
    victimKey (liveFloor rows leaseTieS) row =
      [0, if row.startedAt.isSome then 1 else 0, row.startedAt.getD 0, row.id] := by
  obtain ⟨lease, hlease, -⟩ := id hlive
  obtain ⟨floor, hfloor, hiff⟩ := exists_liveFloor leaseTieS hrow hlease
  unfold victimKey
  rw [hlease, hfloor]
  exact if_pos (hiff.mpr hlive)

theorem victimKey_of_stale (hrow : row ∈ rows) (hlease : row.leaseExpiresAt = some lease)
    (hstale : ¬ row.Live rows leaseTieS) :
    victimKey (liveFloor rows leaseTieS) row = [1, 0, -lease, row.id] := by
  obtain ⟨floor, hfloor, hiff⟩ := exists_liveFloor leaseTieS hrow hlease
  unfold victimKey
  rw [hlease, hfloor]
  exact if_neg (mt hiff.mp hstale)

theorem victimKey_of_leaseless (hnone : row.leaseExpiresAt = none) (floor : Option ℚ) :
    victimKey floor row = [1, 1, 0, (row.id : ℚ)] := by
  unfold victimKey
  rw [hnone]

theorem exists_victimKey_of_not_live (hrow : row ∈ rows) (hdead : ¬ row.Live rows leaseTieS) :
    ∃ rest, victimKey (liveFloor rows leaseTieS) row = 1 :: rest := by
  cases hlease : row.leaseExpiresAt with
  | none => exact ⟨_, victimKey_of_leaseless hlease _⟩
  | some => exact ⟨_, victimKey_of_stale hrow hlease hdead⟩

variable (hrow : row ∈ rows) (hother : other ∈ rows)
  (hsorts : ¬ victimKey (liveFloor rows leaseTieS) other <
    victimKey (liveFloor rows leaseTieS) row)

include hrow hother hsorts

theorem live_of_not_behind (hlive : other.Live rows leaseTieS) :
    row.Live rows leaseTieS := by
  by_contra hdead
  obtain ⟨rest, hkey⟩ := exists_victimKey_of_not_live hrow hdead
  rw [hkey, victimKey_of_live hother hlive] at hsorts
  exact hsorts (List.Lex.rel (by norm_num))

theorem startedBy_of_not_behind (hlive : row.Live rows leaseTieS)
    (hotherLive : other.Live rows leaseTieS) : row.StartedBy other := by
  intro start hstart
  rw [victimKey_of_live hrow hlive, victimKey_of_live hother hotherLive, hstart] at hsorts
  cases hotherStart : other.startedAt with
  | none =>
    rw [hotherStart] at hsorts
    exact absurd (List.Lex.cons (List.Lex.rel (by simp))) hsorts
  | some otherStart =>
    refine ⟨otherStart, rfl, not_lt.mp fun hlater => hsorts ?_⟩
    rw [hotherStart]
    exact List.Lex.cons (List.Lex.cons (List.Lex.rel hlater))

theorem leased_of_not_behind (hleased : other.leaseExpiresAt.isSome) :
    row.leaseExpiresAt.isSome := by
  by_contra hnone
  have hnone : row.leaseExpiresAt = none := Option.not_isSome_iff_eq_none.mp hnone
  obtain ⟨lease, hlease⟩ := Option.isSome_iff_exists.mp hleased
  by_cases hlive : other.Live rows leaseTieS
  · obtain ⟨_, hsome, -⟩ := live_of_not_behind hrow hother hsorts hlive
    cases hnone.symm.trans hsome
  · rw [victimKey_of_leaseless hnone, victimKey_of_stale hother hlease hlive] at hsorts
    exact hsorts (List.Lex.cons (List.Lex.rel (by norm_num)))

end

theorem not_behind_of_kept {capacity : ℤ} (hids : (rows.map RunningRow.id).Nodup)
    {victim : RunningRow} (hrow : row ∈ rows) (hvictim : victim ∈ rows)
    (hkept : row.id ∉ pickOverClaimVictims rows capacity leaseTieS)
    (htaken : victim.id ∈ pickOverClaimVictims rows capacity leaseTieS) :
    ¬ victimKey (liveFloor rows leaseTieS) victim < victimKey (liveFloor rows leaseTieS) row := by
  let key := victimKey (liveFloor rows leaseTieS)
  let ordered := rows.mergeSort fun left right => ¬ key right < key left
  have hsorted : ordered.Pairwise fun left right => (¬ key right < key left : Bool) = true := by
    apply List.pairwise_mergeSort
    · intro a b c hab hbc
      exact decide_eq_true (List.le_trans (of_decide_eq_true hab) (of_decide_eq_true hbc))
    · intro a b
      rw [Bool.or_eq_true, decide_eq_true_eq, decide_eq_true_eq]
      exact List.le_total (key a) (key b)
  have hfront : row ∈ ordered.take capacity.toNat := by
    have hmem : row ∈ ordered := List.mem_mergeSort.mpr hrow
    rw [← List.take_append_drop capacity.toNat ordered] at hmem
    exact (List.mem_append.mp hmem).resolve_right fun hback =>
      hkept (List.mem_map.mpr ⟨row, hback, rfl⟩)
  have hback : victim ∈ ordered.drop capacity.toNat := by
    obtain ⟨found, hfound, hid⟩ := List.mem_map.mp htaken
    have hmem : found ∈ rows := List.mem_mergeSort.mp (List.mem_of_mem_drop hfound)
    exact List.inj_on_of_nodup_map hids hmem hvictim hid ▸ hfound
  rw [← List.take_append_drop capacity.toNat ordered] at hsorted
  exact of_decide_eq_true ((List.pairwise_append.mp hsorted).2.2 row hfront victim hback)

/-- **Over-claim victims.** Exactly the rows beyond the capacity are re-queued: no live one while
another is kept, none that started before a live one that is kept, and rows without a lease first.
-/
theorem over_claim_victims_spare_live (rows : List RunningRow) (capacity : ℤ) (leaseTieS : ℚ)
    (hids : (rows.map RunningRow.id).Nodup) :
    SparesLive rows capacity leaseTieS (pickOverClaimVictims rows capacity leaseTieS) where
  count := by
    simp only [pickOverClaimVictims, List.length_map, List.length_drop, List.length_mergeSort]
    omega
  distinct := by
    refine List.Nodup.sublist (List.Sublist.map _ (List.drop_sublist _ _)) ?_
    exact (((List.mergeSort_perm rows _).map RunningRow.id).nodup_iff).mpr hids
  known := by
    intro id hmem
    obtain ⟨row, hdropped, hid⟩ := List.mem_map.mp hmem
    exact ⟨row, List.mem_mergeSort.mp (List.mem_of_mem_drop hdropped), hid⟩
  kept := by
    intro row hrow victim hvictim hkept htaken
    have hsorts := not_behind_of_kept hids hrow hvictim hkept htaken
    exact ⟨live_of_not_behind hrow hvictim hsorts, startedBy_of_not_behind hrow hvictim hsorts,
      leased_of_not_behind hrow hvictim hsorts⟩

def zombieRows : List RunningRow :=
  [⟨0, "box-gpu", "demo", some 5, some 100⟩, ⟨1, "box-gpu", "demo", some 9, some 95⟩,
    ⟨2, "box-gpu", "demo", some 1, some 10⟩]

theorem over_claim_victims_spare_live_zombie :
    (zombieRows.map RunningRow.id).Nodup ∧
      SparesLive zombieRows 2 30 (pickOverClaimVictims zombieRows 2 30) :=
  ⟨by decide, over_claim_victims_spare_live zombieRows 2 30 (by decide)⟩

end BrokerParrot
