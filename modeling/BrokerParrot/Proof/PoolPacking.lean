import BrokerParrot.Fleet

/-!
# Packing never stalls the fleet

A box defers to a better ranked one that has room. Rank is a strict order on the fresh boxes of a
project, so among the boxes with room one is ranked highest; nobody with room stands above it, and
it claims.
-/

namespace BrokerParrot

open List

theorem exists_mem_forall_not {α : Type} {above : α → α → Prop}
    (hirrefl : ∀ a, ¬ above a a) (htrans : ∀ a b c, above a b → above b c → above a c)
    {items : List α} (hne : items ≠ []) : ∃ top ∈ items, ∀ other ∈ items, ¬ above other top := by
  induction items with
  | nil => exact absurd rfl hne
  | cons first rest ih =>
    by_cases hrest : rest = []
    · subst hrest
      exact ⟨first, mem_cons_self, by simpa using hirrefl first⟩
    · obtain ⟨top, htop, hnone⟩ := ih hrest
      by_cases habove : above first top
      · refine ⟨first, mem_cons_self, forall_mem_cons.mpr ⟨hirrefl first, ?_⟩⟩
        exact fun other hmem hover => hnone other hmem (htrans other first top hover habove)
      · exact ⟨top, mem_cons_of_mem _ htop, forall_mem_cons.mpr ⟨habove, hnone⟩⟩

namespace PoolFeeder

variable {args : PoolFeeder} {collation : Collation} {db : Db} {d : Dialect}
  {top : WorkerKey × Heartbeat}

def asBox (args : PoolFeeder) (entry : WorkerKey × Heartbeat) : PoolFeeder :=
  { args with hostLabel := entry.1.hostLabel, par := entry.2.concurrency }

structure Free (args : PoolFeeder) (db : Db) (entry : WorkerKey × Heartbeat) : Prop where
  listed : entry ∈ db.heartbeats.entries
  fresh : args.Fresh db entry.1 entry.2
  room : args.HasRoom db entry.1 entry.2

def Above (collation : Collation) (entry other : WorkerKey × Heartbeat) : Prop :=
  other.2.concurrency < entry.2.concurrency ∨
    (entry.2.concurrency = other.2.concurrency ∧
      collation.lt entry.1.hostLabel other.1.hostLabel = true)

theorem above_irrefl (entry : WorkerKey × Heartbeat) : ¬ Above collation entry entry := by
  rintro (hlt | ⟨-, hlabel⟩)
  · exact lt_irrefl _ hlt
  · exact absurd hlabel (by simp [collation.irrefl])

theorem above_trans (a b c : WorkerKey × Heartbeat) (hab : Above collation a b)
    (hbc : Above collation b c) : Above collation a c := by
  rcases hab with hab | ⟨hab, hlab⟩ <;> rcases hbc with hbc | ⟨hbc, hlbc⟩
  · exact Or.inl (hbc.trans hab)
  · exact Or.inl (hbc ▸ hab)
  · exact Or.inl (hab ▸ hbc)
  · exact Or.inr ⟨hab.trans hbc, collation.trans _ _ _ hlab hlbc⟩

structure HighestFree (args : PoolFeeder) (collation : Collation) (db : Db)
    (entry : WorkerKey × Heartbeat) : Prop extends args.Free db entry where
  highest : ∀ other, args.Free db other → ¬ Above collation other entry

theorem exists_highestFree (hfree : ∃ entry, args.Free db entry) :
    ∃ top, args.HighestFree collation db top := by
  have hmem (entry : WorkerKey × Heartbeat) :
      entry ∈ db.heartbeats.entries.filter (fun entry =>
        args.Fresh db entry.1 entry.2 ∧ args.HasRoom db entry.1 entry.2) ↔ args.Free db entry := by
    rw [mem_filter, decide_eq_true_iff]
    exact ⟨fun h => ⟨h.1, h.2.1, h.2.2⟩, fun h => ⟨h.listed, h.fresh, h.room⟩⟩
  obtain ⟨entry, hentry⟩ := hfree
  obtain ⟨top, htop, hnone⟩ := exists_mem_forall_not above_irrefl above_trans
    (ne_nil_of_mem ((hmem entry).mpr hentry))
  exact ⟨top, (hmem top).mp htop, fun other hother => hnone other ((hmem other).mpr hother)⟩

theorem HighestFree.unique {other : WorkerKey × Heartbeat}
    (htop : args.HighestFree collation db top) (hother : args.HighestFree collation db other) :
    top = other := by
  have hbelow := htop.highest other hother.toFree
  have habove := hother.highest top htop.toFree
  have hslots : top.2.concurrency = other.2.concurrency := by
    refine le_antisymm ?_ ?_
    · exact not_lt.mp fun hlt => habove (Or.inl hlt)
    · exact not_lt.mp fun hlt => hbelow (Or.inl hlt)
  have hlabel : top.1.hostLabel = other.1.hostLabel := by
    by_contra hne
    rcases collation.total _ _ hne with hlt | hlt
    · exact habove (Or.inr ⟨hslots, hlt⟩)
    · exact hbelow (Or.inr ⟨hslots.symm, hlt⟩)
  have hkey : top.1 = other.1 := by
    obtain ⟨hqueue, hproject, -⟩ := htop.fresh
    obtain ⟨hqueue', hproject', -⟩ := hother.fresh
    obtain ⟨⟨host, queue, project⟩, beat⟩ := top
    obtain ⟨⟨host', queue', project'⟩, beat'⟩ := other
    simp only at hlabel hqueue hproject hqueue' hproject' ⊢
    rw [hlabel, hqueue, hproject, hqueue', hproject']
  have hget := OrdDict.mem_entries.mp htop.listed
  have hget' := OrdDict.mem_entries.mp hother.listed
  rw [hkey, hget'] at hget
  exact Prod.ext hkey (Option.some.inj hget).symm

theorem defer_eq_false_of_highestFree (htop : args.HighestFree collation db top) :
    vlmPoolShouldDefer d collation (args.asBox top) db = false := by
  refine Bool.and_eq_false_imp.mpr fun hroom => ?_
  -- the box it would wait for is itself free, and ranked above the highest free one
  obtain ⟨other, hlisted, hfresh, habove, hfree⟩ := of_decide_eq_true hroom
  exact absurd habove (htop.highest other ⟨hlisted, hfresh, hfree⟩)

theorem defer_eq_false_of_starving
    (hstarving : ∃ entry ∈ db.jobs.entries, args.Starving d db entry.2) :
    vlmPoolShouldDefer d collation args db = false := by
  unfold vlmPoolShouldDefer
  rw [decide_eq_true hstarving, Bool.not_true, Bool.and_false]

end PoolFeeder

/-- Whenever a fresh box of the project has room, exactly one of them is ranked highest, and it does
not defer; and no box defers while a row that it could take is starving. -/
theorem packing_never_stalls (d : Dialect) (collation : Collation) (args : PoolFeeder) (db : Db) :
    ((∃ entry, args.Free db entry) →
        ∃! top, args.HighestFree collation db top) ∧
      (∀ top, args.HighestFree collation db top →
        vlmPoolShouldDefer d collation (args.asBox top) db = false) ∧
      ((∃ entry ∈ db.jobs.entries, args.Starving d db entry.2) →
        vlmPoolShouldDefer d collation args db = false) := by
  refine ⟨fun hfree => ?_, fun top htop => PoolFeeder.defer_eq_false_of_highestFree htop,
    PoolFeeder.defer_eq_false_of_starving⟩
  obtain ⟨top, htop⟩ := PoolFeeder.exists_highestFree hfree
  exact ⟨top, htop, fun other hother => hother.unique htop⟩

def idleBoxes : Db where
  heartbeats := (OrdDict.empty.insert ⟨"big", .gpu, ""⟩ ⟨4, 0⟩).insert ⟨"small", .gpu, ""⟩ ⟨1, 0⟩

theorem packing_never_stalls_two :
    ∃ top, PoolFeeder.HighestFree { hostLabel := "small", par := 1 } .binary idleBoxes top ∧
      vlmPoolShouldDefer .pg .binary
        (PoolFeeder.asBox { hostLabel := "small", par := 1 } top) idleBoxes = false := by
  obtain ⟨hexists, hfalse, -⟩ :=
    packing_never_stalls .pg .binary { hostLabel := "small", par := 1 } idleBoxes
  obtain ⟨top, htop, -⟩ := hexists ⟨(⟨"small", .gpu, ""⟩, ⟨1, 0⟩),
    mem_cons_of_mem _ mem_cons_self, by decide +kernel, by decide +kernel⟩
  exact ⟨top, htop, hfalse top htop⟩

end BrokerParrot
