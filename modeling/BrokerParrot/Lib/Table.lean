import BrokerParrot.Lib.OrdDict

/-!
# Tables with generated keys

A table hands out its own keys in increasing order and never reuses one, not even after a delete.
That no row sits at or above the next key is a field, so a row can be appended without a check.
-/

structure Table (ν : Type) where
  rows : OrdDict ℕ ν
  nextKey : ℕ
  fresh : ∀ key, nextKey ≤ key → rows.get? key = none

namespace Table

variable {ν β : Type}

def empty : Table ν := ⟨OrdDict.empty, 0, fun _ _ => rfl⟩

instance : Inhabited (Table ν) := ⟨empty⟩

def entries (table : Table ν) : List (ℕ × ν) := table.rows.entries

def get? (table : Table ν) (key : ℕ) : Option ν := table.rows.get? key

def collect (table : Table ν) (view : ℕ → ν → Option β) : List β := table.rows.collect view

def update (table : Table ν) (rewrite : ℕ → ν → ν) : Table ν where
  rows := table.rows.update rewrite
  nextKey := table.nextKey
  fresh := fun key hle => by rw [OrdDict.get?_update, table.fresh key hle, Option.map_none]

def modify (table : Table ν) (key : ℕ) (rewrite : ν → ν) : Table ν :=
  table.update fun other row => if other = key then rewrite row else row

def filter (table : Table ν) (keep : ℕ → ν → Bool) : Table ν where
  rows := table.rows.filter keep
  nextKey := table.nextKey
  fresh := fun key hle => by rw [OrdDict.get?_filter, table.fresh key hle, Option.filter_none]

def append (table : Table ν) (row : ν) : Table ν where
  rows := table.rows.insert table.nextKey row
  nextKey := table.nextKey + 1
  fresh := fun key hle => by
    have hne : key ≠ table.nextKey := by omega
    rw [OrdDict.get?_insert_of_ne _ _ hne]
    exact table.fresh key (by omega)

def ofRows (rows : List ν) : Table ν := rows.foldl append empty

section

variable (table : Table ν) {key : ℕ} {row : ν}

theorem mem_entries {table : Table ν} :
    (key, row) ∈ table.entries ↔ table.get? key = some row :=
  OrdDict.mem_entries

@[simp]
theorem get?_update (rewrite : ℕ → ν → ν) (key : ℕ) :
    (table.update rewrite).get? key = (table.get? key).map (rewrite key) :=
  OrdDict.get?_update table.rows rewrite key

@[simp]
theorem get?_modify_self (key : ℕ) (rewrite : ν → ν) :
    (table.modify key rewrite).get? key = (table.get? key).map rewrite :=
  OrdDict.get?_modify_self table.rows key rewrite

theorem get?_modify_of_ne {other : ℕ} (rewrite : ν → ν) (hne : other ≠ key) :
    (table.modify key rewrite).get? other = table.get? other :=
  OrdDict.get?_modify_of_ne table.rows rewrite hne

@[simp]
theorem get?_filter (keep : ℕ → ν → Bool) (key : ℕ) :
    (table.filter keep).get? key = (table.get? key).filter (keep key) :=
  OrdDict.get?_filter table.rows keep key

theorem update_eq_self {table : Table ν} {rewrite : ℕ → ν → ν}
    (hsame : ∀ key row, table.get? key = some row → rewrite key row = row) :
    table.update rewrite = table := by
  have hentries : (table.entries.map fun entry => (entry.1, rewrite entry.1 entry.2)) =
      table.entries := by
    refine (List.map_congr_left fun entry hmem => ?_).trans (List.map_id' _)
    rw [hsame entry.1 entry.2 (mem_entries.mp hmem)]
  unfold update OrdDict.update
  congr

theorem lt_nextKey {table : Table ν} (hget : table.get? key = some row) : key < table.nextKey := by
  by_contra hnot
  have hnone : table.get? key = none := table.fresh key (Nat.le_of_not_lt hnot)
  rw [hnone] at hget
  cases hget

theorem get?_nextKey : table.get? table.nextKey = none := table.fresh _ (Nat.le_refl _)

@[simp]
theorem get?_append_self (row : ν) : (table.append row).get? table.nextKey = some row :=
  OrdDict.get?_insert_self table.rows table.nextKey row

theorem get?_append_of_ne (row : ν) (hne : key ≠ table.nextKey) :
    (table.append row).get? key = table.get? key :=
  OrdDict.get?_insert_of_ne table.rows row hne

theorem get?_append_eq_some {table : Table ν} {found : ν}
    (hget : (table.append row).get? key = some found) :
    (key = table.nextKey ∧ found = row) ∨ table.get? key = some found := by
  by_cases heq : key = table.nextKey
  · rw [heq, get?_append_self] at hget
    exact Or.inl ⟨heq, (Option.some.inj hget).symm⟩
  · rw [get?_append_of_ne table row heq] at hget
    exact Or.inr hget

theorem entries_append (row : ν) :
    (table.append row).entries = table.entries ++ [(table.nextKey, row)] := by
  refine OrdDict.insertIn_of_not_mem row fun hmem => ?_
  obtain ⟨⟨key, old⟩, hentry, rfl⟩ := List.mem_map.mp hmem
  exact absurd (lt_nextKey (mem_entries.mp hentry)) (Nat.lt_irrefl _)

end

/-! ### Keys are not reused

Along any statements the issued keys stay issued, and one whose row is gone never gets another. -/

/-- The keys that were issued stay issued, and those without a row stay without. -/
structure Extends (table after : Table ν) : Prop where
  nextKey_le : table.nextKey ≤ after.nextKey
  gone : ∀ key, key < table.nextKey → table.get? key = none → after.get? key = none

namespace Extends

variable {table middle after : Table ν}

theorem refl (table : Table ν) : table.Extends table := ⟨Nat.le_refl _, fun _ _ hnone => hnone⟩

theorem trans (hfirst : table.Extends middle) (hsecond : middle.Extends after) :
    table.Extends after where
  nextKey_le := Nat.le_trans hfirst.nextKey_le hsecond.nextKey_le
  gone := fun key hlt hnone =>
    hsecond.gone key (Nat.lt_of_lt_of_le hlt hfirst.nextKey_le) (hfirst.gone key hlt hnone)

variable (table : Table ν)

theorem update (rewrite : ℕ → ν → ν) : table.Extends (table.update rewrite) where
  nextKey_le := Nat.le_refl _
  gone := fun key _ hnone => by rw [get?_update, hnone, Option.map_none]

theorem filter (keep : ℕ → ν → Bool) : table.Extends (table.filter keep) where
  nextKey_le := Nat.le_refl _
  gone := fun key _ hnone => by rw [get?_filter, hnone, Option.filter_none]

theorem append (row : ν) : table.Extends (table.append row) where
  nextKey_le := Nat.le_succ _
  gone := fun key hlt hnone => by rw [get?_append_of_ne table row (Nat.ne_of_lt hlt), hnone]

end Extends

section

variable {table after : Table ν} {view : ℕ → ν → Option β}

/-- What a view shows of the row at the key. -/
def seen (table : Table ν) (view : ℕ → ν → Option β) (key : ℕ) : Option β :=
  (table.get? key).bind (view key)

theorem map_collect {γ : Type} (f : β → γ) :
    (table.collect view).map f = table.collect fun key row => (view key row).map f :=
  List.map_filterMap

theorem mem_collect {item : β} :
    item ∈ table.collect view ↔ ∃ key, table.seen view key = some item :=
  OrdDict.mem_collect

theorem collect_subperm
    (hle : ∀ key item, after.seen view key = some item → table.seen view key = some item) :
    (after.collect view).Subperm (table.collect view) :=
  OrdDict.collect_subperm hle

theorem collect_perm_cons (key : ℕ) {item : β} (hbefore : table.seen view key = none)
    (hafter : after.seen view key = some item)
    (hothers : ∀ other, other ≠ key → after.seen view other = table.seen view other) :
    (after.collect view).Perm (item :: table.collect view) :=
  OrdDict.collect_perm_cons key hbefore hafter hothers

end

end Table
