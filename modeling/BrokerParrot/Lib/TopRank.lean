import Mathlib.Data.List.Sort

/-!
# The best of a list

The first items of a list that is sorted by rank, best first, where items of one rank keep the order
of the list. An item is among the best exactly if few enough others are ahead of it: those of a
higher rank, and those of its own rank that come before it.
-/

namespace TopRank

open List

variable {α β : Type} [LinearOrder β] (rank : α → β)

def ranked (items : List α) : List α := items.insertionSort fun a b => rank b ≤ rank a

def top (count : ℕ) (items : List α) : List α := (ranked rank items).take count

def above (items : List α) (item : α) : ℕ := items.countP fun other => rank item < rank other

def level (items : List α) (item : α) : ℕ := items.countP fun other => rank other = rank item

/-- How many are served before the item: the better ones, and its equals that come first. -/
def ahead [DecidableEq α] (items : List α) (item : α) : ℕ :=
  above rank items item + level rank (items.takeWhile (· ≠ item)) item

/-- The best `count` are the same in whatever order equals come. -/
def Settled (count : ℕ) (items : List α) : Prop :=
  ∀ item ∈ items, count ≤ above rank items item ∨
    above rank items item + level rank items item ≤ count

variable {rank} {count : ℕ} {items : List α}

theorem perm_ranked (items : List α) : (ranked rank items).Perm items :=
  perm_insertionSort _ items

theorem pairwise_ranked (items : List α) :
    (ranked rank items).Pairwise fun a b => rank b ≤ rank a := by
  exact pairwise_insertionSort _ items

theorem length_top (count : ℕ) (items : List α) :
    (top rank count items).length = min count items.length := by
  rw [top, length_take, (perm_ranked items).length_eq]

theorem nodup_top (hnodup : items.Nodup) (count : ℕ) :
    (top rank count items).Nodup :=
  ((perm_ranked items).nodup_iff.mpr hnodup).sublist (take_sublist _ _)

theorem mem_of_mem_top {item : α} (hmem : item ∈ top rank count items) :
    item ∈ items :=
  (perm_ranked items).mem_iff.mp (mem_of_mem_take hmem)

theorem exists_best (hcount : 1 ≤ count) (hne : items ≠ []) :
    ∃ best ∈ top rank count items, ∀ item ∈ items, rank item ≤ rank best := by
  have hranked : ranked rank items ≠ [] := fun hnil =>
    hne (Perm.nil_eq (hnil ▸ perm_ranked items)).symm
  obtain ⟨best, rest, heq⟩ := exists_cons_of_ne_nil hranked
  obtain ⟨fewer, rfl⟩ := Nat.exists_eq_add_of_le' hcount
  refine ⟨best, by simp [top, heq], fun item hmem => ?_⟩
  have hsorted : (best :: rest).Pairwise fun a b => rank b ≤ rank a := heq ▸ pairwise_ranked items
  have hitem : item ∈ best :: rest := heq ▸ (perm_ranked items).mem_iff.mpr hmem
  rcases mem_cons.mp hitem with rfl | hrest
  · exact le_rfl
  · exact (pairwise_cons.mp hsorted).1 item hrest

section

variable {items order : List α} {item : α}

theorem above_perm (hperm : order.Perm items) (item : α) :
    above rank order item = above rank items item :=
  hperm.countP_eq _

theorem level_perm (hperm : order.Perm items) (item : α) :
    level rank order item = level rank items item :=
  hperm.countP_eq _

theorem level_pos (hmem : item ∈ items) : 0 < level rank items item :=
  countP_pos_iff.mpr ⟨item, hmem, by simp⟩

theorem above_add_level_cons (head : α) (rest other : List α) (item : α) :
    above rank (head :: rest) item + level rank (head :: other) item =
      above rank rest item + level rank other item + if rank item ≤ rank head then 1 else 0 := by
  unfold above level
  rcases lt_trichotomy (rank item) (rank head) with hlt | heq | hgt
  · simp [hlt, hlt.le, hlt.ne']
    omega
  · simp [heq]
    omega
  · simp [hgt.not_ge, hgt.not_gt, hgt.ne]

theorem above_add_level_le : above rank items item + level rank items item ≤ items.length := by
  induction items with
  | nil => rfl
  | cons head tail ih =>
    rw [above_add_level_cons, length_cons]
    split <;> omega

theorem Settled.perm {count : ℕ} (hsettled : Settled rank count items)
    (hperm : order.Perm items) : Settled rank count order := by
  intro item hmem
  rw [above_perm hperm, level_perm hperm]
  exact hsettled item (hperm.mem_iff.mp hmem)

end

variable [DecidableEq α] {items sorted rest : List α} {item : α}

theorem ahead_cons_self (rest : List α) (item : α) :
    ahead rank (item :: rest) item = above rank (item :: rest) item := by
  simp [ahead, level]

theorem ahead_cons_of_ne {head : α} (rest : List α) (hne : head ≠ item) :
    ahead rank (head :: rest) item =
      ahead rank rest item + if rank item ≤ rank head then 1 else 0 := by
  have hwhile : (head :: rest).takeWhile (· ≠ item) = head :: rest.takeWhile (· ≠ item) := by
    simp [hne]
  unfold ahead
  rw [hwhile, above_add_level_cons]

theorem ahead_concat_self (hnotMem : item ∉ rest) :
    ahead rank (rest ++ [item]) item + 1 =
      above rank (rest ++ [item]) item + level rank (rest ++ [item]) item := by
  have hwhile : (rest ++ [item]).takeWhile (· ≠ item) = rest := by
    rw [takeWhile_append_of_pos]
    · simp
    · intro other hother
      simpa using fun heq : other = item => hnotMem (heq ▸ hother)
  unfold ahead
  rw [hwhile]
  simp [level, Nat.add_assoc]

theorem above_le_ahead : above rank items item ≤ ahead rank items item := Nat.le_add_right _ _

theorem ahead_lt (hmem : item ∈ items) :
    ahead rank items item < above rank items item + level rank items item := by
  induction items with
  | nil => exact absurd hmem not_mem_nil
  | cons head tail ih =>
    by_cases heq : head = item
    · subst heq
      rw [ahead_cons_self]
      exact Nat.lt_add_of_pos_right (level_pos hmem)
    · have htail := ih ((mem_cons.mp hmem).resolve_left (Ne.symm heq))
      rw [ahead_cons_of_ne tail heq, above_add_level_cons]
      omega

/-! ### The place of an item -/

theorem idxOf_orderedInsert_self (hsorted : sorted.Pairwise fun a b => rank b ≤ rank a)
    (hnotMem : item ∉ sorted) :
    (sorted.orderedInsert (fun a b => rank b ≤ rank a) item).idxOf item =
      above rank sorted item := by
  induction sorted with
  | nil => simp [above]
  | cons head tail ih =>
    obtain ⟨hhead, htail⟩ := pairwise_cons.mp hsorted
    rw [mem_cons, not_or] at hnotMem
    by_cases hle : rank head ≤ rank item
    · -- Nobody behind the head has a higher rank than the head has.
      have hnone : above rank (head :: tail) item = 0 := by
        refine countP_eq_zero.mpr fun other hother => ?_
        rcases mem_cons.mp hother with rfl | hother
        · simpa using hle
        · simpa using (hhead other hother).trans hle
      rw [orderedInsert_cons_of_le _ tail hle, idxOf_cons_self, hnone]
    · rw [orderedInsert_of_not_le _ tail hle, idxOf_cons_ne _ (Ne.symm hnotMem.1),
        ih htail hnotMem.2]
      simp [above, not_le.mp hle]

theorem idxOf_orderedInsert_of_ne {other : α} (hsorted : sorted.Pairwise fun a b => rank b ≤ rank a)
    (hmem : item ∈ sorted) (hne : other ≠ item) :
    (sorted.orderedInsert (fun a b => rank b ≤ rank a) other).idxOf item =
      sorted.idxOf item + if rank item ≤ rank other then 1 else 0 := by
  induction sorted with
  | nil => exact absurd hmem not_mem_nil
  | cons head tail ih =>
    obtain ⟨hhead, htail⟩ := pairwise_cons.mp hsorted
    by_cases hle : rank head ≤ rank other
    · have hitem : rank item ≤ rank other := by
        rcases mem_cons.mp hmem with rfl | hmem
        · exact hle
        · exact (hhead item hmem).trans hle
      rw [orderedInsert_cons_of_le _ tail hle, idxOf_cons_ne _ hne, if_pos hitem]
    · rw [orderedInsert_of_not_le _ tail hle]
      by_cases heq : head = item
      · subst heq
        rw [idxOf_cons_self, idxOf_cons_self, if_neg hle]
      · have hmem := (mem_cons.mp hmem).resolve_left (Ne.symm heq)
        rw [idxOf_cons_ne _ heq, idxOf_cons_ne _ heq, ih htail hmem]
        omega

theorem idxOf_ranked (hnodup : items.Nodup) (hmem : item ∈ items) :
    (ranked rank items).idxOf item = ahead rank items item := by
  induction items with
  | nil => exact absurd hmem not_mem_nil
  | cons head tail ih =>
    obtain ⟨hnotMem, htail⟩ := nodup_cons.mp hnodup
    change ((ranked rank tail).orderedInsert _ head).idxOf item = _
    by_cases heq : head = item
    · subst heq
      have hfresh : head ∉ ranked rank tail :=
        fun hranked => hnotMem ((perm_ranked tail).mem_iff.mp hranked)
      rw [idxOf_orderedInsert_self (pairwise_ranked tail) hfresh, ahead_cons_self,
        above_perm (perm_ranked tail)]
      simp [above]
    · have hmem := (mem_cons.mp hmem).resolve_left (Ne.symm heq)
      rw [idxOf_orderedInsert_of_ne (pairwise_ranked tail)
        ((perm_ranked tail).mem_iff.mpr hmem) heq, ih htail hmem, ahead_cons_of_ne tail heq]

theorem mem_top_iff (hnodup : items.Nodup) (count : ℕ) :
    item ∈ top rank count items ↔ item ∈ items ∧ ahead rank items item < count := by
  constructor
  · intro htop
    have hmem := mem_of_mem_top htop
    rw [top, mem_take_iff_idxOf_lt ((perm_ranked items).mem_iff.mpr hmem),
      idxOf_ranked hnodup hmem] at htop
    exact ⟨hmem, htop⟩
  · rintro ⟨hmem, hahead⟩
    rwa [top, mem_take_iff_idxOf_lt ((perm_ranked items).mem_iff.mpr hmem),
      idxOf_ranked hnodup hmem]

theorem Settled.le_ahead_iff (hsettled : Settled rank count items) (hmem : item ∈ items) :
    count ≤ ahead rank items item ↔ count ≤ above rank items item := by
  have hlow : above rank items item ≤ ahead rank items item := above_le_ahead
  have hhigh : ahead rank items item < above rank items item + level rank items item :=
    ahead_lt hmem
  rcases hsettled item hmem with hfull | hroom
  · exact ⟨fun _ => hfull, fun _ => hfull.trans hlow⟩
  · exact ⟨fun hout => by omega, fun hfull => hfull.trans hlow⟩

theorem top_straddled (hnodup : (item :: rest).Nodup)
    (hlow : above rank (item :: rest) item < count)
    (hhigh : count < above rank (item :: rest) item + level rank (item :: rest) item) :
    item ∈ top rank count (item :: rest) ∧ item ∉ top rank count (rest ++ [item]) := by
  have hperm : (rest ++ [item]).Perm (item :: rest) := perm_append_singleton item rest
  have hlast : ahead rank (rest ++ [item]) item + 1 = _ :=
    ahead_concat_self (nodup_cons.mp hnodup).1
  rw [above_perm hperm, level_perm hperm] at hlast
  rw [mem_top_iff hnodup, mem_top_iff (hperm.nodup_iff.mpr hnodup), ahead_cons_self]
  exact ⟨⟨mem_cons_self, hlow⟩, fun hlate => by omega⟩

end TopRank
