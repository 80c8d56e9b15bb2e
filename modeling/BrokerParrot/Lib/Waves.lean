import Mathlib.Data.List.Perm.Basic

/-!
# Waves

Items name themselves by a key and need other keys. An item is ready when its key is free and all it
needs is settled. A wave takes the keys of every ready item at once and settles some of them, so
that more items can become ready; the waves end when nothing is.
-/

structure Frontier (κ : Type) where
  taken : κ → Bool
  settled : κ → Bool

/-- The items, and which of them settle their key as they take it. -/
structure Waves (ν κ : Type) where
  items : List ν
  key : ν → κ
  needs : ν → List κ
  settles : ν → Bool

namespace Waves

variable {ν κ : Type} [DecidableEq κ] (waves : Waves ν κ)

def ready (front : Frontier κ) : List ν :=
  waves.items.filter fun item =>
    !front.taken (waves.key item) && (waves.needs item).all front.settled

def push (front : Frontier κ) (item : ν) : Frontier κ where
  taken := fun key => front.taken key || decide (waves.key item = key)
  settled := fun key => front.settled key || (decide (waves.key item = key) && waves.settles item)

def next (front : Frontier κ) : Frontier κ := (waves.ready front).foldl waves.push front

def after : ℕ → Frontier κ → Frontier κ
  | 0, front => front
  | count + 1, front => after count (waves.next front)

variable {waves} {front : Frontier κ} {kind : List ν → Prop}

theorem foldl_push_of_perm {items others : List ν} (hperm : items.Perm others) :
    items.foldl waves.push front = others.foldl waves.push front := by
  refine hperm.foldl_eq' (fun item _ other _ front => ?_) front
  unfold push
  congr 1 <;> funext key
  · exact Bool.or_right_comm _ _ _
  · exact Bool.or_right_comm _ _ _

theorem taken_foldl_push (items : List ν) (key : κ) :
    (items.foldl waves.push front).taken key = true ↔
      front.taken key = true ∨ ∃ item ∈ items, waves.key item = key := by
  induction items generalizing front with
  | nil => simp
  | cons item rest ih =>
    rw [List.foldl_cons, ih]
    simp [push, or_assoc]

def free (waves : Waves ν κ) (front : Frontier κ) : List ν :=
  waves.items.filter fun item => !front.taken (waves.key item)

theorem length_free_next_lt (hready : waves.ready front ≠ []) :
    (waves.free (waves.next front)).length < (waves.free front).length := by
  obtain ⟨item, hitem⟩ := List.exists_mem_of_ne_nil _ hready
  obtain ⟨hmem, hfree⟩ := List.mem_filter.mp hitem
  have hbefore : item ∈ waves.free front :=
    List.mem_filter.mpr ⟨hmem, (Bool.and_eq_true_iff.mp hfree).1⟩
  have htaken : (waves.next front).taken (waves.key item) = true :=
    (taken_foldl_push _ _).mpr (Or.inr ⟨item, hitem, rfl⟩)
  have hafter : item ∉ waves.free (waves.next front) := by
    simp [free, htaken]
  have hsub : (waves.free (waves.next front)).Sublist (waves.free front) := by
    refine List.monotone_filter_right _ fun other hother => ?_
    simp only [Bool.not_eq_true', ← Bool.not_eq_true] at hother ⊢
    exact fun htaken => hother ((taken_foldl_push _ _).mpr (Or.inl htaken))
  refine Nat.lt_of_le_of_ne hsub.length_le fun heq => hafter ?_
  rwa [hsub.eq_of_length heq]

def Always (waves : Waves ν κ) (kind : List ν → Prop) (front : Frontier κ) : Prop :=
  ∀ count, kind (waves.ready (waves.after count front))

theorem always_iff :
    waves.Always kind front ↔ kind (waves.ready front) ∧ waves.Always kind (waves.next front) := by
  constructor
  · exact fun hall => ⟨hall 0, fun count => hall (count + 1)⟩
  · rintro ⟨hfirst, hrest⟩ count
    cases count with
    | zero => exact hfirst
    | succ count => exact hrest count

theorem always_of_none (hnone : waves.ready front = []) (hkind : kind []) :
    waves.Always kind front := by
  have hsame : waves.next front = front := by
    unfold next
    rw [hnone]
    rfl
  intro count
  induction count with
  | zero =>
    change kind (waves.ready front)
    rwa [hnone]
  | succ count =>
    change kind (waves.ready (waves.after count (waves.next front)))
    rwa [hsame]

end Waves
