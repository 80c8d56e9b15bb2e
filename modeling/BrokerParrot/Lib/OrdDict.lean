import Mathlib.Data.List.Nodup
import Mathlib.Data.List.Perm.Subperm

/-!
# Insertion-ordered dictionaries

A dictionary that remembers the order its keys were first written in, as the dictionaries of the
modelled language do. The distinctness of the keys is a field, so no operation has to assume it.
-/

/-- Entries in the order of insertion, no key twice. -/
structure OrdDict (κ ν : Type) where
  entries : List (κ × ν)
  nodupKeys : (entries.map Prod.fst).Nodup

namespace OrdDict

variable {κ ν : Type} [DecidableEq κ]

def empty : OrdDict κ ν := ⟨[], by simp⟩

instance : Inhabited (OrdDict κ ν) := ⟨empty⟩

instance [DecidableEq ν] : DecidableEq (OrdDict κ ν) := fun left right =>
  decidable_of_iff (left.entries = right.entries) <| by
    cases left
    cases right
    simp

def lookupIn (entries : List (κ × ν)) (key : κ) : Option ν :=
  (entries.find? fun entry => entry.1 = key).map Prod.snd

def get? (dict : OrdDict κ ν) (key : κ) : Option ν := lookupIn dict.entries key

def isEmpty (dict : OrdDict κ ν) : Bool := dict.entries.isEmpty

def filter (dict : OrdDict κ ν) (keep : κ → ν → Bool) : OrdDict κ ν :=
  ⟨dict.entries.filter fun entry => keep entry.1 entry.2,
    dict.nodupKeys.sublist (List.filter_sublist.map _)⟩

def erase (dict : OrdDict κ ν) (key : κ) : OrdDict κ ν :=
  dict.filter fun other _ => other ≠ key

def update (dict : OrdDict κ ν) (rewrite : κ → ν → ν) : OrdDict κ ν :=
  ⟨dict.entries.map fun entry => (entry.1, rewrite entry.1 entry.2), by
    simpa [List.map_map, Function.comp_def] using dict.nodupKeys⟩

def mapValues {μ : Type} (dict : OrdDict κ ν) (column : ν → μ) : OrdDict κ μ :=
  ⟨dict.entries.map fun entry => (entry.1, column entry.2), by
    simpa [List.map_map, Function.comp_def] using dict.nodupKeys⟩

def modify (dict : OrdDict κ ν) (key : κ) (rewrite : ν → ν) : OrdDict κ ν :=
  dict.update fun other value => if other = key then rewrite value else value

/-- What the view shows of the entries, in their order. -/
def collect {β : Type} (dict : OrdDict κ ν) (view : κ → ν → Option β) : List β :=
  dict.entries.filterMap fun entry => view entry.1 entry.2

def insertIn (entries : List (κ × ν)) (key : κ) (value : ν) : List (κ × ν) :=
  match entries with
  | [] => [(key, value)]
  | entry :: rest =>
    if entry.1 = key then (key, value) :: rest else entry :: insertIn rest key value

variable {entries : List (κ × ν)} {key other : κ} {value : ν} {dict : OrdDict κ ν}

theorem mem_keys_insertIn : other ∈ (insertIn entries key value).map Prod.fst ↔
      other = key ∨ other ∈ entries.map Prod.fst := by
  induction entries with
  | nil => simp [insertIn]
  | cons entry rest ih =>
    by_cases heq : entry.1 = key
    · simp [insertIn, heq]
    · simp only [insertIn, heq, if_false, List.map_cons, List.mem_cons, ih]
      tauto

theorem nodup_insertIn (key : κ) (value : ν) (hnodup : (entries.map Prod.fst).Nodup) :
    ((insertIn entries key value).map Prod.fst).Nodup := by
  induction entries with
  | nil => simp [insertIn]
  | cons entry rest ih =>
    rw [List.map_cons, List.nodup_cons] at hnodup
    by_cases heq : entry.1 = key
    · rw [insertIn, if_pos heq, List.map_cons, List.nodup_cons]
      exact heq ▸ hnodup
    · simp only [insertIn, heq, if_false, List.map_cons, List.nodup_cons]
      refine ⟨?_, ih hnodup.2⟩
      rw [mem_keys_insertIn]
      exact fun hmem => hmem.elim heq hnodup.1

def insert (dict : OrdDict κ ν) (key : κ) (value : ν) : OrdDict κ ν :=
  ⟨insertIn dict.entries key value, nodup_insertIn key value dict.nodupKeys⟩

@[simp]
theorem get?_empty (key : κ) : (empty : OrdDict κ ν).get? key = none := rfl

theorem lookupIn_cons (entry : κ × ν) (rest : List (κ × ν)) (key : κ) :
    lookupIn (entry :: rest) key = if entry.1 = key then some entry.2 else lookupIn rest key := by
  by_cases heq : entry.1 = key <;> simp [lookupIn, heq]

theorem lookupIn_eq_none (hnotMem : key ∉ entries.map Prod.fst) : lookupIn entries key = none := by
  induction entries with
  | nil => rfl
  | cons entry rest ih =>
    rw [List.map_cons, List.mem_cons, not_or] at hnotMem
    rw [lookupIn_cons, if_neg (Ne.symm hnotMem.1), ih hnotMem.2]

theorem insertIn_of_not_mem (value : ν) (hnotMem : key ∉ entries.map Prod.fst) :
    insertIn entries key value = entries ++ [(key, value)] := by
  induction entries with
  | nil => rfl
  | cons entry rest ih =>
    rw [List.map_cons, List.mem_cons, not_or] at hnotMem
    rw [insertIn, if_neg (Ne.symm hnotMem.1), ih hnotMem.2, List.cons_append]

theorem lookupIn_insertIn_self (entries : List (κ × ν)) (key : κ) (value : ν) :
    lookupIn (insertIn entries key value) key = some value := by
  induction entries with
  | nil => simp [insertIn, lookupIn_cons]
  | cons entry rest ih =>
    by_cases heq : entry.1 = key
    · simp [insertIn, heq, lookupIn_cons]
    · simpa [insertIn, heq, lookupIn_cons] using ih

theorem lookupIn_insertIn_of_ne (entries : List (κ × ν)) (value : ν)
    (hne : other ≠ key) : lookupIn (insertIn entries key value) other = lookupIn entries other := by
  induction entries with
  | nil => simp [insertIn, lookupIn, Ne.symm hne]
  | cons entry rest ih =>
    by_cases heq : entry.1 = key
    · simp [insertIn, heq, lookupIn_cons, Ne.symm hne]
    · simp only [insertIn, heq, if_false, lookupIn_cons, ih]

theorem lookupIn_filter (hnodup : (entries.map Prod.fst).Nodup)
    (keep : κ → ν → Bool) (key : κ) :
    lookupIn (entries.filter fun entry => keep entry.1 entry.2) key =
      (lookupIn entries key).filter (keep key) := by
  induction entries with
  | nil => rfl
  | cons entry rest ih =>
    rw [List.map_cons, List.nodup_cons] at hnodup
    by_cases heq : entry.1 = key
    · subst heq
      have hrest : lookupIn rest entry.1 = none := lookupIn_eq_none hnodup.1
      cases hkeep : keep entry.1 entry.2 <;>
        simp [hkeep, ih hnodup.2, lookupIn_cons, hrest, Option.filter]
    · cases hkeep : keep entry.1 entry.2 <;>
        simp [hkeep, ih hnodup.2, lookupIn_cons, heq]

section

variable (dict : OrdDict κ ν)

@[simp]
theorem get?_insert_self (key : κ) (value : ν) : (dict.insert key value).get? key = some value :=
  lookupIn_insertIn_self dict.entries key value

@[simp]
theorem get?_insert_of_ne (value : ν) (hne : other ≠ key) :
    (dict.insert key value).get? other = dict.get? other :=
  lookupIn_insertIn_of_ne dict.entries value hne

theorem get?_filter (keep : κ → ν → Bool) (key : κ) :
    (dict.filter keep).get? key = (dict.get? key).filter (keep key) :=
  lookupIn_filter dict.nodupKeys keep key

theorem get?_erase_of_ne (hne : other ≠ key) : (dict.erase key).get? other = dict.get? other := by
  unfold erase
  rw [get?_filter]
  cases dict.get? other <;> simp [hne]

theorem get?_erase_self (key : κ) : (dict.erase key).get? key = none := by
  unfold erase
  rw [get?_filter]
  cases dict.get? key <;> simp

end

theorem get?_of_erase
    (hget : (dict.erase key).get? other = some value) : dict.get? other = some value := by
  by_cases heq : other = key
  · subst heq
    rw [get?_erase_self] at hget
    cases hget
  · rwa [get?_erase_of_ne dict heq] at hget

theorem foldl_erase (dict : OrdDict κ ν) (keys : List κ) :
    keys.foldl erase dict = dict.filter fun key _ => key ∉ keys := by
  induction keys generalizing dict with
  | nil => simp [filter]
  | cons first rest ih =>
    rw [List.foldl_cons, ih]
    simp [erase, filter, List.filter_filter, Bool.and_comm]

/-- To collect the keys of some entries and erase them one by one is to filter. -/
theorem foldl_erase_keys (dict : OrdDict κ ν) (drop : ν → Bool) :
    ((dict.entries.filter fun entry => drop entry.2).map Prod.fst).foldl erase dict =
      dict.filter fun _ value => !drop value := by
  rw [foldl_erase]
  unfold filter
  congr 1
  refine List.filter_congr fun entry hentry => ?_
  have hmem : entry.1 ∈ (dict.entries.filter fun entry => drop entry.2).map Prod.fst ↔
      drop entry.2 = true := by
    constructor
    · intro hkey
      obtain ⟨other, hother, heq⟩ := List.mem_map.mp hkey
      obtain ⟨hother, hdrop⟩ := List.mem_filter.mp hother
      rwa [List.inj_on_of_nodup_map dict.nodupKeys hother hentry heq] at hdrop
    · exact fun hdrop => List.mem_map_of_mem (List.mem_filter.mpr ⟨hentry, hdrop⟩)
  simp [hmem]

omit [DecidableEq κ] in
theorem eq_empty_of_isEmpty (hempty : dict.isEmpty = true) : dict = empty := by
  obtain ⟨entries, hnodup⟩ := dict
  cases entries with
  | nil => rfl
  | cons => cases hempty

theorem get?_of_isEmpty (hempty : dict.isEmpty = true) (key : κ) : dict.get? key = none := by
  rw [eq_empty_of_isEmpty hempty]
  rfl

theorem lookupIn_map {μ : Type} (entries : List (κ × ν)) (rewrite : κ → ν → μ) (key : κ) :
    lookupIn (entries.map fun entry => (entry.1, rewrite entry.1 entry.2)) key =
      (lookupIn entries key).map (rewrite key) := by
  induction entries with
  | nil => rfl
  | cons entry rest ih =>
    rw [List.map_cons, lookupIn_cons, lookupIn_cons, ih]
    by_cases heq : entry.1 = key
    · subst heq
      simp
    · simp [heq]

section

variable (dict : OrdDict κ ν)

@[simp]
theorem get?_update (rewrite : κ → ν → ν) (key : κ) :
    (dict.update rewrite).get? key = (dict.get? key).map (rewrite key) :=
  lookupIn_map dict.entries rewrite key

theorem get?_mapValues {μ : Type} (column : ν → μ) (key : κ) :
    (dict.mapValues column).get? key = (dict.get? key).map column :=
  lookupIn_map dict.entries (fun _ value => column value) key

section

variable {μ : Type} (column : ν → μ) (key : κ)

omit [DecidableEq κ] in
theorem mapValues_filter (keep : κ → μ → Bool) :
    (dict.filter fun key value => keep key (column value)).mapValues column =
      (dict.mapValues column).filter keep := by
  simp [filter, mapValues, List.filter_map, Function.comp_def]

theorem mapValues_erase :
    (dict.erase key).mapValues column = (dict.mapValues column).erase key :=
  mapValues_filter dict column fun other _ => other ≠ key

theorem mapValues_insert (value : ν) :
    (dict.insert key value).mapValues column =
      (dict.mapValues column).insert key (column value) := by
  have hentries (entries : List (κ × ν)) :
      (insertIn entries key value).map (fun entry => (entry.1, column entry.2)) =
        insertIn (entries.map fun entry => (entry.1, column entry.2)) key (column value) := by
    induction entries with
    | nil => rfl
    | cons entry rest ih =>
      simp only [insertIn, List.map_cons, ← ih]
      split <;> rfl
  simp [insert, mapValues, hentries]

end

theorem get?_modify_self (key : κ) (rewrite : ν → ν) :
    (dict.modify key rewrite).get? key = (dict.get? key).map rewrite := by
  unfold modify
  simp

theorem get?_modify_of_ne (rewrite : ν → ν) (hne : other ≠ key) :
    (dict.modify key rewrite).get? other = dict.get? other := by
  unfold modify
  simp [hne]

end

theorem lookupIn_eq_some (hnodup : (entries.map Prod.fst).Nodup) :
    lookupIn entries key = some value ↔ (key, value) ∈ entries := by
  induction entries with
  | nil => simp [lookupIn]
  | cons entry rest ih =>
    rw [List.map_cons, List.nodup_cons] at hnodup
    rw [lookupIn_cons, List.mem_cons]
    by_cases heq : entry.1 = key
    · have hrest : (key, value) ∉ rest := by
        intro hmem
        exact hnodup.1 (heq ▸ List.mem_map_of_mem hmem)
      rw [if_pos heq, Option.some.injEq, or_iff_left hrest]
      constructor
      · rintro rfl
        rw [← heq]
      · intro hentry
        rw [← hentry]
    · have hne : (key, value) ≠ entry := by
        rintro rfl
        exact heq rfl
      rw [if_neg heq, ih hnodup.2, or_iff_right hne]

theorem mem_entries : (key, value) ∈ dict.entries ↔ dict.get? key = some value :=
  (lookupIn_eq_some dict.nodupKeys).symm

theorem erase_eq_self (hnone : dict.get? key = none) : dict.erase key = dict := by
  have hall : dict.entries.filter (fun entry => decide (entry.1 ≠ key)) = dict.entries := by
    refine List.filter_eq_self.mpr fun entry hmem => decide_eq_true ?_
    rintro rfl
    exact nomatch hnone.symm.trans (mem_entries.mp hmem)
  obtain ⟨entries, hnodup⟩ := dict
  simp only [erase, filter, mk.injEq]
  exact hall

/-! ### Views

A view shows some of the entries. -/

section

variable {β : Type} {dict after : OrdDict κ ν} {view : κ → ν → Option β}

def seen (dict : OrdDict κ ν) (view : κ → ν → Option β) (key : κ) : Option β :=
  (dict.get? key).bind (view key)

/-- What the view shows, each with its key. -/
def keyed (dict : OrdDict κ ν) (view : κ → ν → Option β) : List (κ × β) :=
  dict.collect fun key value => (view key value).map (Prod.mk key)

variable {item : β}

theorem mem_keyed {key : κ} : (key, item) ∈ dict.keyed view ↔ dict.seen view key = some item := by
  unfold keyed collect seen
  rw [List.mem_filterMap, Option.bind_eq_some_iff]
  constructor
  · rintro ⟨⟨other, value⟩, hmem, hview⟩
    rw [Option.map_eq_some_iff] at hview
    obtain ⟨shown, hshown, heq⟩ := hview
    cases heq
    exact ⟨value, mem_entries.mp hmem, hshown⟩
  · rintro ⟨value, hget, hview⟩
    exact ⟨(key, value), mem_entries.mpr hget, by simp [hview]⟩

omit [DecidableEq κ] in
theorem map_snd_keyed : (dict.keyed view).map Prod.snd = dict.collect view := by
  unfold keyed collect
  rw [List.map_filterMap]
  refine List.filterMap_congr ?_
  intro entry hmem
  dsimp only
  cases view entry.1 entry.2 <;> rfl

omit [DecidableEq κ] in
theorem keys_filterMap_sublist (entries : List (κ × ν)) (view : κ → ν → Option β) :
    ((entries.filterMap fun entry => (view entry.1 entry.2).map (Prod.mk entry.1)).map
      Prod.fst).Sublist (entries.map Prod.fst) := by
  induction entries with
  | nil => exact List.Sublist.refl _
  | cons entry rest ih =>
    rw [List.filterMap_cons]
    cases view entry.1 entry.2 with
    | none => exact ih.cons _
    | some => exact ih.cons_cons _

omit [DecidableEq κ] in
theorem nodup_keyed : (dict.keyed view).Nodup :=
  (dict.nodupKeys.sublist (keys_filterMap_sublist dict.entries view)).of_map Prod.fst

omit [DecidableEq κ] in
theorem collect_filter (dict : OrdDict κ ν) {view : κ → ν → Option β} {keep : κ → ν → Bool}
    (hscope : ∀ key value, keep key value = false → view key value = none) :
    dict.collect view =
      (dict.entries.filter fun entry => keep entry.1 entry.2).filterMap fun entry =>
        view entry.1 entry.2 := by
  rw [List.filterMap_filter]
  refine List.filterMap_congr fun entry _ => ?_
  cases hkeep : keep entry.1 entry.2 with
  | false => simp [hscope _ _ hkeep]
  | true => rfl

theorem mem_collect : item ∈ dict.collect view ↔ ∃ key, dict.seen view key = some item := by
  rw [← map_snd_keyed, List.mem_map]
  constructor
  · rintro ⟨⟨key, shown⟩, hmem, rfl⟩
    exact ⟨key, mem_keyed.mp hmem⟩
  · rintro ⟨key, hseen⟩
    exact ⟨(key, item), mem_keyed.mpr hseen, rfl⟩

theorem collect_subperm
    (hle : ∀ key item, after.seen view key = some item → dict.seen view key = some item) :
    (after.collect view).Subperm (dict.collect view) := by
  have hsubset : after.keyed view ⊆ dict.keyed view := by
    rintro ⟨key, item⟩ hmem
    exact mem_keyed.mpr (hle key item (mem_keyed.mp hmem))
  obtain ⟨middle, hperm, hsublist⟩ := List.subperm_of_subset nodup_keyed hsubset
  rw [← map_snd_keyed, ← map_snd_keyed]
  exact ⟨middle.map Prod.snd, hperm.map _, hsublist.map _⟩

theorem collect_perm_cons (key : κ) (hbefore : dict.seen view key = none)
    (hafter : after.seen view key = some item)
    (hothers : ∀ other, other ≠ key → after.seen view other = dict.seen view other) :
    (after.collect view).Perm (item :: dict.collect view) := by
  have hnew : (key, item) ∉ dict.keyed view := by
    rw [mem_keyed, hbefore]
    simp
  have hperm : (after.keyed view).Perm ((key, item) :: dict.keyed view) := by
    rw [List.perm_ext_iff_of_nodup nodup_keyed (List.nodup_cons.mpr ⟨hnew, nodup_keyed⟩)]
    rintro ⟨other, shown⟩
    rw [List.mem_cons, mem_keyed, mem_keyed]
    by_cases heq : other = key
    · subst heq
      rw [hafter, hbefore]
      simp [eq_comm]
    · rw [hothers other heq]
      simp [heq]
  have hmap := hperm.map Prod.snd
  rwa [List.map_cons, map_snd_keyed, map_snd_keyed] at hmap

end

end OrdDict

/-! ### Folds that touch one key at a time -/

namespace KeyedFold

variable {σ α κ ν : Type} (move : σ → α → σ) (key : α → κ) (view : κ → σ → ν)
  (hframe : ∀ state item other, key item ≠ other → view other (move state item) = view other state)

include hframe

variable {items : List α}

theorem view_of_not_mem {other : κ} (hnotMem : other ∉ items.map key)
    (state : σ) : view other (items.foldl move state) = view other state := by
  induction items generalizing state with
  | nil => rfl
  | cons head tail ih =>
    rw [List.map_cons, List.mem_cons, not_or] at hnotMem
    rw [List.foldl_cons, ih hnotMem.2, hframe state head other (Ne.symm hnotMem.1)]

theorem view_of_mem (hnodup : (items.map key).Nodup) {item : α}
    (hmem : item ∈ items) (state : σ) :
    ∃ before, before <+: items ∧
      view (key item) (before.foldl move state) = view (key item) state ∧
      view (key item) (items.foldl move state) =
        view (key item) (move (before.foldl move state) item) := by
  obtain ⟨before, after, rfl⟩ := List.append_of_mem hmem
  rw [List.map_append, List.map_cons, List.nodup_append, List.nodup_cons] at hnodup
  obtain ⟨-, ⟨hafter, -⟩, hdisjoint⟩ := hnodup
  refine ⟨before, List.prefix_append _ _, view_of_not_mem move key view hframe ?_ state, ?_⟩
  · exact fun hbefore => hdisjoint _ hbefore _ List.mem_cons_self rfl
  · rw [List.foldl_append, List.foldl_cons, view_of_not_mem move key view hframe hafter]

theorem view_filter (hnodup : (items.map key).Nodup) {item : α}
    (hmem : item ∈ items) (keep : α → Bool) (state : σ) :
    ∃ before, view (key item) before = view (key item) state ∧
      view (key item) ((items.filter keep).foldl move state) =
        if keep item then view (key item) (move before item) else view (key item) state := by
  have hkept : ((items.filter keep).map key).Nodup :=
    hnodup.sublist (List.Sublist.map key List.filter_sublist)
  by_cases hkeep : keep item = true
  · obtain ⟨before, -, hbefore, hview⟩ := view_of_mem move key view hframe hkept
      (List.mem_filter.mpr ⟨hmem, hkeep⟩) state
    exact ⟨before.foldl move state, hbefore, by rw [hview, if_pos hkeep]⟩
  · refine ⟨state, rfl, ?_⟩
    rw [if_neg hkeep]
    apply view_of_not_mem move key view hframe
    intro hleft
    obtain ⟨twin, htwin, hkey⟩ := List.mem_map.mp hleft
    have hsame : twin = item :=
      List.inj_on_of_nodup_map hnodup (List.mem_of_mem_filter htwin) hmem hkey
    exact hkeep (hsame ▸ (List.mem_filter.mp htwin).2)

end KeyedFold
