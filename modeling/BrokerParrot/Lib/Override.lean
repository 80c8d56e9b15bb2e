
/-!
# Overriding a setting and giving it back

A store holds a setting that can be read and written. The first override keeps what was read before
it, and a restore writes that back.
-/

namespace Override

open List

structure Store (S V : Type) where
  read : S → V
  write : S → V → S

/-- A store, and the value that it had before it was overridden. -/
structure Kept (S V : Type) where
  store : S
  kept : Option V

variable {S V : Type} [DecidableEq V] (m : Store S V)

def set (state : Kept S V) (value : V) : Kept S V :=
  if m.read state.store = value then
    state
  else
    ⟨m.write state.store value, some (state.kept.getD (m.read state.store))⟩

def restore (state : Kept S V) : Kept S V :=
  match state.kept with
  | none => state
  | some value =>
    if m.read state.store = value then state else ⟨m.write state.store value, none⟩

variable {m} {holds : S → Prop}

theorem store_set_of_ne {state : Kept S V} {value : V} (hne : m.read state.store ≠ value) :
    (set m state value).store = m.write state.store value := by
  unfold set
  rw [if_neg hne]

theorem store_foldl_set {settable : V → Prop}
    (hwrite : ∀ store value, holds store → settable value → holds (m.write store value))
    {values : List V} (hvalues : ∀ value ∈ values, settable value) (state : Kept S V)
    (hstate : holds state.store) : holds (values.foldl (set m) state).store := by
  induction values generalizing state with
  | nil => exact hstate
  | cons value rest ih =>
    refine ih (fun later hlater => hvalues later (mem_cons_of_mem _ hlater)) _ ?_
    unfold set
    split
    · exact hstate
    · exact hwrite _ _ hstate (hvalues value mem_cons_self)

theorem store_restore (state : Kept S V) (hstate : holds state.store)
    (hwrite : ∀ value, state.kept = some value → holds (m.write state.store value)) :
    holds (restore m state).store := by
  unfold restore
  split
  · exact hstate
  next value hkept =>
    split
    · exact hstate
    · exact hwrite value hkept

theorem store_restore_of_eq {store : S} {kept : Option V}
    (hagrees : ∀ value, kept = some value → value = m.read store) :
    (restore m ⟨store, kept⟩).store = store := by
  cases kept with
  | none => rfl
  | some value => simp [restore, hagrees value rfl]

theorem store_restore_of_ne {store : S} {value : V} (hne : m.read store ≠ value) :
    (restore m ⟨store, some value⟩).store = m.write store value := by
  simp [restore, hne]

/-- Reading what was just written gives the value, and a second write hides the first. -/
structure Lawful (m : Store S V) (store : S) (settable : V → Prop) : Prop where
  read_write : ∀ value, settable value → m.read (m.write store value) = value
  write_write : ∀ value later, settable value →
    m.write (m.write store value) later = m.write store later

section

variable {settable : V → Prop} {store : S} (hlawful : Lawful m store settable) {values : List V}

include hlawful

theorem foldl_set_written (hvalues : ∀ value ∈ values, settable value) {value : V}
    (hvalue : settable value) (kept : V) :
    ∃ last, settable last ∧
      values.foldl (set m) ⟨m.write store value, some kept⟩ = ⟨m.write store last, some kept⟩ := by
  induction values generalizing value with
  | nil => exact ⟨value, hvalue, rfl⟩
  | cons next rest ih =>
    have hnext := hvalues next mem_cons_self
    have hrest := fun later hlater => hvalues later (mem_cons_of_mem next hlater)
    rw [foldl_cons]
    unfold set
    split
    · exact ih hrest hvalue
    · rw [hlawful.write_write value next hvalue]
      exact ih hrest hnext

theorem foldl_set (hvalues : ∀ value ∈ values, settable value) (kept : Option V) :
    (∀ value ∈ values, value = m.read store) ∧
        values.foldl (set m) ⟨store, kept⟩ = ⟨store, kept⟩ ∨
      (¬ ∀ value ∈ values, value = m.read store) ∧ ∃ last, settable last ∧
        values.foldl (set m) ⟨store, kept⟩ =
          ⟨m.write store last, some (kept.getD (m.read store))⟩ := by
  induction values with
  | nil => exact Or.inl ⟨fun _ hvalue => absurd hvalue not_mem_nil, rfl⟩
  | cons value rest ih =>
    have hrest := fun later hlater => hvalues later (mem_cons_of_mem value hlater)
    have hvalue := hvalues value mem_cons_self
    rw [foldl_cons, forall_mem_cons]
    unfold set
    split
    next hsame =>
      rcases ih hrest with ⟨hall, hfold⟩ | ⟨hsome, hfold⟩
      · exact Or.inl ⟨⟨hsame.symm, hall⟩, hfold⟩
      · exact Or.inr ⟨fun hall => hsome hall.2, hfold⟩
    next hother =>
      exact Or.inr ⟨fun hall => hother hall.1.symm,
        foldl_set_written hlawful hrest hvalue _⟩

theorem store_restore_written {value : V} (hvalue : settable value) (kept : V) :
    (restore m ⟨m.write store value, some kept⟩).store = m.write store kept := by
  unfold restore
  dsimp only
  split
  next hsame => rw [← hsame, hlawful.read_write value hvalue]
  · exact hlawful.write_write value kept hvalue

theorem restored_iff {same : S → S → Prop} (hrefl : same store store) {kept : Option V}
    (hsame : ∀ value, kept = some value → same (m.write store value) store →
      m.read store = value) (hvalues : ∀ value ∈ values, settable value) :
    same (restore m (values.foldl (set m) ⟨store, kept⟩)).store store ↔
      (∀ value, kept = some value → value = m.read store) ∧
        ((∀ value ∈ values, value = m.read store) ∨
          same (m.write store (m.read store)) store) := by
  by_cases hagrees : ∀ value, kept = some value → value = m.read store
  · have hkept : kept.getD (m.read store) = m.read store := by
      cases kept with
      | none => rfl
      | some value => exact hagrees value rfl
    rcases foldl_set hlawful hvalues kept with ⟨hall, hfold⟩ | ⟨hsome, last, hlast, hfold⟩
    · rw [hfold, store_restore_of_eq hagrees]
      exact iff_of_true hrefl ⟨hagrees, Or.inl hall⟩
    · rw [hfold, store_restore_written hlawful hlast, hkept]
      exact ⟨fun hback => ⟨hagrees, Or.inr hback⟩, fun hback => hback.2.resolve_left hsome⟩
  · -- what was kept is not what the store says, and it is written at the end
    refine iff_of_false (fun hback => ?_) fun hback => hagrees hback.1
    obtain ⟨value, hkept, hne⟩ : ∃ value, kept = some value ∧ m.read store ≠ value := by
      simpa [eq_comm] using hagrees
    subst hkept
    apply hne
    apply hsame value rfl
    rcases foldl_set hlawful hvalues (some value) with ⟨-, hfold⟩ | ⟨-, last, hlast, hfold⟩
    · rwa [hfold, store_restore_of_ne hne] at hback
    · rwa [hfold, store_restore_written hlawful hlast] at hback

end

end Override
