import Mathlib.Data.List.Infix

/-!
# Substitution in a text

A matcher looks at the item before a place and at what follows it, and says how many items it takes
there and what stands in their place. A substitution goes through the text from left to right and
begins anew after each match.

A replacement masks when the mask is in it and what is left of it on both sides was there before.
Then every piece of the new text that is free of the mask is a piece of the old one.
-/

namespace Subst

open List

variable {α : Type}

abbrev Matcher (α : Type) := Option α → List α → Option (ℕ × List α)

def subFrom (m : Matcher α) : Option α → ℕ → List α → List α
  | _, _, [] => []
  | _, skip + 1, item :: rest => subFrom m (some item) skip rest
  | previous, 0, item :: rest =>
    match m previous (item :: rest) with
    | some (taken, new) => new ++ subFrom m (some item) (taken - 1) rest
    | none => item :: subFrom m (some item) 0 rest

def sub (m : Matcher α) (text : List α) : List α := subFrom m none 0 text

/-- The needle where what stands around it is as asked. -/
def literalWhere [DecidableEq α] (before after : Option α → Bool) (needle new : List α) :
    Matcher α := fun previous text =>
  if before previous ∧ needle <+: text ∧ after (text.drop needle.length).head? then
    some (needle.length, new)
  else
    none

def literal [DecidableEq α] (needle new : List α) : Matcher α :=
  literalWhere (fun _ => true) (fun _ => true) needle new

def replaceAll [DecidableEq α] (needle new text : List α) : List α := sub (literal needle new) text

theorem literal_eq [DecidableEq α] (needle new : List α) (previous : Option α) (text : List α) :
    literal needle new previous text =
      if needle <+: text then some (needle.length, new) else none := by
  simp [literal, literalWhere]

section

variable {mask : α} {word old new right : List α}

theorem prefix_of_free (left : List α) (hfree : mask ∉ word)
    (hword : word <+: left ++ mask :: right) : word <+: left := by
  rcases prefix_or_prefix_of_prefix hword (prefix_append left _) with hshort | ⟨more, rfl⟩
  · exact hshort
  · rcases prefix_cons_iff.mp ((prefix_append_right_inj left).mp hword) with
      rfl | ⟨_, rfl, -⟩
    · simp
    · simp at hfree

theorem infix_of_free (left : List α) (hfree : mask ∉ word)
    (hword : word <:+: left ++ mask :: right) : word <:+: left ∨ word <:+: right := by
  rcases infix_append_iff.mp hword with hleft | hright | ⟨first, second, rfl, hfirst, hsecond⟩
  · exact Or.inl hleft
  · rcases infix_cons_iff.mp hright with hhead | hrest
    · exact Or.inl ((prefix_of_free [] hfree hhead).isInfix.trans nil_infix)
    · exact Or.inr hrest
  · have hnil := prefix_of_free [] (fun hmem => hfree (by simp [hmem])) hsecond
    rw [prefix_nil.mp hnil, append_nil]
    exact Or.inl hfirst.isInfix

/-- What the new text has on both sides of a mask was in the old one. -/
structure Masks (mask : α) (old new head tail : List α) : Prop where
  split : new = head ++ mask :: tail
  head_prefix : head <+: old
  tail_suffix : ∀ word, mask ∉ word → word <:+ tail → word <:+ old
  tail_infix : ∀ word, mask ∉ word → word <:+: tail → word <:+: old

def Matcher.Masks (m : Matcher α) (mask : α) : Prop :=
  ∀ previous text taken new, m previous text = some (taken, new) →
    0 < taken ∧ ∃ head tail, Subst.Masks mask (text.take taken) new head tail

variable {m : Matcher α} {text : List α} {previous : Option α}

theorem free_prefix_subFrom (hm : m.Masks mask) {skip : ℕ} (hfree : mask ∉ word)
    (hword : word <+: subFrom m previous skip text) : word <+: text.drop skip := by
  induction text generalizing previous skip word with
  | nil => simpa [subFrom] using hword
  | cons item rest ih =>
    cases skip with
    | succ => exact ih hfree hword
    | zero =>
      rw [subFrom] at hword
      split at hword
      · next taken new hmatch =>
        obtain ⟨-, head, tail, hmasks⟩ := hm _ _ _ _ hmatch
        rw [hmasks.split, append_assoc, cons_append] at hword
        exact ((prefix_of_free head hfree hword).trans hmasks.head_prefix).trans
          (List.take_prefix _ _)
      · rcases prefix_cons_iff.mp hword with rfl | ⟨more, rfl, hmore⟩
        · simp
        · have hrest := ih (fun hmem => hfree (mem_cons_of_mem _ hmem)) hmore
          simpa using hrest

theorem free_infix_subFrom (hm : m.Masks mask) {skip : ℕ} (hfree : mask ∉ word)
    (hword : word <:+: subFrom m previous skip text) : word <:+: text.drop skip := by
  induction text generalizing previous skip word with
  | nil => simpa [subFrom] using hword
  | cons item rest ih =>
    cases skip with
    | succ => exact ih hfree hword
    | zero =>
      rw [subFrom] at hword
      split at hword
      · next taken new hmatch =>
        obtain ⟨htaken, head, tail, hmasks⟩ := hm _ _ _ _ hmatch
        have htext : (item :: rest).take taken ++ rest.drop (taken - 1) = item :: rest := by
          obtain ⟨more, rfl⟩ := Nat.exists_eq_add_one.mpr htaken
          exact take_append_drop (more + 1) (item :: rest)
        rw [hmasks.split, append_assoc, cons_append] at hword
        rw [drop_zero, ← htext]
        rcases infix_of_free head hfree hword with hhead | htail
        · exact (hhead.trans hmasks.head_prefix.isInfix).trans (prefix_append _ _).isInfix
        -- A piece of what follows the mask may reach into the rest of the text.
        rcases infix_append_iff.mp htail with
          hin | hout | ⟨first, second, rfl, hend, hnext⟩
        · exact (hmasks.tail_infix word hfree hin).trans (prefix_append _ _).isInfix
        · exact (ih hfree hout).trans (suffix_append _ _).isInfix
        · rw [mem_append, not_or] at hfree
          refine infix_append_iff.mpr (Or.inr (Or.inr ⟨first, second, rfl, ?_, ?_⟩))
          · exact hmasks.tail_suffix first hfree.1 hend
          · exact free_prefix_subFrom hm hfree.2 hnext
      · next hmatch =>
        rcases infix_cons_iff.mp hword with hhead | hrest
        · have hkept : word <+: subFrom m previous 0 (item :: rest) := by
            rwa [subFrom, hmatch]
          exact (free_prefix_subFrom hm hfree hkept).isInfix
        · exact (ih hfree hrest).trans (suffix_cons item rest).isInfix

theorem free_infix_sub (hm : m.Masks mask) (hfree : mask ∉ word) (hword : word <:+: sub m text) :
    word <:+: text := by
  simpa using free_infix_subFrom hm hfree hword

theorem infix_of_masked_append (new : List α) {rest : List α} (hall : ∀ item ∈ new, item = mask)
    (hfree : mask ∉ word) (hne : word ≠ []) (hword : word <:+: new ++ rest) : word <:+: rest := by
  induction new with
  | nil => exact hword
  | cons item new ih =>
    obtain ⟨rfl, hmore⟩ := forall_mem_cons.mp hall
    refine ih hmore ((infix_of_free [] hfree hword).resolve_left fun hnil => ?_)
    exact hne (infix_nil.mp hnil)

theorem masks_of_all (hall : ∀ item ∈ new, item = mask) (hne : new ≠ []) (old : List α) :
    ∃ tail, Masks mask old new [] tail := by
  obtain ⟨first, tail, rfl⟩ := exists_cons_of_ne_nil hne
  obtain ⟨rfl, hmore⟩ := forall_mem_cons.mp hall
  have hnil (word : List α) (hfree : first ∉ word) (hword : word <:+: tail) : word = [] := by
    by_contra hword'
    rw [← append_nil tail] at hword
    exact hword' (infix_nil.mp (infix_of_masked_append _ hmore hfree hword' hword))
  refine ⟨tail, rfl, nil_prefix, fun word hfree hword => ?_, fun word hfree hword => ?_⟩
  · rw [hnil word hfree hword.isInfix]
    exact nil_suffix
  · rw [hnil word hfree hword]
    exact nil_infix

variable [DecidableEq α]

theorem masks_literal (hall : ∀ item ∈ new, item = mask) (hne : new ≠ []) (hold : old ≠ []) :
    (literal old new).Masks mask := by
  intro previous text taken found hmatch
  rw [literal_eq] at hmatch
  split at hmatch
  · cases hmatch
    exact ⟨length_pos_of_ne_nil hold, [], masks_of_all hall hne _⟩
  · cases hmatch

/-- What is replaced by the mask is gone. -/
theorem not_infix_replaceAll (hall : ∀ item ∈ new, item = mask) (hne : new ≠ [])
    (hold : old ≠ []) (hfree : mask ∉ old) (text : List α) :
    ¬ old <:+: replaceAll old new text := by
  suffices hgone : ∀ previous skip, ¬ old <:+: subFrom (literal old new) previous skip text from
    hgone none 0
  induction text with
  | nil => exact fun _ _ hinfix => hold (infix_nil.mp hinfix)
  | cons item rest ih =>
    rintro previous (_ | skip) hinfix
    · have hkept (hin : old <+: subFrom (literal old new) previous 0 (item :: rest)) :=
        free_prefix_subFrom (masks_literal hall hne hold) hfree hin
      rw [subFrom, literal_eq] at hinfix hkept
      by_cases hhere : old <+: item :: rest
      · rw [if_pos hhere] at hinfix
        exact ih _ _ (infix_of_masked_append _ hall hfree hold hinfix)
      -- What is kept starts no occurrence, since none was found there.
      · rw [if_neg hhere] at hinfix hkept
        rcases infix_cons_iff.mp hinfix with hhead | hrest
        · exact hhere (by simpa using hkept hhead)
        · exact ih _ _ hrest
    · exact ih _ _ hinfix

end

end Subst
