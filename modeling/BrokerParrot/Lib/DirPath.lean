import Mathlib.Algebra.GroupWithZero.Nat
import Mathlib.Data.List.Infix

/-!
# Walks through a directory tree

A path is a list of moves from the root: stay, go up, or go into a directory by its name. A place is
given by the names that lead to it, the innermost first, so to go up is to drop the first one, and
at the root that changes nothing.
-/

namespace DirPath

open List

inductive Move (α : Type) where
  | stay
  | up
  | into (name : α)
  deriving DecidableEq, Repr

variable {α : Type}

def Move.rise : Move α → ℕ
  | .up => 1
  | _ => 0

def Move.drop : Move α → ℕ
  | .into _ => 1
  | _ => 0

def ups (path : List (Move α)) : ℕ := (path.map Move.rise).sum

def downs (path : List (Move α)) : ℕ := (path.map Move.drop).sum

def step (place : List α) : Move α → List α
  | .stay => place
  | .up => place.tail
  | .into name => name :: place

def walk (place : List α) (path : List (Move α)) : List α := path.foldl step place

section

variable (place : List α) (path : List (Move α)) (move : Move α)

theorem ups_concat : ups (path ++ [move]) = ups path + move.rise := by
  simp [ups]

theorem downs_concat : downs (path ++ [move]) = downs path + move.drop := by
  simp [downs]

theorem walk_append (on : List (Move α)) :
    walk place (path ++ on) = walk (walk place path) on :=
  foldl_append

theorem walk_concat : walk place (path ++ [move]) = step (walk place path) move :=
  walk_append place path [move]

end

def Descends (path : List (Move α)) : Prop :=
  (∃ move ∈ path, move ≠ .stay) ∧
    ∀ initial, initial <+: path → (∃ move ∈ initial, move ≠ .stay) → ups initial < downs initial

variable {path : List (Move α)} {dir : List α} {move : Move α}

theorem Descends.ups_lt_downs (hpath : Descends path) : ups path < downs path :=
  hpath.2 path prefix_rfl hpath.1

theorem descends_into (name : α) : Descends [Move.into name] := by
  refine ⟨⟨_, mem_cons_self .., by simp⟩, ?_⟩
  rintro initial hinitial ⟨move, hmem, -⟩
  rcases prefix_cons_iff.mp hinitial with rfl | ⟨rest, rfl, hrest⟩
  · exact absurd hmem not_mem_nil
  · rw [prefix_nil.mp hrest]
    exact Nat.zero_lt_one

theorem Descends.concat (hpath : Descends path)
    (hcount : ups path + move.rise < downs path + move.drop) : Descends (path ++ [move]) := by
  obtain ⟨⟨first, hmem, hfirst⟩, hinitials⟩ := hpath
  refine ⟨⟨first, mem_append_left _ hmem, hfirst⟩, fun initial hinitial hmoves => ?_⟩
  rcases prefix_concat_iff.mp hinitial with rfl | hearlier
  · rwa [ups_concat, downs_concat]
  · exact hinitials initial hearlier hmoves

theorem walk_of_still (place : List α) (hstill : ∀ move ∈ path, move = .stay) :
    walk place path = place ∧ ups path = 0 ∧ downs path = 0 := by
  induction path with
  | nil => exact ⟨rfl, rfl, rfl⟩
  | cons move rest ih =>
    obtain ⟨rfl, hrest⟩ := forall_mem_cons.mp hstill
    obtain ⟨hwalk, hups, hdowns⟩ := ih hrest
    refine ⟨hwalk, ?_, ?_⟩
    · exact (Nat.zero_add _).trans hups
    · exact (Nat.zero_add _).trans hdowns

theorem Descends.of_concat (hpath : Descends (path ++ [move])) :
    Descends path ∨ (∀ other ∈ path, other = .stay) ∧ ∃ name, move = .into name := by
  by_cases hmoves : ∃ other ∈ path, other ≠ .stay
  · refine Or.inl ⟨hmoves, fun initial hinitial => ?_⟩
    exact hpath.2 initial (hinitial.trans (prefix_append ..))
  · have hstill : ∀ other ∈ path, other = .stay := by simpa using hmoves
    obtain ⟨-, hups, hdowns⟩ := walk_of_still [] hstill
    have hcount := hpath.ups_lt_downs
    rw [ups_concat, downs_concat, hups, hdowns] at hcount
    cases move with
    | into name => exact Or.inr ⟨hstill, name, rfl⟩
    | _ => exact absurd hcount (Nat.not_lt_zero _)

theorem walk_of_descends (place : List α) (hpath : Descends path) :
    ∃ below, walk place path = below ++ place ∧ below.length + ups path = downs path := by
  induction path using List.reverseRecOn with
  | nil => simp [Descends] at hpath
  | append_singleton path move ih =>
    rw [walk_concat, ups_concat, downs_concat]
    rcases hpath.of_concat with hbefore | ⟨hstill, name, rfl⟩
    · obtain ⟨below, hwalk, hlength⟩ := ih hbefore
      rw [hwalk]
      cases move with
      | stay => exact ⟨below, rfl, hlength⟩
      | into name =>
        refine ⟨name :: below, rfl, ?_⟩
        rw [length_cons, ← hlength]
        simp only [Move.rise, Move.drop]
        omega
      | up =>
        have hcount := hbefore.ups_lt_downs
        cases below with
        | nil => simp at hlength; omega
        | cons last rest =>
          refine ⟨rest, rfl, ?_⟩
          rw [← hlength, length_cons]
          simp only [Move.rise, Move.drop]
          omega
    · obtain ⟨hwalk, hups, hdowns⟩ := walk_of_still place hstill
      rw [hwalk, hups, hdowns]
      exact ⟨[name], rfl, rfl⟩

theorem exists_descent {below : List α} (hbelow : below ≠ [])
    (hwalk : walk [] path = below ++ dir) :
    ∃ there on, path = there ++ on ∧ walk [] there = dir ∧ Descends on := by
  induction path using List.reverseRecOn generalizing below with
  | nil => exact absurd (append_eq_nil_iff.mp hwalk.symm).1 hbelow
  | append_singleton path move ih =>
    rw [walk_concat] at hwalk
    cases move with
    | stay =>
      obtain ⟨there, on, rfl, hthere, hon⟩ := ih hbelow hwalk
      refine ⟨there, on ++ [.stay], append_assoc .., hthere, hon.concat ?_⟩
      exact hon.ups_lt_downs
    | into name =>
      obtain ⟨last, rest, rfl⟩ := exists_cons_of_ne_nil hbelow
      obtain ⟨rfl, hrest⟩ := List.cons.inj hwalk
      by_cases hnil : rest = []
      · subst hnil
        exact ⟨path, [.into name], rfl, hrest, descends_into name⟩
      · obtain ⟨there, on, rfl, hthere, hon⟩ := ih hnil hrest
        refine ⟨there, on ++ [.into name], append_assoc .., hthere, hon.concat ?_⟩
        exact Nat.lt_succ_of_lt hon.ups_lt_downs
    | up =>
      -- One level above the end the path was still below the directory, by one name more.
      obtain ⟨last, hlast⟩ : ∃ last, walk [] path = (last :: below) ++ dir := by
        cases hplace : walk [] path with
        | nil =>
          rw [hplace] at hwalk
          exact absurd (append_eq_nil_iff.mp hwalk.symm).1 hbelow
        | cons last =>
          rw [hplace] at hwalk
          exact ⟨last, congrArg (last :: ·) hwalk⟩
      obtain ⟨there, on, rfl, hthere, hon⟩ := ih (cons_ne_nil last below) hlast
      refine ⟨there, on ++ [.up], append_assoc .., hthere, hon.concat ?_⟩
      obtain ⟨names, hnames, hlength⟩ := walk_of_descends dir hon
      rw [walk_append, hthere, hnames] at hlast
      rw [append_cancel_right hlast, length_cons] at hlength
      have hpos := length_pos_of_ne_nil hbelow
      simp only [Move.rise, Move.drop]
      omega

theorem below_iff :
    (dir <:+ walk [] path ∧ walk [] path ≠ dir) ↔
      ∃ there on, path = there ++ on ∧ walk [] there = dir ∧ Descends on := by
  constructor
  · rintro ⟨⟨below, hwalk⟩, hne⟩
    refine exists_descent ?_ hwalk.symm
    rintro rfl
    exact hne hwalk.symm
  · rintro ⟨there, on, rfl, hthere, hon⟩
    obtain ⟨below, hwalk, hlength⟩ := walk_of_descends dir hon
    rw [walk_append, hthere, hwalk]
    refine ⟨suffix_append .., fun hsame => ?_⟩
    have hnil : below = [] := append_left_eq_self.mp hsame
    have hcount := hon.ups_lt_downs
    rw [hnil, length_nil] at hlength
    omega

end DirPath
