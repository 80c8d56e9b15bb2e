
/-!
# Truth values of a query

A condition of a query is true, false or unknown, and a row is kept only when its condition is true.
The connectives are the strong three-valued ones.
-/

abbrev Tri := Option Bool

namespace Tri

def Holds (t : Tri) : Prop := t = some true

instance (t : Tri) : Decidable t.Holds := inferInstanceAs (Decidable (t = some true))

def and : Tri → Tri → Tri
  | some true, right => right
  | some false, _ => some false
  | none, some false => some false
  | none, _ => none

def or : Tri → Tri → Tri
  | some false, right => right
  | some true, _ => some true
  | none, some true => some true
  | none, _ => none

def not : Tri → Tri
  | some b => some !b
  | none => none

def all (terms : List Tri) : Tri := terms.foldr and (some true)

def ofProp (p : Prop) [Decidable p] : Tri := some (decide p)

def isNull {α : Type} (value : Option α) : Tri := some value.isNone

def isNotNull {α : Type} (value : Option α) : Tri := some value.isSome

/-- Comparison of two values, unknown as soon as one of them is. -/
def compare {α : Type} (rel : α → α → Prop) [DecidableRel rel] : Option α → Option α → Tri
  | some left, some right => some (decide (rel left right))
  | _, _ => none

def eq {α : Type} [DecidableEq α] (left right : Option α) : Tri := compare (· = ·) left right

@[simp]
theorem holds_and {left right : Tri} : (left.and right).Holds ↔ left.Holds ∧ right.Holds := by
  rcases left with _ | _ | _ <;> rcases right with _ | _ | _ <;> simp [and, Holds]

@[simp]
theorem holds_or {left right : Tri} : (left.or right).Holds ↔ left.Holds ∨ right.Holds := by
  rcases left with _ | _ | _ <;> rcases right with _ | _ | _ <;> simp [or, Holds]

theorem not_holds {t : Tri} (hnot : t.not.Holds) : ¬ t.Holds := by
  rintro rfl
  cases hnot

@[simp]
theorem holds_ofProp {p : Prop} [Decidable p] : (ofProp p).Holds ↔ p := by
  simp [ofProp, Holds]

@[simp]
theorem holds_isNull {α : Type} {value : Option α} : (isNull value).Holds ↔ value = none := by
  simp [isNull, Holds]

theorem holds_isNotNull {α : Type} {value : Option α} :
    (isNotNull value).Holds ↔ value ≠ none := by
  cases value <;> simp [isNotNull, Holds]

theorem holds_not_isNotNull {α : Type} {value : Option α} :
    (isNotNull value).not.Holds ↔ value = none := by
  cases value <;> simp [isNotNull, not, Holds]

theorem holds_not_ofProp {p : Prop} [Decidable p] : (ofProp p).not.Holds ↔ ¬ p := by
  simp [ofProp, not, Holds]

@[simp]
theorem holds_eq {α : Type} [DecidableEq α] {left right : Option α} :
    (eq left right).Holds ↔ left = right ∧ left.isSome := by
  cases left <;> cases right <;> simp [eq, compare, Holds]

theorem holds_all {terms : List Tri} : (all terms).Holds ↔ ∀ t ∈ terms, t.Holds := by
  induction terms with
  | nil => simp [all, Holds]
  | cons head rest ih =>
    have hcons : all (head :: rest) = head.and (all rest) := rfl
    rw [hcons, holds_and, ih, List.forall_mem_cons]

end Tri
