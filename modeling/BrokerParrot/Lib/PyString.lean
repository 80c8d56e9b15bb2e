import Mathlib.Data.List.Basic

/-!
# Texts of a dynamic language

A Python text is a list of code points, among them lone surrogates, which no string of ours holds.
White space is what the standard library's strings and patterns take for it.
-/

/-- A text by its code points. -/
abbrev PyStr := List ℕ

namespace PyStr

-- Unification must not read the characters of a literal.
@[irreducible]
def of (text : String) : PyStr := text.toList.map Char.toNat

end PyStr

namespace PyString

/-- `str.isspace` of one character. -/
def isSpace (c : Char) : Bool :=
  (9 ≤ c.toNat ∧ c.toNat ≤ 13) ∨ (28 ≤ c.toNat ∧ c.toNat ≤ 32) ∨ (8192 ≤ c.toNat ∧ c.toNat ≤ 8202) ∨
    c.toNat ∈ [133, 160, 5760, 8232, 8233, 8239, 8287, 12288]

/-- `str.strip` on the characters of a text. -/
def strip (text : List Char) : List Char :=
  ((text.dropWhile isSpace).reverse.dropWhile isSpace).reverse

end PyString

/-- `text.strip()`. -/
def stripped (text : String) : String := String.ofList (PyString.strip text.toList)

@[simp]
theorem stripped_empty : stripped "" = "" := rfl
