import Mathlib.Data.Rat.Floor
import BrokerParrot.Lib.OrdDict
import BrokerParrot.Lib.Rounding

/-!
# Values of a dynamic language

What a JSON parser of the modelled language returns, and the conversions a program applies to it.
Floats are exact, apart from the three values that are no numbers; the range of a float matters,
because an integer outside of it cannot be converted.

How numbers are read from text, and what a value looks like as text, is left to the language: it is
a parameter.
-/

/-- The class of the exception that a conversion raises. Its text is not modelled. -/
inductive CastError where
  | typeError
  | valueError
  | overflowError
  | attributeError
  deriving DecidableEq, Repr

inductive PyFloat where
  | finite (value : ℚ)
  | posInf
  | negInf
  | nan
  deriving DecidableEq, Repr

namespace PyFloat

def atMost : PyFloat → ℚ → Bool
  | finite value, bound => decide (value ≤ bound)
  | posInf, _ => false
  | negInf, _ => true
  | nan, _ => false

def exceeds : PyFloat → ℚ → Bool
  | finite value, bound => decide (bound < value)
  | posInf, _ => true
  | negInf, _ => false
  | nan, _ => false

/-- The smallest magnitude an integer cannot be rounded to a float from. -/
def limit : ℤ := 2 ^ 1024 - 2 ^ 970

end PyFloat

inductive PyValue where
  | none
  | bool (flag : Bool)
  | int (value : ℤ)
  | float (value : PyFloat)
  | str (text : String)
  | list (items : List PyValue)
  | dict (entries : List (String × PyValue))

structure PyText where
  float : String → Option PyFloat
  int : String → Option ℤ
  str : PyValue → String

namespace PyValue

def truthy : PyValue → Bool
  | none => false
  | bool flag => flag
  | int value => decide (value ≠ 0)
  | float value => decide (value ≠ .finite 0)
  | str text => decide (text ≠ "")
  | list items => !items.isEmpty
  | dict entries => !entries.isEmpty

def field (entries : List (String × PyValue)) (key : String) : PyValue :=
  (OrdDict.lookupIn entries key).getD none

def orElse (value default : PyValue) : PyValue := if value.truthy then value else default

def toFloat (text : PyText) : PyValue → Except CastError PyFloat
  | none => .error .typeError
  | bool flag => .ok (.finite (if flag then 1 else 0))
  | int value =>
    if |value| < PyFloat.limit then .ok (.finite value) else .error .overflowError
  | float value => .ok value
  | str digits => (text.float digits).elim (.error .valueError) .ok
  | list _ => .error .typeError
  | dict _ => .error .typeError

def toInt (text : PyText) : PyValue → Except CastError ℤ
  | none => .error .typeError
  | bool flag => .ok (if flag then 1 else 0)
  | int value => .ok value
  | float (.finite value) => .ok (Rounding.truncate value)
  | float .nan => .error .valueError
  | float _ => .error .overflowError
  | str digits => (text.int digits).elim (.error .valueError) .ok
  | list _ => .error .typeError
  | dict _ => .error .typeError

def toStr (text : PyText) : PyValue → String
  | str written => written
  | value => text.str value

def asDict : PyValue → Except CastError (List (String × PyValue))
  | dict entries => .ok entries
  | _ => .error .attributeError

def powTwo (exponent : ℤ) : Except CastError ℚ :=
  if -PyFloat.limit < exponent then .ok (2 ^ exponent) else .error .overflowError

end PyValue

/-! ### Computations that return -/

def PyReturns {α : Type} (result : Except CastError α) (post : α → Prop) : Prop :=
  ∃ value, result = .ok value ∧ post value

namespace PyReturns

variable {α β : Type} {result : Except CastError α} {post weaker : α → Prop}

theorem ok {value : α} (hpost : post value) : PyReturns (.ok value) post := ⟨value, rfl, hpost⟩

variable (hresult : PyReturns result post) {after : β → Prop}

include hresult

theorem bind {next : α → Except CastError β}
    (hnext : ∀ value, post value → PyReturns (next value) after) :
    PyReturns (result >>= next) after := by
  obtain ⟨value, rfl, hpost⟩ := hresult
  exact hnext value hpost

theorem map {view : α → β} (hview : ∀ value, post value → after (view value)) :
    PyReturns (view <$> result) after := by
  obtain ⟨value, rfl, hpost⟩ := hresult
  exact ⟨view value, rfl, hview value hpost⟩

theorem mono (hle : ∀ value, post value → weaker value) : PyReturns result weaker := by
  obtain ⟨value, heq, hpost⟩ := hresult
  exact ⟨value, heq, hle value hpost⟩

end PyReturns
