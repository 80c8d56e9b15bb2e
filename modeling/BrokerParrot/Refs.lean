import BrokerParrot.Workflow

/-!
# References

`resolve_ref` replaces the references in a declared value by what the context holds. A dictionary
with one of the markers is a reference, any other dictionary is searched, and everything else stands
for itself. A list is not searched.
-/

namespace BrokerParrot

/-- The language's own functions on values. `attr` is the lookup of an attribute on a value that is
no dictionary. -/
structure RefEnv where
  attr : Value → String → Option Value := fun _ _ => none
  search : String → String → Except PyError Bool := fun _ _ => .ok false
  str : Value → String := fun _ => ""
  repr : Value → String := fun _ => ""
  typeName : Value → String := fun _ => ""

mutual

/-- The language's `==`: a truth value is a number, a dictionary has no order, and the undefined
number differs from itself. -/
def pyEq : Value → Value → Bool
  | .null, .null => true
  | .bool left, .bool right => left = right
  | .bool left, .num right => right = if left then 1 else 0
  | .num left, .bool right => left = if right then 1 else 0
  | .num left, .num right => left = right
  | .special left, .special right => left = right ∧ left ≠ .nan
  | .str left, .str right => left = right
  | .list left, .list right => pyEqItems left right
  | .dict left, .dict right => left.length = right.length && pyEqEntries left right
  | _, _ => false

def pyEqItems : List Value → List Value → Bool
  | [], [] => true
  | left :: lefts, right :: rights => pyEq left right && pyEqItems lefts rights
  | _, _ => false

def pyEqEntries : List (String × Value) → List (String × Value) → Bool
  | [], _ => true
  | (key, left) :: rest, entries =>
    (match OrdDict.lookupIn entries key with
      | some right => pyEq left right
      | none => false) && pyEqEntries rest entries

end

section

variable (env : RefEnv)

def digPart (path : String) (current : Value) (part : String) : Except PyError Value :=
  match current with
  | .dict entries =>
    match OrdDict.lookupIn entries part with
    | some value => .ok value
    | none => .error (.keyError (path ++ ": missing segment " ++ env.repr (.str part)))
  | other =>
    match env.attr other part with
    | some value => .ok value
    | none => .error (.keyError (path ++ ": missing attr " ++ env.repr (.str part)))

def dig (context : Context) : Value → Except PyError Value
  | .str path =>
    ((path.toList.splitOn '.').map String.ofList).foldlM (digPart env path) (.dict context)
  | other => .error (.host ("'" ++ env.typeName other ++ "' object has no attribute 'split'"))

def fieldOf (item : Value) (field : String) : Value :=
  match item with
  | .dict entries => (OrdDict.lookupIn entries field).getD .null
  | other => (env.attr other field).getD .null

def matchEntry (item : Value) (key : String) (expected : Value) : Except PyError Bool :=
  if ':' ∉ key.toList then
    .error (.valueError ("filter key missing op: " ++ env.repr (.str key)))
  else
    let actual := fieldOf env item (String.ofList (key.toList.takeWhile (· ≠ ':')))
    let op := String.ofList ((key.toList.dropWhile (· ≠ ':')).drop 1)
    if op = "eq" then
      .ok (pyEq actual expected)
    else if op = "matches" then
      match actual, expected with
      | .null, _ => .ok false
      | actual, .str pattern => env.search pattern (env.str actual)
      | _, _ => .error (.typeError "first argument must be string or compiled pattern")
    else
      .error (.valueError ("unsupported filter op: " ++ env.repr (.str op)))

def matchEntries (item : Value) : List (String × Value) → Except PyError Bool
  | [] => .ok true
  | (key, expected) :: rest => do
    if ← matchEntry env item key expected then matchEntries item rest else return false

def matchSpec (filterSpec item : Value) : Except PyError Bool :=
  match filterSpec with
  | .dict entries => matchEntries env item entries
  | other => .error (.host ("'" ++ env.typeName other ++ "' object has no attribute 'items'"))

def resolveFrom (context : Context) (entries : List (String × Value)) (source : Value) :
    Except PyError Value := do
  let result ← dig env context source
  match OrdDict.lookupIn entries "$filter" with
  | some filterSpec =>
    match result with
    | .list items => return .list (← items.filterM (matchSpec env filterSpec))
    | other =>
      throw (.typeError ("$filter on non-list at " ++ env.repr source ++ ": " ++
        env.typeName other))
  | none =>
    match OrdDict.lookupIn entries "$eq", OrdDict.lookupIn entries "$ne" with
    | some expected, _ => return .bool (pyEq result expected)
    | none, some expected => return .bool (!pyEq result expected)
    | none, none => return result

mutual

def resolveRef (context : Context) : Value → Except PyError Value
  | .dict entries =>
    match OrdDict.lookupIn entries "$value", OrdDict.lookupIn entries "$coalesce",
      OrdDict.lookupIn entries "$from" with
    | some value, _, _ => .ok value
    | none, some _, _ => coalesce context (OrdDict.lookupIn entries "$default") entries
    | none, none, some source => resolveFrom env context entries source
    | none, none, none => do return .dict (← resolveEntries context entries)
  | value => .ok value

def coalesce (context : Context) (default : Option Value) :
    List (String × Value) → Except PyError Value
  | [] => .error (.keyError "$coalesce")
  | (key, candidates) :: rest =>
    if key = "$coalesce" then
      match candidates with
      | .list items => do
        match ← firstResolved context items, default with
        | some value, _ => return value
        | none, some value => return value
        | none, none =>
          throw (.keyError ("$coalesce: no candidate resolved (and no $default): " ++
            env.repr (.list items)))
      | other =>
        .error (.typeError ("$coalesce expects a list, got " ++ env.typeName other))
    else
      coalesce context default rest

def firstResolved (context : Context) : List Value → Except PyError (Option Value)
  | [] => .ok none
  | candidate :: rest =>
    match resolveRef context candidate with
    | .ok .null => firstResolved context rest
    | .ok value => .ok (some value)
    | .error (.keyError _) => firstResolved context rest
    | .error raised => .error raised

def resolveEntries (context : Context) : List (String × Value) → Except PyError Context
  | [] => .ok []
  | (key, value) :: rest => do
    let resolved ← resolveRef context value
    let others ← resolveEntries context rest
    return (key, resolved) :: others

end

end

end BrokerParrot
