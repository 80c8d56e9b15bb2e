import Mathlib.Data.List.MinMax
import BrokerParrot.Lib.Tri
import BrokerParrot.Lib.Json
import BrokerParrot.Database

/-!
# The two backends

The fragments of `dialect.py` whose answer differs between PostgreSQL and SQLite, or whose answer on
a missing value is not obvious. A text array column is a list, missing when the column is NULL.
-/

namespace BrokerParrot

inductive Dialect where
  | pg
  | sqlite
  deriving DecidableEq, Repr

/-! ### What a column takes -/

def fitsBytes (bytes : ℕ) (n : ℤ) : Bool :=
  -2 ^ (8 * bytes - 1) ≤ n ∧ n < 2 ^ (8 * bytes - 1)

def jsonbText (text : String) : Bool := '\x00' ∉ text.toList

mutual

def jsonbAccepts : Value → Bool
  | .special _ => false
  | .str text => jsonbText text
  | .list items => jsonbAcceptsAll items
  | .dict entries => jsonbAcceptsEntries entries
  | _ => true

def jsonbAcceptsAll : List Value → Bool
  | [] => true
  | item :: rest => jsonbAccepts item && jsonbAcceptsAll rest

def jsonbAcceptsEntries : List (String × Value) → Bool
  | [] => true
  | (key, value) :: rest => jsonbText key && jsonbAccepts value && jsonbAcceptsEntries rest

end

/-- What `enqueue_node_job` writes as text, in columns of their own, in arrays or as JSON. -/
def NodeJob.texts (row : NodeJob) : List String :=
  [row.runId, row.nodeId, row.nodeModule, row.project] ++ row.requiredModel.toList ++
    row.dedupKey.toList ++ row.requiredModelIds.getD [] ++ row.avoidBox.getD [] ++
    row.forceBox.getD [] ++ row.serverTypes.getD [] ++
    (row.requiredModels.getD []).flatMap fun entry => entry.model :: entry.serverTypes.getD []

/-! ### Fragments of the statements -/

namespace Dialect

variable (d : Dialect)

/-- `value = ANY(column)`, or an `EXISTS` over the elements on SQLite, which is never unknown. -/
def arrayContainsValue (column : Option (List String)) (value : Option String) : Tri :=
  match d, column, value with
  | pg, none, _ => none
  | pg, some [], _ => some false
  | pg, some _, none => none
  | sqlite, none, _ => some false
  | sqlite, some _, none => some false
  | _, some items, some item => some (decide (item ∈ items))

def valueInParamArray (value : Option String) (param : List String) : Tri :=
  match param, value with
  | [], _ => some false
  | _, none => none
  | items, some item => some (decide (item ∈ items))

def arraysOverlap (column : Option (List String)) (param : List String) : Tri :=
  match d, column with
  | pg, none => none
  | sqlite, none => some false
  | _, some items => some (decide (∃ item ∈ items, item ∈ param))

def firstOverlap (column : Option (List String)) (param : List String) : Option String :=
  column.bind fun items => items.find? fun item => item ∈ param

/-- The rows of the sub-query: `WITH ORDINALITY` counts from one, the keys of `json_each` from
zero. -/
def elements (items : List String) : List (String × ℕ) :=
  match d with
  | pg => items.zipIdx 1
  | sqlite => items.zipIdx

def firstOverlapQuery (column : Option (List String)) (param : List String) : Option String :=
  column.bind fun items =>
    (((d.elements items).filter fun entry => entry.1 ∈ param).argmin Prod.snd).map Prod.fst

def arrayFirst (column : Option (List String)) : Option String :=
  column.bind List.head?

def arrayToText (items : List String) : String :=
  match d with
  | pg => ",".intercalate items
  | sqlite => Json.dumpsStrings items

/-- `text LIKE 'start%'`, which on SQLite does not see the case of a letter. -/
def likeStart (start : String) (text : Option String) : Tri :=
  text.map fun text =>
    match d with
    | pg => start.toList.isPrefixOf text.toList
    | sqlite => (start.toList.map Char.toLower).isPrefixOf (text.toList.map Char.toLower)

def creationOrder (id : JobId) (row : NodeJob) : ℚ :=
  match d with
  | pg => row.createdAt
  | sqlite => id

/-- `CAST(text AS INTEGER)` of a whole number raises. The integers of PostgreSQL have four bytes;
SQLite stops at the largest one of eight. -/
def castRaises (n : ℤ) : Bool :=
  match d with
  | pg => !fitsBytes 4 n
  | sqlite => false

/-- On SQLite a JSON column is text, and any value can be written as text. -/
def storesJson (delta : List (String × Value)) : Bool :=
  match d with
  | pg => jsonbAcceptsEntries delta
  | sqlite => true

/-- The columns of `workflow_node_jobs` take the row: on PostgreSQL two bytes for `priority` and
`cpu_slots`, four for `context_length` and no NUL in a text, and on SQLite eight bytes. -/
def stores (row : NodeJob) : Bool :=
  match d with
  | pg => fitsBytes 2 row.priority && row.cpuSlots.all (fitsBytes 2) &&
      row.contextLength.all (fitsBytes 4) && jsonbAcceptsEntries row.inputs &&
      row.texts.all jsonbText
  | sqlite => fitsBytes 8 row.priority && row.cpuSlots.all (fitsBytes 8) &&
      row.contextLength.all (fitsBytes 8)

def skipLocked (locked : JobId → Bool) (id : JobId) : Bool :=
  match d with
  | pg => locked id
  | sqlite => false

end Dialect

end BrokerParrot
