import BrokerParrot.Lib.Prog
import BrokerParrot.Lib.PyValue

/-!
# Reading JSON text

The decoder of the modelled language's standard library, over characters. It accepts a little more
than JSON, namely the three numbers that are no numbers, and refuses integers of too many digits and
documents nested deeper than the interpreter's recursion limit, which is a parameter. What a
document is turned into is given by a reader, with one function for each kind of document.

A string of the language may hold half of a surrogate pair, a string here cannot; such a half is
read as the replacement character. Floats are exact.
-/

inductive JsonError where
  | valueError
  | recursionError
  deriving DecidableEq, Repr

structure JsonReader (α : Type) where
  null : α
  bool : Bool → α
  int : ℤ → α
  float : PyFloat → α
  str : String → α
  list : List α → α
  dict : List (String × α) → α

namespace Json

open List

variable {α : Type} {text rest : List Char}

abbrev Scanned := Except JsonError

def isSpace (c : Char) : Bool := c = ' ' ∨ c = '\t' ∨ c = '\n' ∨ c = '\r'

def skipSpace (text : List Char) : List Char := text.dropWhile isSpace

/-! ### Strings -/

def replacement : Char := '\uFFFD'

def hexDigit? (c : Char) : Option ℕ :=
  if '0' ≤ c ∧ c ≤ '9' then some (c.toNat - '0'.toNat)
  else if 'a' ≤ c ∧ c ≤ 'f' then some (c.toNat - 'a'.toNat + 10)
  else if 'A' ≤ c ∧ c ≤ 'F' then some (c.toNat - 'A'.toNat + 10)
  else none

def hex4 : List Char → Option (ℕ × List Char)
  | a :: b :: c :: d :: rest => do
    let a ← hexDigit? a
    let b ← hexDigit? b
    let c ← hexDigit? c
    let d ← hexDigit? d
    return (((a * 16 + b) * 16 + c) * 16 + d, rest)
  | _ => none

def lowSurrogate? : List Char → Option (ℕ × List Char)
  | '\\' :: 'u' :: rest => (hex4 rest).filter fun found => 0xDC00 ≤ found.1 ∧ found.1 ≤ 0xDFFF
  | _ => none

def unicodeEscape (text : List Char) : Option (Char × List Char) :=
  (hex4 text).map fun (unit, rest) =>
    if 0xD800 ≤ unit ∧ unit ≤ 0xDBFF then
      match lowSurrogate? rest with
      | some (low, more) =>
        (Char.ofNat (0x10000 + (unit - 0xD800) * 0x400 + (low - 0xDC00)), more)
      | none => (replacement, rest)
    else if 0xDC00 ≤ unit ∧ unit ≤ 0xDFFF then
      (replacement, rest)
    else
      (Char.ofNat unit, rest)

def simpleEscape? (c : Char) : Option Char :=
  OrdDict.lookupIn
    [('\"', '\"'), ('\\', '\\'), ('/', '/'), ('b', '\x08'), ('f', '\x0C'), ('n', '\n'),
      ('r', '\r'), ('t', '\t')] c

def escape : List Char → Option (Char × List Char)
  | [] => none
  | c :: rest =>
    if c = 'u' then unicodeEscape rest else (simpleEscape? c).map fun char => (char, rest)

def scanString : ℕ → List Char → Scanned (List Char × List Char)
  | 0, _ => .error .valueError
  | _ + 1, [] => .error .valueError
  | fuel + 1, c :: rest =>
    if c = '\"' then
      .ok ([], rest)
    else if c = '\\' then
      match escape rest with
      | none => .error .valueError
      | some (char, more) => do
        let (chars, after) ← scanString fuel more
        return (char :: chars, after)
    else if c < ' ' then
      .error .valueError
    else do
      let (chars, after) ← scanString fuel rest
      return (c :: chars, after)

/-! Written strings are ASCII: everything else is escaped, in pairs beyond the basic plane. -/

def hexChar (n : ℕ) : Char := Char.ofNat (if n % 16 < 10 then 48 + n % 16 else 87 + n % 16)

def hexEscape (unit : ℕ) : List Char :=
  ['\\', 'u', hexChar (unit / 4096), hexChar (unit / 256), hexChar (unit / 16), hexChar unit]

def escapeChar (c : Char) : List Char :=
  match OrdDict.lookupIn
      [('\"', '\"'), ('\\', '\\'), ('\x08', 'b'), ('\x0C', 'f'), ('\n', 'n'), ('\r', 'r'),
        ('\t', 't')] c with
  | some letter => ['\\', letter]
  | none =>
    if ' ' ≤ c ∧ c ≤ '~' then
      [c]
    else if c.toNat < 0x10000 then
      hexEscape c.toNat
    else
      hexEscape (0xD800 + (c.toNat - 0x10000) / 0x400) ++
        hexEscape (0xDC00 + (c.toNat - 0x10000) % 0x400)

def dumpsString (text : String) : List Char :=
  '\"' :: text.toList.flatMap escapeChar ++ ['\"']

def dumpsStrings (texts : List String) : String :=
  String.ofList ('[' :: [',', ' '].intercalate (texts.map dumpsString) ++ [']'])

/-! ### Numbers -/

def natOf (digits : List Char) : ℕ :=
  digits.foldl (fun value digit => value * 10 + (digit.toNat - '0'.toNat)) 0

def wholePart? (text : List Char) : Option (List Char × List Char) :=
  match text with
  | '0' :: rest => some (['0'], rest)
  | _ =>
    if text.takeWhile Char.isDigit = [] then
      none
    else
      some (text.takeWhile Char.isDigit, text.dropWhile Char.isDigit)

def fraction (text : List Char) : List Char × List Char :=
  match text with
  | '.' :: rest =>
    if rest.takeWhile Char.isDigit = [] then
      ([], text)
    else
      (rest.takeWhile Char.isDigit, rest.dropWhile Char.isDigit)
  | _ => ([], text)

def sign : List Char → Bool × List Char
  | '-' :: rest => (true, rest)
  | '+' :: rest => (false, rest)
  | text => (false, text)

def exponent (text : List Char) : Option ℤ × List Char :=
  match text with
  | [] => (none, text)
  | c :: rest =>
    let (negative, digits) := sign rest
    if (c = 'e' ∨ c = 'E') ∧ digits.takeWhile Char.isDigit ≠ [] then
      let power : ℤ := natOf (digits.takeWhile Char.isDigit)
      (some (if negative then -power else power), digits.dropWhile Char.isDigit)
    else
      (none, text)

def maxIntDigits : ℕ := 4300

def floatOf (negative : Bool) (digits : List Char) (power : ℤ) : PyFloat :=
  let size : ℚ := natOf digits * 10 ^ power.toNat / 10 ^ (-power).toNat
  if PyFloat.limit ≤ size then
    if negative then .negInf else .posInf
  else
    .finite (if negative then -size else size)

def scanNumber (reader : JsonReader α) (text : List Char) : Scanned (α × List Char) :=
  let (negative, digits) :=
    match text with
    | '-' :: rest => (true, rest)
    | _ => (false, text)
  match wholePart? digits with
  | none => .error .valueError
  | some (whole, rest) =>
    let (decimals, rest) := fraction rest
    let (power, rest) := exponent rest
    if decimals = [] ∧ power = none then
      if maxIntDigits < whole.length then
        .error .valueError
      else
        .ok (reader.int (if negative then -(natOf whole : ℤ) else natOf whole), rest)
    else
      .ok (reader.float
        (floatOf negative (whole ++ decimals) (power.getD 0 - decimals.length)), rest)

/-! ### Documents -/

def dropWord? : List Char → List Char → Option (List Char)
  | [], text => some text
  | _ :: _, [] => none
  | c :: word, d :: text => if c = d then dropWord? word text else none

def words (reader : JsonReader α) : List (String × α) :=
  [("null", reader.null), ("true", reader.bool true), ("false", reader.bool false),
    ("NaN", reader.float .nan), ("Infinity", reader.float .posInf),
    ("-Infinity", reader.float .negInf)]

def scanAtom (reader : JsonReader α) (text : List Char) : Scanned (α × List Char) :=
  match (words reader).findSome? fun word =>
      (dropWord? word.1.toList text).map fun rest => (word.2, rest) with
  | some found => .ok found
  | none => scanNumber reader text

mutual

/-- One document. The fuel bounds the calls, the depth the containers that may still be opened. -/
def scanValue (reader : JsonReader α) : ℕ → ℕ → List Char → Scanned (α × List Char)
  | 0, _, _ => .error .valueError
  | _ + 1, _, [] => .error .valueError
  | fuel + 1, depth, c :: rest =>
    if c = '\"' then do
      let (chars, after) ← scanString (rest.length + 1) rest
      return (reader.str (String.ofList chars), after)
    else if c = '[' then
      match depth with
      | 0 => .error .recursionError
      | depth + 1 =>
        match skipSpace rest with
        | ']' :: after => .ok (reader.list [], after)
        | text => scanItems reader fuel depth [] text
    else if c = '\x7b' then
      match depth with
      | 0 => .error .recursionError
      | depth + 1 =>
        match skipSpace rest with
        | '\x7d' :: after => .ok (reader.dict [], after)
        | text => scanEntries reader fuel depth [] text
    else
      scanAtom reader (c :: rest)

def scanItems (reader : JsonReader α) : ℕ → ℕ → List α → List Char → Scanned (α × List Char)
  | 0, _, _, _ => .error .valueError
  | fuel + 1, depth, items, text => do
    let (item, rest) ← scanValue reader fuel depth text
    match skipSpace rest with
    | ']' :: after => return (reader.list (items ++ [item]), after)
    | ',' :: more => scanItems reader fuel depth (items ++ [item]) (skipSpace more)
    | _ => throw .valueError

def scanEntries (reader : JsonReader α) :
    ℕ → ℕ → List (String × α) → List Char → Scanned (α × List Char)
  | 0, _, _, _ => .error .valueError
  | fuel + 1, depth, entries, text =>
    match text with
    | '\"' :: rest => do
      let (chars, after) ← scanString (rest.length + 1) rest
      match skipSpace after with
      | ':' :: more => do
        let (value, rest) ← scanValue reader fuel depth (skipSpace more)
        let entries := OrdDict.insertIn entries (String.ofList chars) value
        match skipSpace rest with
        | '\x7d' :: after => return (reader.dict entries, after)
        | ',' :: more => scanEntries reader fuel depth entries (skipSpace more)
        | _ => throw .valueError
      | _ => throw .valueError
    | _ => .error .valueError

end

/-- `json.loads`. A call reads a character or hands on to one that does, so twice the length is fuel
enough. -/
def loads (reader : JsonReader α) (depth : ℕ) (text : String) : Except JsonError α :=
  if text.toList.head? = some '\uFEFF' then
    .error .valueError
  else do
    let (value, rest) ←
      scanValue reader (2 * text.length + 2) depth (skipSpace text.toList)
    if skipSpace rest = [] then return value else throw .valueError

/-! ### What a text can be read as -/

theorem hex4_length {unit : ℕ} (hread : hex4 text = some (unit, rest)) :
    rest.length < text.length := by
  match text, hread with
  | a :: b :: c :: d :: tail, hread =>
    simp only [hex4, Option.bind_eq_bind, Option.bind_eq_some_iff, Option.pure_def,
      Option.some.injEq, Prod.mk.injEq] at hread
    obtain ⟨_, -, _, -, _, -, _, -, -, rfl⟩ := hread
    simp only [length_cons]
    omega

theorem lowSurrogate?_length {low : ℕ} (hread : lowSurrogate? text = some (low, rest)) :
    rest.length < text.length := by
  unfold lowSurrogate? at hread
  split at hread
  · next tail =>
      have htail := hex4_length (Option.eq_some_of_filter_eq_some hread)
      simp only [length_cons]
      omega
  · cases hread

theorem unicodeEscape_length {char : Char} (hread : unicodeEscape text = some (char, rest)) :
    rest.length < text.length := by
  obtain ⟨⟨unit, after⟩, hunit, hchar⟩ := Option.map_eq_some_iff.mp hread
  have hafter := hex4_length hunit
  dsimp only at hchar
  split at hchar
  · split at hchar
    · next low more hlow =>
        obtain rfl := (Prod.mk.inj hchar).2
        exact (lowSurrogate?_length hlow).trans hafter
    · obtain rfl := (Prod.mk.inj hchar).2
      exact hafter
  · split at hchar
    all_goals
      obtain rfl := (Prod.mk.inj hchar).2
      exact hafter

theorem escape_length {char : Char} (hread : escape text = some (char, rest)) :
    rest.length < text.length := by
  cases text with
  | nil => cases hread
  | cons =>
    rw [escape] at hread
    split at hread
    · exact (unicodeEscape_length hread).trans (Nat.lt_succ_self _)
    · obtain ⟨found, -, hfound⟩ := Option.map_eq_some_iff.mp hread
      obtain rfl := (Prod.mk.inj hfound).2
      exact Nat.lt_succ_self _

theorem scanString_length {fuel : ℕ} {chars : List Char}
    (hread : scanString fuel text = .ok (chars, rest)) :
    chars.length + rest.length < text.length := by
  induction fuel generalizing text chars with
  | zero => cases hread
  | succ fuel ih =>
    cases text with
    | nil => cases hread
    | cons c tail =>
      rw [length_cons]
      rw [scanString] at hread
      split at hread
      · obtain ⟨rfl, rfl⟩ := Prod.mk.inj (Except.ok.inj hread)
        simp
      split at hread
      · split at hread
        · cases hread
        · next char more hescape =>
            have hmore := escape_length hescape
            obtain ⟨⟨found, after⟩, hfound, hok⟩ := Except.bind_eq_ok_iff.mp hread
            obtain ⟨rfl, rfl⟩ := Prod.mk.inj (Except.ok.inj hok)
            have hlength := ih hfound
            rw [length_cons]
            omega
      split at hread
      · cases hread
      · obtain ⟨⟨found, after⟩, hfound, hok⟩ := Except.bind_eq_ok_iff.mp hread
        obtain ⟨rfl, rfl⟩ := Prod.mk.inj (Except.ok.inj hok)
        have hlength := ih hfound
        rw [length_cons]
        omega

inductive Makes (reader : JsonReader α) (size : ℕ) : α → Prop
  | null : Makes reader size reader.null
  | bool (flag : Bool) : Makes reader size (reader.bool flag)
  | int (value : ℤ) : Makes reader size (reader.int value)
  | float (value : PyFloat) : Makes reader size (reader.float value)
  | str {text : String} (hshort : text.length < size) : Makes reader size (reader.str text)
  | list (items : List α) : Makes reader size (reader.list items)
  | dict (entries : List (String × α)) : Makes reader size (reader.dict entries)

section

variable {reader : JsonReader α} {size fuel depth : ℕ} {text rest : List Char} {value : α}

theorem scanNumber_makes (hread : scanNumber reader text = .ok (value, rest)) :
    Makes reader size value := by
  unfold scanNumber at hread
  dsimp only at hread
  split at hread
  · cases hread
  · split at hread
    · split at hread
      · cases hread
      · obtain rfl := (Prod.mk.inj (Except.ok.inj hread)).1
        exact .int _
    · obtain rfl := (Prod.mk.inj (Except.ok.inj hread)).1
      exact .float _

theorem scanAtom_makes (hread : scanAtom reader text = .ok (value, rest)) :
    Makes reader size value := by
  unfold scanAtom at hread
  split at hread
  · next found hfound =>
      obtain ⟨word, hmem, hword⟩ := exists_of_findSome?_eq_some hfound
      obtain ⟨after, -, rfl⟩ := Option.map_eq_some_iff.mp hword
      obtain rfl := (Prod.mk.inj (Except.ok.inj hread)).1
      simp only [words, mem_cons, not_mem_nil, or_false] at hmem
      rcases hmem with rfl | rfl | rfl | rfl | rfl | rfl
      · exact .null
      · exact .bool true
      · exact .bool false
      · exact .float .nan
      · exact .float .posInf
      · exact .float .negInf
  · exact scanNumber_makes hread

theorem scanItems_makes {items : List α}
    (hread : scanItems reader fuel depth items text = .ok (value, rest)) :
    Makes reader size value := by
  induction fuel generalizing items text with
  | zero => cases hread
  | succ fuel ih =>
    obtain ⟨⟨item, after⟩, -, hnext⟩ := Except.bind_eq_ok_iff.mp hread
    dsimp only at hnext
    split at hnext
    · obtain rfl := (Prod.mk.inj (Except.ok.inj hnext)).1
      exact .list _
    · exact ih hnext
    · cases hnext

theorem scanEntries_makes {entries : List (String × α)}
    (hread : scanEntries reader fuel depth entries text = .ok (value, rest)) :
    Makes reader size value := by
  induction fuel generalizing entries text with
  | zero => cases hread
  | succ fuel ih =>
    rw [scanEntries.eq_def] at hread
    dsimp only at hread
    split at hread
    · obtain ⟨⟨chars, after⟩, -, hnext⟩ := Except.bind_eq_ok_iff.mp hread
      split at hnext
      · obtain ⟨⟨item, after⟩, -, hlast⟩ := Except.bind_eq_ok_iff.mp hnext
        split at hlast
        · obtain rfl := (Prod.mk.inj (Except.ok.inj hlast)).1
          exact .dict _
        · exact ih hlast
        · cases hlast
      · cases hnext
    · cases hread

theorem scanValue_makes (hread : scanValue reader fuel depth text = .ok (value, rest)) :
    Makes reader text.length value := by
  cases fuel with
  | zero => cases hread
  | succ fuel =>
    cases text with
    | nil => cases hread
    | cons c tail =>
      rw [scanValue.eq_def] at hread
      dsimp only at hread
      split at hread
      · obtain ⟨⟨chars, after⟩, hchars, hok⟩ := Except.bind_eq_ok_iff.mp hread
        obtain rfl := (Prod.mk.inj (Except.ok.inj hok)).1
        have hlength := scanString_length hchars
        refine .str ?_
        simp only [String.length_ofList, length_cons]
        omega
      split at hread
      · split at hread
        · cases hread
        · split at hread
          · obtain rfl := (Prod.mk.inj (Except.ok.inj hread)).1
            exact .list []
          · exact scanItems_makes hread
      split at hread
      · split at hread
        · cases hread
        · split at hread
          · obtain rfl := (Prod.mk.inj (Except.ok.inj hread)).1
            exact .dict []
          · exact scanEntries_makes hread
      · exact scanAtom_makes hread

theorem loads_makes {text : String} (hread : loads reader depth text = .ok value) :
    Makes reader text.length value := by
  unfold loads at hread
  split at hread
  · cases hread
  · obtain ⟨⟨found, after⟩, hfound, hend⟩ := Except.bind_eq_ok_iff.mp hread
    have hle : (skipSpace text.toList).length ≤ text.length := by
      exact (dropWhile_sublist isSpace).length_le
    dsimp only at hend
    split at hend
    · cases hend
      cases scanValue_makes hfound with
      | str hshort => exact .str (hshort.trans_le hle)
      | null => exact .null
      | bool flag => exact .bool flag
      | int number => exact .int number
      | float number => exact .float number
      | list items => exact .list items
      | dict entries => exact .dict entries
    · cases hend

end

end Json
