import Mathlib.Data.List.DropRight
import BrokerParrot.Lib.Subst
import BrokerParrot.Lib.PyString

/-!
# Secrets in an error text

A driver's error text may quote the connection string, or only the part that it choked on.
`scrub_secrets` of `db.py` takes the password from the string as it is written, masks every longer
piece of it, and then whatever looks like a credential.
-/

namespace BrokerParrot

namespace Secrets

def isSpace (c : ℕ) : Bool := PyString.isSpace (Char.ofNat c)

/-- `text.split()`. -/
def words (text : PyStr) : List PyStr := (text.splitOnP isSpace).filter (· ≠ [])

/-- `text.split(sep, 1)[1]`, where the separator is not empty. -/
def afterFirst (sep : PyStr) : PyStr → Option PyStr
  | [] => none
  | c :: rest =>
    if sep <+: c :: rest then some ((c :: rest).drop sep.length) else afterFirst sep rest

def beginsIn : List (List ℕ) → PyStr → Bool
  | [], _ => true
  | _ :: _, [] => false
  | set :: sets, c :: rest => c ∈ set && beginsIn sets rest

/-- `mask_dsn`, `str.lower` and the letters of `\w`. -/
structure ScrubEnv where
  maskDsn : PyStr → PyStr
  lower : PyStr → PyStr
  isWord : ℕ → Bool

def stars : PyStr := PyStr.of "***"

def minSecretFragment : ℕ := 6

def passwordField (lower : PyStr → PyStr) (token : PyStr) : Option PyStr :=
  if PyStr.of "password=" <+: lower token then some ((afterFirst (PyStr.of "=") token).getD [])
  else none

def passwordOf (lower : PyStr → PyStr) (dsn : PyStr) : PyStr :=
  let query := if PyStr.of "password=" <:+: dsn then
      (afterFirst (PyStr.of "?") dsn).bind fun tail =>
        (words (Subst.replaceAll (PyStr.of "&") (PyStr.of " ") tail)).findSome?
          (passwordField lower)
    else none
  let isQuote (c : ℕ) : Bool := c ∈ PyStr.of "'\""
  query.getD <|
    match afterFirst (PyStr.of "://") dsn with
    | some after =>
      let authority :=
        if '@'.toNat ∈ after then (after.rdropWhile (· ≠ '@'.toNat)).dropLast else []
      (afterFirst (PyStr.of ":") authority).getD []
    | none =>
      match (words dsn).findSome? (passwordField lower) with
      | some value => (value.dropWhile isQuote).rdropWhile isQuote
      | none => []

/-- `(?<![\w.-])[^\s:/@]{1,64}:[^\s@]{0,256}@`. No character can be read in two ways. -/
def dsnCredentials (isWord : ℕ → Bool) : Subst.Matcher ℕ := fun previous text =>
  let inUser (c : ℕ) : Bool := !isSpace c ∧ c ∉ PyStr.of ":/@"
  let inPassword (c : ℕ) : Bool := !isSpace c ∧ c ≠ '@'.toNat
  if previous.any fun c => isWord c || c ∈ PyStr.of ".-" then none
  else
    let user := (text.takeWhile inUser).length
    match text.dropWhile inUser with
    | 58 :: rest =>
      let password := (rest.takeWhile inPassword).length
      match rest.dropWhile inPassword with
      | 64 :: _ =>
        if 1 ≤ user ∧ user ≤ 64 ∧ password ≤ 256 then
          some (user + 1 + (password + 1), PyStr.of "***:***@")
        else none
      | _ => none
    | _ => none

/-- The letters of `password` without their case; a long s is one of them. -/
def passwordLetters : List (List ℕ) :=
  "password".toList.map fun c => c.toNat :: c.toUpper.toNat :: if c = 's' then [383] else []

/-- `(password\s*=\s*)(\S+)`. -/
def passwordPair : Subst.Matcher ℕ := fun _ text =>
  if beginsIn passwordLetters text then
    let blanks := ((text.drop 8).takeWhile isSpace).length
    match (text.drop 8).dropWhile isSpace with
    | 61 :: rest =>
      let key := 8 + blanks + 1 + (rest.takeWhile isSpace).length
      let value := (text.drop key).takeWhile fun c => !isSpace c
      if value = [] then none else some (key + value.length, text.take key ++ stars)
    | _ => none
  else none

/-- The pieces of the password from its length less one down to the shortest that is masked. -/
def fragments (secret : PyStr) : List PyStr :=
  (List.range' minSecretFragment (secret.length - minSecretFragment)).reverse.flatMap fun size =>
    (List.range (secret.length - size + 1)).map fun start => (secret.drop start).take size

def scrubPassword (secret out : PyStr) : PyStr :=
  if secret = [] then out
  else if minSecretFragment ≤ secret.length then
    (fragments secret).foldl
      (fun out fragment =>
        if fragment <:+: out then Subst.replaceAll fragment stars out else out)
      (Subst.replaceAll secret stars out)
  else
    let plain (c : Option ℕ) : Bool := !c.any fun c => (Char.ofNat c).isAlphanum
    let quote (c : Option ℕ) : Bool := c.any fun c => c ∈ PyStr.of "'\""
    let mask (before after : Option ℕ → Bool) (out : PyStr) : PyStr :=
      Subst.sub (Subst.literalWhere before after secret stars) out
    mask quote quote (mask (· = some ':'.toNat) plain (mask plain (· = some '@'.toNat) out))

def scrubSecrets (env : ScrubEnv) (text : PyStr) (dsn : Option PyStr) : PyStr :=
  let out := match dsn with
    | some dsn =>
      if dsn = [] then text
      else scrubPassword (passwordOf env.lower dsn)
        (Subst.replaceAll dsn (env.maskDsn dsn) text)
    | none => text
  Subst.sub passwordPair (Subst.sub (dsnCredentials env.isWord) out)

end Secrets

end BrokerParrot
