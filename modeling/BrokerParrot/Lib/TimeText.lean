import Mathlib.Tactic.Ring
import BrokerParrot.Lib.PyString

/-!
# Timestamps as text

A calendar time, the text it is printed as, and the reader of the standard library that takes such a
text apart again. What the reader accepts is checked against the calendar, so a time that does not
exist is never built.
-/

namespace TimeText

open List PyString

/-! ### The calendar -/

def isLeapYear (year : ℕ) : Bool := year % 4 = 0 ∧ (year % 100 ≠ 0 ∨ year % 400 = 0)

def daysInMonth (year month : ℕ) : ℕ :=
  if month = 2 then
    if isLeapYear year then 29 else 28
  else if month = 4 ∨ month = 6 ∨ month = 9 ∨ month = 11 then
    30
  else
    31

structure Time where
  year : ℕ
  month : ℕ
  day : ℕ
  hour : ℕ
  minute : ℕ
  second : ℕ
  micro : ℕ
  year_mem : 1 ≤ year ∧ year ≤ 9999
  month_mem : 1 ≤ month ∧ month ≤ 12
  day_mem : 1 ≤ day ∧ day ≤ daysInMonth year month
  hour_lt : hour < 24
  minute_lt : minute < 60
  second_lt : second < 60
  micro_lt : micro < 1000000
  deriving DecidableEq

namespace Time

def mk? (year month day hour minute second micro : ℕ) : Option Time :=
  if h : (1 ≤ year ∧ year ≤ 9999) ∧ (1 ≤ month ∧ month ≤ 12) ∧
      (1 ≤ day ∧ day ≤ daysInMonth year month) ∧ hour < 24 ∧ minute < 60 ∧ second < 60 ∧
      micro < 1000000 then
    some ⟨year, month, day, hour, minute, second, micro, h.1, h.2.1, h.2.2.1, h.2.2.2.1,
      h.2.2.2.2.1, h.2.2.2.2.2.1, h.2.2.2.2.2.2⟩
  else
    none

def withMicro (time : Time) (micro : ℕ) (hlt : micro < 1000000) : Time :=
  { time with micro := micro, micro_lt := hlt }

theorem day_le (time : Time) : time.day ≤ 31 := by
  have hday := time.day_mem.2
  unfold daysInMonth at hday
  split_ifs at hday <;> omega

theorem mk?_fields (time : Time) {micro : ℕ} (hlt : micro < 1000000) :
    mk? time.year time.month time.day time.hour time.minute time.second micro =
      some (time.withMicro micro hlt) :=
  dif_pos ⟨time.year_mem, time.month_mem, time.day_mem, time.hour_lt, time.minute_lt,
    time.second_lt, hlt⟩

end Time

/-! ### Printing -/

def digit (n : ℕ) : Char := Char.ofNat (48 + n % 10)

def pad : ℕ → ℕ → List Char
  | 0, _ => []
  | width + 1, n => pad width (n / 10) ++ [digit n]

def secondsText (time : Time) : List Char :=
  pad 4 time.year ++ '-' :: (pad 2 time.month ++ '-' :: (pad 2 time.day ++ ' ' ::
    (pad 2 time.hour ++ ':' :: (pad 2 time.minute ++ ':' :: pad 2 time.second))))

def millisText (time : Time) : List Char :=
  secondsText time ++ '.' :: pad 3 (time.micro / 1000)

/-! ### Reading -/

def natOf (run : List Char) : ℕ := run.foldl (fun value c => 10 * value + (c.toNat - 48)) 0

def readRun (shortest longest : ℕ) (text : List Char) : Option (List Char × List Char) :=
  let run := text.takeWhile Char.isDigit
  if shortest ≤ run.length ∧ run.length ≤ longest then
    some (run, text.dropWhile Char.isDigit)
  else
    none

def readField (least most : ℕ) (text : List Char) : Option (ℕ × List Char) := do
  let (run, rest) ← readRun 1 2 text
  if least ≤ natOf run ∧ natOf run ≤ most then some (natOf run, rest) else none

def readYear (text : List Char) : Option (ℕ × List Char) := do
  let (run, rest) ← readRun 4 4 text
  return (natOf run, rest)

def readDay : List Char → Option (ℕ × List Char)
  | ' ' :: text => do
    let (run, rest) ← readRun 1 1 text
    if 1 ≤ natOf run then some (natOf run, rest) else none
  | text => readField 1 31 text

def readChar (expected : Char) : List Char → Option (List Char)
  | [] => none
  | c :: rest => if c = expected then some rest else none

def readSpaces (text : List Char) : Option (List Char) :=
  if text.head?.any isSpace then some (text.dropWhile isSpace) else none

def readFraction (text : List Char) : Option (ℕ × List Char) := do
  let text ← readChar '.' text
  let (run, rest) ← readRun 1 6 text
  return (natOf run * 10 ^ (6 - run.length), rest)

/-- `strptime` for the two formats, without and with a fraction. -/
def strptime (fraction : Bool) (text : List Char) : Option Time := do
  let (year, text) ← readYear text
  let text ← readChar '-' text
  let (month, text) ← readField 1 12 text
  let text ← readChar '-' text
  let (day, text) ← readDay text
  let text ← readSpaces text
  let (hour, text) ← readField 0 23 text
  let text ← readChar ':' text
  let (minute, text) ← readField 0 59 text
  let text ← readChar ':' text
  let (second, text) ← readField 0 61 text
  let (micro, text) ← if fraction then readFraction text else some (0, text)
  if text = [] then Time.mk? year month day hour minute second micro else none

/-! ### What is printed is read -/

theorem isDigit_digit (n : ℕ) : (digit n).isDigit = true := by
  have hall : ∀ k < 10, (Char.ofNat (48 + k)).isDigit = true := by decide
  exact hall (n % 10) (Nat.mod_lt _ (by decide))

theorem isSpace_digit (n : ℕ) : isSpace (digit n) = false := by
  have hall : ∀ k < 10, isSpace (Char.ofNat (48 + k)) = false := by decide
  exact hall (n % 10) (Nat.mod_lt _ (by decide))

theorem toNat_digit (n : ℕ) : (digit n).toNat - 48 = n % 10 := by
  have hall : ∀ k < 10, (Char.ofNat (48 + k)).toNat - 48 = k := by decide
  exact hall (n % 10) (Nat.mod_lt _ (by decide))

theorem isDigit_of_mem_pad {width n : ℕ} {c : Char} (hmem : c ∈ pad width n) :
    c.isDigit = true := by
  induction width generalizing n with
  | zero => cases hmem
  | succ width ih =>
    rcases mem_append.mp hmem with hinit | hlast
    · exact ih hinit
    · rw [mem_singleton.mp hlast]
      exact isDigit_digit n

@[simp]
theorem length_pad (width n : ℕ) : (pad width n).length = width := by
  induction width generalizing n with
  | zero => rfl
  | succ width ih => simp [pad, ih]

theorem natOf_concat (run : List Char) (c : Char) :
    natOf (run ++ [c]) = 10 * natOf run + (c.toNat - 48) := by
  simp [natOf]

theorem natOf_pad {width n : ℕ} (hlt : n < 10 ^ width) : natOf (pad width n) = n := by
  induction width generalizing n with
  | zero =>
    obtain rfl : n = 0 := by simpa using hlt
    rfl
  | succ width ih =>
    have hdiv : n / 10 < 10 ^ width := by
      omega
    rw [pad, natOf_concat, ih hdiv, toNat_digit]
    omega

section

variable {text : List Char} {n : ℕ}

def NoDigit (text : List Char) : Prop := ∀ c ∈ text.head?, c.isDigit = false

theorem noDigit_nil : NoDigit [] := by simp [NoDigit]

theorem noDigit_cons {c : Char} (hc : c.isDigit = false) : NoDigit (c :: text) := by
  simpa [NoDigit] using hc

theorem takeWhile_of_noDigit (hrest : NoDigit text) : text.takeWhile Char.isDigit = [] := by
  cases text with
  | nil => rfl
  | cons => simp [NoDigit] at hrest; simp [hrest]

theorem dropWhile_of_noDigit (hrest : NoDigit text) : text.dropWhile Char.isDigit = text := by
  cases text with
  | nil => rfl
  | cons => simp [NoDigit] at hrest; simp [hrest]

theorem readRun_pad {shortest longest width : ℕ} (n : ℕ) (hrest : NoDigit text)
    (hwidth : shortest ≤ width ∧ width ≤ longest) :
    readRun shortest longest (pad width n ++ text) = some (pad width n, text) := by
  have hdigits : ∀ c ∈ pad width n, c.isDigit = true := fun c => isDigit_of_mem_pad
  unfold readRun
  rw [takeWhile_append_of_pos hdigits, dropWhile_append_of_pos hdigits,
    takeWhile_of_noDigit hrest, dropWhile_of_noDigit hrest]
  simp [hwidth]

theorem readField_pad {least most : ℕ} (hrest : NoDigit text) (hleast : least ≤ n)
    (hmost : n ≤ most) (hlt : n < 10 ^ 2) :
    readField least most (pad 2 n ++ text) = some (n, text) := by
  unfold readField
  rw [readRun_pad n hrest ⟨by decide, by decide⟩]
  simp [natOf_pad hlt, hleast, hmost]

theorem readYear_pad (hrest : NoDigit text) (hlt : n < 10 ^ 4) :
    readYear (pad 4 n ++ text) = some (n, text) := by
  unfold readYear
  rw [readRun_pad n hrest ⟨by decide, by decide⟩]
  simp [natOf_pad hlt]

theorem readDay_pad (hrest : NoDigit text) (hpos : 1 ≤ n) (hmost : n ≤ 31) :
    readDay (pad 2 n ++ text) = some (n, text) := by
  have hhead : pad 2 n ++ text = digit (n / 10) :: digit n :: text := rfl
  have hblank : digit (n / 10) ≠ ' ' := by
    intro heq
    have hdigit := isDigit_digit (n / 10)
    rw [heq] at hdigit
    cases hdigit
  have hplain : readDay (pad 2 n ++ text) = readField 1 31 (pad 2 n ++ text) := by
    unfold readDay
    split
    · rename_i heq
      exact absurd (List.cons.inj heq).1 hblank
    · rfl
  rw [hplain]
  exact readField_pad hrest hpos hmost (by omega)

theorem readSpaces_pad : readSpaces (' ' :: (pad 2 n ++ text)) = some (pad 2 n ++ text) := by
  have hhead : pad 2 n ++ text = digit (n / 10) :: digit n :: text := rfl
  have hdigit : isSpace (digit (n / 10)) = false := isSpace_digit _
  have hblank : isSpace ' ' = true := by decide
  unfold readSpaces
  rw [hhead]
  simp [hblank, hdigit]

theorem readFraction_pad (hlt : n < 10 ^ 3) :
    readFraction ('.' :: pad 3 n) = some (n * 1000, []) := by
  have hrun : readRun 1 6 (pad 3 n ++ []) = some (pad 3 n, []) :=
    readRun_pad n noDigit_nil ⟨by decide, by decide⟩
  rw [append_nil] at hrun
  unfold readFraction
  simp [readChar, hrun, natOf_pad hlt]

@[simp]
theorem readChar_cons (c : Char) : readChar c (c :: text) = some text := if_pos rfl

theorem bind_of_eq_some {α β : Type} {found : Option α} {value : α} {next : α → Option β}
    (hfound : found = some value) : found >>= next = next value := by
  rw [hfound]
  rfl

theorem strptime_secondsText_append (fraction : Bool) (time : Time) (hrest : NoDigit text) :
    strptime fraction (secondsText time ++ text) =
      (if fraction then readFraction text else some (0, text)).bind fun (micro, text) =>
        if text = [] then
          Time.mk? time.year time.month time.day time.hour time.minute time.second micro
        else
          none := by
  have hyear := time.year_mem
  have hmonth := time.month_mem
  have hday := time.day_le
  have hhour := time.hour_lt
  have hminute := time.minute_lt
  have hsecond := time.second_lt
  have hdash : '-'.isDigit = false := by decide
  have hblank : ' '.isDigit = false := by decide
  have hcolon : ':'.isDigit = false := by decide
  have hshape : secondsText time ++ text =
      pad 4 time.year ++ '-' :: (pad 2 time.month ++ '-' :: (pad 2 time.day ++ ' ' ::
        (pad 2 time.hour ++ ':' :: (pad 2 time.minute ++ ':' ::
          (pad 2 time.second ++ text))))) := by
    simp only [secondsText, append_assoc, cons_append]
  refine (bind_of_eq_some (readYear_pad (noDigit_cons hdash) (by omega))).trans ?_
  refine (bind_of_eq_some (readChar_cons '-')).trans ?_
  refine (bind_of_eq_some (readField_pad (noDigit_cons hdash) hmonth.1 hmonth.2
    (by omega))).trans ?_
  refine (bind_of_eq_some (readChar_cons '-')).trans ?_
  refine (bind_of_eq_some (readDay_pad (noDigit_cons hblank) time.day_mem.1 hday)).trans ?_
  refine (bind_of_eq_some readSpaces_pad).trans ?_
  refine (bind_of_eq_some (readField_pad (noDigit_cons hcolon) (Nat.zero_le _) (by omega)
    (by omega))).trans ?_
  refine (bind_of_eq_some (readChar_cons ':')).trans ?_
  refine (bind_of_eq_some (readField_pad (noDigit_cons hcolon) (Nat.zero_le _) (by omega)
    (by omega))).trans ?_
  refine (bind_of_eq_some (readChar_cons ':')).trans ?_
  refine (bind_of_eq_some (readField_pad hrest (Nat.zero_le _) (by omega) (by omega))).trans ?_
  cases fraction <;> rfl

end

theorem strptime_secondsText (time : Time) :
    strptime false (secondsText time) = some (time.withMicro 0 (by decide)) := by
  have hread := strptime_secondsText_append false time noDigit_nil
  rw [append_nil] at hread
  rw [hread]
  exact time.mk?_fields (by decide)

theorem Time.millis_lt (time : Time) : time.micro / 1000 * 1000 < 1000000 := by
  have hmicro := time.micro_lt
  omega

theorem strptime_millisText (time : Time) :
    strptime true (millisText time) =
      some (time.withMicro (time.micro / 1000 * 1000) time.millis_lt) := by
  have hlt : time.micro / 1000 < 10 ^ 3 := by
    have hmicro := time.micro_lt
    omega
  unfold millisText
  rw [strptime_secondsText_append true time (noDigit_cons (by decide))]
  simp only [if_true, readFraction_pad hlt, Option.bind_some]
  exact time.mk?_fields time.millis_lt

theorem mem_secondsText {time : Time} {c : Char} (hmem : c ∈ secondsText time) :
    c.isDigit = true ∨ c ∈ ['-', ' ', ':'] := by
  simp only [secondsText, mem_append, mem_cons] at hmem
  rcases hmem with h | rfl | h | rfl | h | rfl | h | rfl | h | rfl | h
  all_goals first
    | exact Or.inl (isDigit_of_mem_pad h)
    | exact Or.inr (by decide)

theorem mem_millisText {time : Time} {c : Char} (hmem : c ∈ millisText time) :
    c.isDigit = true ∨ c ∈ ['-', ' ', ':', '.'] := by
  rcases mem_append.mp hmem with hseconds | hfraction
  · refine (mem_secondsText hseconds).imp_right fun hsign => ?_
    exact mem_append_left ['.'] hsign
  · rcases mem_cons.mp hfraction with rfl | hdigit
    · exact Or.inr (by decide)
    · exact Or.inl (isDigit_of_mem_pad hdigit)

theorem strip_eq_self {text : List Char} (first last : ℕ) (middle : List Char)
    (htext : text = digit first :: (middle ++ [digit last])) : strip text = text := by
  have hfirst : text.dropWhile isSpace = text := by
    rw [htext, dropWhile_cons_of_neg (by simp [isSpace_digit])]
  have hlast : text.reverse.dropWhile isSpace = text.reverse := by
    rw [htext, reverse_cons, reverse_append, reverse_singleton,
      singleton_append, cons_append, dropWhile_cons_of_neg (by simp [isSpace_digit])]
  rw [strip, hfirst, hlast, reverse_reverse]

theorem strip_secondsText (time : Time) : strip (secondsText time) = secondsText time := by
  refine strip_eq_self (time.year / 10 / 10 / 10) time.second
    ((secondsText time).tail.dropLast) ?_
  rfl

theorem strip_millisText (time : Time) : strip (millisText time) = millisText time := by
  refine strip_eq_self (time.year / 10 / 10 / 10) (time.micro / 1000)
    ((millisText time).tail.dropLast) ?_
  rfl

@[simp]
theorem length_secondsText (time : Time) : (secondsText time).length = 19 := by
  simp only [secondsText, length_append, length_cons, length_pad]

theorem secondsText_ne_millisText (time other : Time) :
    secondsText time ≠ millisText other := by
  intro heq
  have hlength := congrArg List.length heq
  rw [millisText, length_append, length_secondsText, length_secondsText] at hlength
  simp at hlength

end TimeText
