import CalcImage.Text.Digit
import CalcImage.Toml.Text
import CalcImage.Toml.Value

/-!
# TOML numbers, moments and truth values

Underscores may stand between two digits of a number. A decimal number has no zero in front of its other digits; with a
fraction or an exponent it is real. A moment is a date, a time of day, or both, and then perhaps with an offset; the
date has to be in the calendar. An integer in decimal has at most as many digits as any number that is read.
-/

namespace CalcImage.Toml

open CalcImage.Text

/-- Digits after the first one, each of which may have an underscore before it. -/
def moreDigits (isDigit : Char → Bool) : List Char → List Char × List Char
  | [] => ([], [])
  | c :: cs =>
    if isDigit c then
      let (ds, rest) := moreDigits isDigit cs
      (c :: ds, rest)
    else
      match c, cs with
      | '_', d :: rest =>
        if isDigit d then
          let (ds, rest) := moreDigits isDigit rest
          (d :: ds, rest)
        else ([], c :: cs)
      | _, _ => ([], c :: cs)

/-- One digit or more. -/
def digits? (isDigit : Char → Bool) : List Char → Read (List Char)
  | [] => none
  | c :: cs =>
    if isDigit c then
      let (ds, rest) := moreDigits isDigit cs
      some (c :: ds, rest)
    else none

/-- The number that digits spell in a base. -/
def valueIn (base : Nat) (ds : List Char) : Nat :=
  ds.foldl (fun n c => base * n + (Hex.value? c).getD 0) 0

/-- A number with a base mark after a zero. -/
def based? : List Char → Read Value
  | '0' :: 'x' :: cs => (digits? Hex.isDigit cs).map fun p => (.integer (valueIn 16 p.1), p.2)
  | '0' :: 'b' :: cs => (digits? (fun c => c == '0' || c == '1') cs).map fun p => (.integer (valueIn 2 p.1), p.2)
  | '0' :: 'o' :: cs => (digits? (fun c => '0' ≤ c && c ≤ '7') cs).map fun p => (.integer (valueIn 8 p.1), p.2)
  | _ => none

/-- A sign, if there is one. -/
def sign : List Char → List Char × List Char
  | '+' :: cs => (['+'], cs)
  | '-' :: cs => (['-'], cs)
  | cs => ([], cs)

/-- The whole part of a decimal number. -/
def whole? : List Char → Read (List Char)
  | [] => none
  | c :: cs => if c = '0' then some (['0'], cs) else digits? isAsciiDigit (c :: cs)

/-- The fraction of a decimal number, if there is one. -/
def fraction (cs : List Char) : List Char × List Char :=
  match cs with
  | '.' :: rest =>
    match digits? isAsciiDigit rest with
    | some (ds, rest) => ('.' :: ds, rest)
    | none => ([], cs)
  | _ => ([], cs)

/-- The exponent of a decimal number, if there is one. -/
def exponent (cs : List Char) : List Char × List Char :=
  match cs with
  | e :: rest =>
    if e = 'e' ∨ e = 'E' then
      let (s, rest) := sign rest
      match digits? isAsciiDigit rest with
      | some (ds, rest) => (e :: s ++ ds, rest)
      | none => ([], cs)
    else ([], cs)
  | [] => ([], cs)

/-- A decimal number as it is written, without its underscores. -/
inductive Decimal where
  | whole (negative : Bool) (digits : List Char)
  | real (lexeme : String)
  deriving DecidableEq, Repr

/-- The value of a decimal number; an integer may have only so many digits. -/
def Decimal.value : Decimal → Except Refusal Value
  | whole negative digits =>
    let n : Int := valueIn 10 digits
    if digits.length ≤ mostDigits then .ok (.integer (if negative then -n else n)) else .error (.longNumber digits.length)
  | real lexeme => .ok (.real lexeme)

/-- A decimal number. -/
def decimal? (cs : List Char) : Option (Decimal × List Char) := do
  let (s, cs) := sign cs
  let (w, cs) ← whole? cs
  let (f, cs) := fraction cs
  let (e, cs) := exponent cs
  if f.isEmpty && e.isEmpty then return (.whole (s == ['-']) w, cs)
  else return (.real (String.ofList (s ++ w ++ f ++ e)), cs)

/-- The head of a text, when it is the given one. -/
def word? (w : String) (cs : List Char) : Read Unit :=
  if w.toList.isPrefixOf cs then some ((), cs.drop w.length) else none

/-- Infinities and what is no number. -/
def special? (cs : List Char) : Read Value :=
  let (s, rest) := sign cs
  ((word? "inf" rest).map fun p => (Value.real (String.ofList s ++ "inf"), p.2)).or
    ((word? "nan" rest).map fun p => (Value.real (String.ofList s ++ "nan"), p.2))

/-- A truth value. -/
def truth? (cs : List Char) : Read Value :=
  ((word? "true" cs).map fun p => (Value.truth true, p.2)).or ((word? "false" cs).map fun p => (Value.truth false, p.2))

/-- A number of exactly `count` decimal digits. -/
def fixedNumber? (count : Nat) (cs : List Char) : Read Nat :=
  let ds := cs.take count
  if ds.length = count ∧ ds.all isAsciiDigit then some (valueIn 10 ds, cs.drop count) else none

/-- A given character. -/
def char? (c : Char) : List Char → Read Unit
  | [] => none
  | d :: cs => if c = d then some ((), cs) else none

/-- The days of a month. -/
def daysIn (year month : Nat) : Nat :=
  if month = 2 then if year % 4 = 0 ∧ (year % 100 ≠ 0 ∨ year % 400 = 0) then 29 else 28
  else if month = 4 ∨ month = 6 ∨ month = 9 ∨ month = 11 then 30
  else 31

/-- A date of the calendar. -/
def date? (cs : List Char) : Option (Unit × List Char) := do
  let (year, cs) ← fixedNumber? 4 cs
  let (_, cs) ← char? '-' cs
  let (month, cs) ← fixedNumber? 2 cs
  let (_, cs) ← char? '-' cs
  let (day, cs) ← fixedNumber? 2 cs
  if 1 ≤ year ∧ 1 ≤ month ∧ month ≤ 12 ∧ 1 ≤ day ∧ day ≤ daysIn year month then return ((), cs) else none

/-- An hour and a minute. -/
def hourMinute? (cs : List Char) : Option (Unit × List Char) := do
  let (hour, cs) ← fixedNumber? 2 cs
  let (_, cs) ← char? ':' cs
  let (minute, cs) ← fixedNumber? 2 cs
  if hour ≤ 23 ∧ minute ≤ 59 then return ((), cs) else none

/-- The text after a fraction of a second, if there is one. -/
def dropFraction (cs : List Char) : List Char :=
  match cs with
  | '.' :: d :: rest => if isAsciiDigit d then rest.dropWhile isAsciiDigit else cs
  | _ => cs

/-- A time of day. -/
def time? (cs : List Char) : Option (Unit × List Char) := do
  let (_, cs) ← hourMinute? cs
  let (_, cs) ← char? ':' cs
  let (second, cs) ← fixedNumber? 2 cs
  if second ≤ 59 then return ((), dropFraction cs) else none

/-- The text after an offset from Greenwich, if there is one. -/
def dropOffset (cs : List Char) : List Char :=
  match cs with
  | [] => []
  | c :: rest =>
    if c = 'Z' ∨ c = 'z' then rest
    else if c = '+' ∨ c = '-' then
      match hourMinute? rest with
      | some (_, rest) => rest
      | none => cs
    else cs

/-- The text after a time of day with or without an offset, if there is one after a date. -/
def dropTime (cs : List Char) : List Char :=
  match cs with
  | [] => []
  | c :: rest =>
    if c = 'T' ∨ c = 't' ∨ c = ' ' then
      match time? rest with
      | some (_, rest) => dropOffset rest
      | none => cs
    else cs

/-- A moment. -/
def moment? (cs : List Char) : Read Value :=
  let lexeme (rest : List Char) : Value := .moment (String.ofList (cs.take (cs.length - rest.length)))
  ((date? cs).map fun p => let rest := dropTime p.2; (lexeme rest, rest)).or
    ((time? cs).map fun p => (lexeme p.2, p.2))

/-- A value that is no text, no array and no table. -/
def scalar (cs : List Char) : Parsed Value :=
  match (truth? cs).or <| (moment? cs).or (based? cs) with
  | some p => .ok p
  | none =>
    match decimal? cs with
    | some (d, rest) => d.value.map fun v => (v, rest)
    | none => orMalformed (special? cs)

end CalcImage.Toml
