import SchemaReview.Toml.Value
import SchemaReview.Text.Number

/-!
# Toml.Scalar — numbers, truth values and dates

A scalar without quotes is one token.  Digits may be separated by single low lines.
-/

namespace SchemaReview.Toml

/-- The digits of a run in which single low lines may stand between digits. -/
def digitRun? (isDigit : Char → Bool) : Text → Option Text
  | [] => none
  | [c] => if isDigit c then some [c] else none
  | c :: '_' :: cs => if isDigit c then (digitRun? isDigit cs).map (c :: ·) else none
  | c :: cs => if isDigit c then (digitRun? isDigit cs).map (c :: ·) else none

/-- Decimal digits without a superfluous leading zero. -/
def wholeDigits? (t : Text) : Option Text := do
  let ds ← digitRun? isAsciiDigit t
  if ds.length > 1 && ds.head? == some '0' then none else some ds

/-- Value of one digit up to base sixteen. -/
def digitValue (c : Char) : Nat :=
  if isAsciiDigit c then c.toNat - '0'.toNat else c.toLower.toNat - 'a'.toNat + 10

/-- A digit of the given base. -/
def isDigitOf (base : Nat) (c : Char) : Bool :=
  (isAsciiDigit c || isAsciiLetter c) && decide (digitValue c < base)

/-- The number that the digits write in the given base. -/
def ofDigits (base : Nat) (ds : Text) : Nat := ds.foldl (fun n c => base * n + digitValue c) 0

/-- A number that fits into 64 bits with sign. -/
def fitting? (n : Int) : Option Value :=
  if -0x8000000000000000 ≤ n ∧ n < 0x8000000000000000 then some (.integer n) else none

/-- An integer: decimal with an optional sign, or hexadecimal, octal or binary without one. -/
def integer? (t : Text) : Option Value :=
  match t with
  | '0' :: 'x' :: cs => (digitRun? (isDigitOf 16) cs).bind fun ds => fitting? (ofDigits 16 ds)
  | '0' :: 'o' :: cs => (digitRun? (isDigitOf 8) cs).bind fun ds => fitting? (ofDigits 8 ds)
  | '0' :: 'b' :: cs => (digitRun? (isDigitOf 2) cs).bind fun ds => fitting? (ofDigits 2 ds)
  | '-' :: cs => (wholeDigits? cs).bind fun ds => fitting? (-(ofDigits 10 ds : Int))
  | '+' :: cs => (wholeDigits? cs).bind fun ds => fitting? (ofDigits 10 ds)
  | cs => (wholeDigits? cs).bind fun ds => fitting? (ofDigits 10 ds)

/-- `mantissa * 10 ^ exponent` is too large for a double-precision number. -/
def overflowsDouble (mantissa : Nat) (exponent : Int) : Bool :=
  let size := (Nat.toDigits 10 mantissa).length + exponent
  if mantissa = 0 then false
  else if size < 300 then false
  else if size > 320 then true
  else
    let bound := Nat.pow 2 1024 - Nat.pow 2 970
    if 0 ≤ exponent then decide (bound ≤ mantissa * Nat.pow 10 exponent.toNat)
    else decide (bound * Nat.pow 10 (-exponent).toNat ≤ mantissa)

/-- The exponent of a floating-point number; zero when there is none. -/
def exponent? : Text → Option Int
  | [] => some 0
  | c :: cs =>
    if c = 'e' ∨ c = 'E' then
      match cs with
      | '-' :: ds => (digitRun? isAsciiDigit ds).map fun ds => -(ofDigits 10 ds : Int)
      | _ => (digitRun? isAsciiDigit (Text.dropSign cs)).map fun ds => (ofDigits 10 ds : Int)
    else none

/-- A character that begins an exponent or a fraction. -/
def endsWhole (c : Char) : Bool := c == '.' || c == 'e' || c == 'E'

/-- The fraction digits and the exponent that follow the whole part of a floating-point number. -/
def fraction? : Text → Option (Text × Int)
  | '.' :: cs => do
    let isMark := fun c => c == 'e' || c == 'E'
    let ds ← digitRun? isAsciiDigit (cs.takeWhile fun c => !isMark c)
    let e ← exponent? (cs.dropWhile fun c => !isMark c)
    some (ds, e)
  | [] => none
  | cs => (exponent? cs).map fun e => ([], e)

/-- A floating-point number; one that is too large is refused. -/
def float? (t : Text) : Option Value :=
  let body := Text.dropSign t
  if body = "inf".toList ∨ body = "nan".toList then some .float
  else do
    let ds ← wholeDigits? (body.takeWhile fun c => !endsWhole c)
    let (fraction, e) ← fraction? (body.dropWhile fun c => !endsWhole c)
    let overflows := overflowsDouble (ofDigits 10 (ds ++ fraction)) (e - fraction.length)
    if overflows && t.head? != some '-' then
      none
    else some .float

/-- The number written by exactly `n` decimal digits at the front, and the rest. -/
def fixedDigits? (n : Nat) (t : Text) : Option (Nat × Text) :=
  let ds := t.take n
  if ds.length = n ∧ ds.all isAsciiDigit then some (ofDigits 10 ds, t.drop n) else none

/-- The rest after an expected character. -/
def expect? (c : Char) : Text → Option Text
  | x :: xs => if x = c then some xs else none
  | [] => none

/-- Number of days of a month. -/
def daysIn (year month : Nat) : Nat :=
  if month = 2 then
    if (year % 4 = 0 ∧ year % 100 ≠ 0) ∨ year % 400 = 0 then 29 else 28
  else if month = 4 ∨ month = 6 ∨ month = 9 ∨ month = 11 then 30
  else 31

/-- The rest after a calendar date. -/
def afterDate? (t : Text) : Option Text := do
  let (year, t) ← fixedDigits? 4 t
  let t ← expect? '-' t
  let (month, t) ← fixedDigits? 2 t
  let t ← expect? '-' t
  let (day, t) ← fixedDigits? 2 t
  if 1 ≤ month ∧ month ≤ 12 ∧ 1 ≤ day ∧ day ≤ daysIn year month then some t else none

/-- The rest after a time of day with an optional fraction of a second. -/
def afterTime? (t : Text) : Option Text := do
  let (hour, t) ← fixedDigits? 2 t
  let t ← expect? ':' t
  let (minute, t) ← fixedDigits? 2 t
  let t ← expect? ':' t
  let (second, t) ← fixedDigits? 2 t
  if hour ≤ 23 ∧ minute ≤ 59 ∧ second ≤ 60 then
    match t with
    | '.' :: cs =>
      if (cs.takeWhile isAsciiDigit).isEmpty then none else some (cs.dropWhile isAsciiDigit)
    | cs => some cs
  else none

/-- The text is an offset from universal time, or empty. -/
def isOffset : Text → Bool
  | [] => true
  | ['Z'] => true
  | ['z'] => true
  | c :: cs =>
    (c == '+' || c == '-') && (do
      let (hour, t) ← fixedDigits? 2 cs
      let t ← expect? ':' t
      let (minute, t) ← fixedDigits? 2 t
      if hour ≤ 23 ∧ minute ≤ 59 ∧ t = [] then some () else none).isSome

/-- A date, a time of day, or both with an optional offset. -/
def date? (t : Text) : Option Value :=
  match afterDate? t with
  | some [] => some .date
  | some (c :: cs) =>
    if c = 'T' ∨ c = 't' ∨ c = ' ' then
      (afterTime? cs).bind fun rest => if isOffset rest then some .date else none
    else none
  | none => if afterTime? t = some [] then some .date else none

/-- The value of a token without quotes. -/
def scalar? (t : Text) : Option Value :=
  if t = "true".toList then some (.boolean true)
  else if t = "false".toList then some (.boolean false)
  else ((date? t).or (integer? t)).or (float? t)

end SchemaReview.Toml
