import SchemaReview.Text.Basic

/-!
# Text.Number — texts that denote numbers

A natural number is a non-empty run of ASCII digits below a bound.  A floating-point number has
an optional sign and is either an infinity or not-a-number in any case, or decimal digits with an
optional point and an optional exponent.
-/

namespace SchemaReview.Text

/-- Value of a run of ASCII digits. -/
def digitsValue (t : Text) : Nat := t.foldl (fun n c => 10 * n + (c.toNat - '0'.toNat)) 0

/-- The natural number written in `t`, when it is below `bound`. -/
def natBelow? (bound : Nat) (t : Text) : Option Nat :=
  if !t.isEmpty && t.all isAsciiDigit then
    let n := digitsValue t
    if n < bound then some n else none
  else none

/-- The text without one leading sign. -/
def dropSign : Text → Text
  | '+' :: cs => cs
  | '-' :: cs => cs
  | cs => cs

/-- Nothing, or an exponent mark with an optional sign and at least one digit. -/
def isExponent : Text → Bool
  | [] => true
  | c :: cs =>
    (c == 'e' || c == 'E') && !(dropSign cs).isEmpty && (dropSign cs).all isAsciiDigit

/-- Decimal digits with an optional point and exponent; at least one digit before the exponent. -/
def isDecimal (t : Text) : Bool :=
  let whole := t.takeWhile isAsciiDigit
  match t.dropWhile isAsciiDigit with
  | '.' :: cs =>
    !(whole ++ cs.takeWhile isAsciiDigit).isEmpty && isExponent (cs.dropWhile isAsciiDigit)
  | cs => !whole.isEmpty && isExponent cs

/-- The words for infinities and not-a-number. -/
def isNonFinite (t : Text) : Bool :=
  equalsIgnoringCase t "inf".toList || equalsIgnoringCase t "infinity".toList ||
    equalsIgnoringCase t "nan".toList

/-- The text denotes a floating-point number. -/
def isFloat (t : Text) : Bool :=
  isDecimal (dropSign t) || isNonFinite (dropSign t)

end SchemaReview.Text
