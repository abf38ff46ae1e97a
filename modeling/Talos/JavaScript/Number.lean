import Mathlib.Data.Int.Log
import Mathlib.Data.Rat.Floor

/-!
# The numbers and the text of JavaScript

A JavaScript number is a binary64 value. A finite one is a rational, so the
exact result of an operation is computed in `ℚ` and rounded once, to nearest
with ties to even, by `roundToDouble`. The two zeros are one value here: no
operation below tells them apart.

The text side holds the whitespace that `trim` removes and the two conversions
between numbers and text: `ofText` reads a string as `Number(text)` does, and
`toText` writes a number with the fewest digits that read back as the number.
-/

namespace JavaScript

/-- The white space and line terminators removed by `trim` and matched by
`\s`. -/
def isSpace (c : Char) : Bool :=
  c.toNat ∈ [0x9, 0xA, 0xB, 0xC, 0xD, 0x20, 0xA0, 0x1680, 0x2028, 0x2029, 0x202F, 0x205F,
    0x3000, 0xFEFF] || (0x2000 ≤ c.toNat && c.toNat ≤ 0x200A)

/-- `text.trim()` on the characters of the text. -/
def trimChars (cs : List Char) : List Char :=
  ((cs.dropWhile isSpace).reverse.dropWhile isSpace).reverse

/-- `text.trim()`. -/
def trim (text : String) : String :=
  String.ofList (trimChars text.toList)

/-- `text.slice(0, n)` on the characters of the text. A character outside the basic plane
counts twice, and one that would be cut in half is left out. -/
def sliceChars : ℕ → List Char → List Char
  | _, [] => []
  | n, c :: cs =>
    let units := if c.toNat < 0x10000 then 1 else 2
    if units ≤ n then c :: sliceChars (n - units) cs else []

/-- `text.replace(/\s+/g, ' ')` on the characters of the text: the last
character of each run of white space stands for the run. -/
def collapseSpaces : List Char → List Char
  | [] => []
  | c :: cs =>
    if isSpace c then
      if cs.head?.any isSpace then collapseSpaces cs else ' ' :: collapseSpaces cs
    else c :: collapseSpaces cs

inductive Number where
  | nan
  | infinity (negative : Bool)
  | finite (value : ℚ)
deriving DecidableEq

namespace Number

def roundHalfEven (x : ℚ) : ℤ :=
  let below := ⌊x⌋
  let rest := x - below
  if rest < 1 / 2 then below
  else if 1 / 2 < rest then below + 1
  else if below % 2 = 0 then below else below + 1

/-- The binary64 value nearest to an exact result. The spacing of the values
around `x` is fixed below the least normal exponent, and a result that rounds
to `2 ^ 1024` or beyond is infinite. -/
def roundToDouble (x : ℚ) : Number :=
  if x = 0 then .finite 0
  else
    let exponent := max (Int.log 2 |x|) (-1022)
    let unit : ℚ := (2 : ℚ) ^ (exponent - 52)
    let magnitude := (roundHalfEven (|x| / unit) : ℚ) * unit
    if (2 : ℚ) ^ (1024 : ℕ) ≤ magnitude then .infinity (x < 0)
    else .finite (if x < 0 then -magnitude else magnitude)

def ofInt (n : ℤ) : Number := .finite n

/-- `a + b`. -/
def add : Number → Number → Number
  | .nan, _ => .nan
  | _, .nan => .nan
  | .infinity s, .infinity t => if s = t then .infinity s else .nan
  | .infinity s, .finite _ => .infinity s
  | .finite _, .infinity t => .infinity t
  | .finite x, .finite y => roundToDouble (x + y)

def neg : Number → Number
  | .nan => .nan
  | .infinity s => .infinity !s
  | .finite x => .finite (-x)

/-- `a - b`. -/
def sub (a b : Number) : Number := add a (neg b)

/-- `a * b`. -/
def mul : Number → Number → Number
  | .nan, _ => .nan
  | _, .nan => .nan
  | .infinity s, .infinity t => .infinity (s != t)
  | .infinity s, .finite y => if y = 0 then .nan else .infinity (s != decide (y < 0))
  | .finite x, .infinity t => if x = 0 then .nan else .infinity (t != decide (x < 0))
  | .finite x, .finite y => roundToDouble (x * y)

/-- `a < b`; false whenever one side is not a number. -/
def lt : Number → Number → Bool
  | .nan, _ => false
  | _, .nan => false
  | .infinity s, .infinity t => s && !t
  | .infinity s, .finite _ => s
  | .finite _, .infinity t => !t
  | .finite x, .finite y => x < y

/-- `a === b`; false whenever one side is not a number. -/
def same : Number → Number → Bool
  | .nan, _ => false
  | a, b => a = b

/-- `a <= b`. -/
def le (a b : Number) : Bool := lt a b || same a b

def isFinite : Number → Bool
  | .finite _ => true
  | _ => false

/-- Whether a condition on the number holds: neither zero nor `NaN`. -/
def truthy : Number → Bool
  | .nan => false
  | .infinity _ => true
  | .finite x => x ≠ 0

/-- The integer value of a number for which `Number.isInteger` holds. -/
def toInt? : Number → Option ℤ
  | .finite x => if x.den = 1 then some x.num else none
  | _ => none

/-! ## Reading numeric text -/

def digitValue? (radix : ℕ) (c : Char) : Option ℕ :=
  let value : Option ℕ :=
    if '0' ≤ c ∧ c ≤ '9' then some (c.toNat - '0'.toNat)
    else if 'a' ≤ c ∧ c ≤ 'f' then some (c.toNat - 'a'.toNat + 10)
    else if 'A' ≤ c ∧ c ≤ 'F' then some (c.toNat - 'A'.toNat + 10)
    else none
  value.filter (· < radix)

/-- A string of digits, all of them digits of the radix. -/
def digitsValue? (radix : ℕ) (cs : List Char) : Option ℕ :=
  cs.foldl (fun acc c => acc.bind fun n => (digitValue? radix c).map (n * radix + ·)) (some 0)

def isDigit (c : Char) : Bool := '0' ≤ c && c ≤ '9'

/-- The exponent part `e[+-]digits`, or nothing. -/
def exponent? : List Char → Option ℤ
  | [] => some 0
  | e :: rest =>
    if e = 'e' ∨ e = 'E' then
      match rest with
      | '+' :: ds => if ds = [] then none else (digitsValue? 10 ds).map Int.ofNat
      | '-' :: ds => if ds = [] then none else (digitsValue? 10 ds).map (-Int.ofNat ·)
      | ds => if ds = [] then none else (digitsValue? 10 ds).map Int.ofNat
    else none

def decimal? (cs : List Char) : Option ℚ :=
  let whole := cs.takeWhile isDigit
  let afterWhole := cs.dropWhile isDigit
  let (fraction, afterFraction) :=
    match afterWhole with
    | '.' :: rest => (rest.takeWhile isDigit, rest.dropWhile isDigit)
    | rest => ([], rest)
  if whole = [] ∧ fraction = [] then none
  else do
    let mantissa ← digitsValue? 10 (whole ++ fraction)
    let shift ← exponent? afterFraction
    pure ((mantissa : ℚ) * (10 : ℚ) ^ (shift - fraction.length))

/-- A decimal literal or `Infinity`, without its sign. -/
def unsigned? (negative : Bool) (cs : List Char) : Number :=
  if cs = "Infinity".toList then .infinity negative
  else
    match decimal? cs with
    | some value => roundToDouble (if negative then -value else value)
    | none => .nan

/-- A literal with a radix, whose digits may not be missing. -/
def ofRadix (radix : ℕ) (ds : List Char) : Number :=
  if ds = [] then .nan
  else
    match digitsValue? radix ds with
    | some value => roundToDouble value
    | none => .nan

/-- `Number(text)`. -/
def ofText (text : String) : Number :=
  match trimChars text.toList with
  | [] => .finite 0
  | '0' :: 'x' :: ds => ofRadix 16 ds
  | '0' :: 'X' :: ds => ofRadix 16 ds
  | '0' :: 'o' :: ds => ofRadix 8 ds
  | '0' :: 'O' :: ds => ofRadix 8 ds
  | '0' :: 'b' :: ds => ofRadix 2 ds
  | '0' :: 'B' :: ds => ofRadix 2 ds
  | '+' :: cs => unsigned? false cs
  | '-' :: cs => unsigned? true cs
  | cs => unsigned? false cs

/-! ## Writing numbers -/

/-- The digits `s` and the decimal point position `n` for `k` digits, when some
`k`-digit decimal reads back as `x`; the closer of two candidates is taken. -/
def shortest? (x : ℚ) (n : ℤ) (k : ℕ) : Option ℕ :=
  let scale : ℚ := (10 : ℚ) ^ (n - k)
  let below := ⌊x / scale⌋.toNat
  let readsBack (s : ℕ) : Bool := roundToDouble (s * scale) = .finite x
  match readsBack below, readsBack (below + 1) with
  | true, true => if x / scale - below ≤ 1 / 2 then some below else some (below + 1)
  | true, false => some below
  | false, true => some (below + 1)
  | false, false => none

/-- The shortest digits of a positive value: some number of digits up to
seventeen always reads back. -/
def digits (x : ℚ) : List Char × ℤ :=
  let n := Int.log 10 x + 1
  let s := ((List.range 17).findSome? fun k => shortest? x n (k + 1)).getD 0
  let written := (Nat.repr s).toList
  -- a candidate that rounded up to the next power of ten has one digit more
  let k := ((List.range 17).find? fun k => (shortest? x n (k + 1)).isSome).getD 0 + 1
  ((written.reverse.dropWhile (· = '0')).reverse, n + (written.length - k))

/-- `String(number)` for a positive finite value. -/
def positiveText (x : ℚ) : List Char :=
  let (ds, n) := digits x
  let k : ℤ := ds.length
  if k ≤ n ∧ n ≤ 21 then ds ++ List.replicate (n - k).toNat '0'
  else if 0 < n ∧ n ≤ 21 then ds.take n.toNat ++ '.' :: ds.drop n.toNat
  else if -6 < n ∧ n ≤ 0 then '0' :: '.' :: List.replicate (-n).toNat '0' ++ ds
  else
    let sign := if 0 ≤ n - 1 then '+' else '-'
    let power := (Nat.repr (n - 1).natAbs).toList
    match ds with
    | [d] => d :: 'e' :: sign :: power
    | d :: rest => d :: '.' :: rest ++ 'e' :: sign :: power
    | [] => []

/-- `String(number)`. -/
def toText : Number → String
  | .nan => "NaN"
  | .infinity false => "Infinity"
  | .infinity true => "-Infinity"
  | .finite x =>
    if x = 0 then "0"
    else if x < 0 then String.ofList ('-' :: positiveText (-x))
    else String.ofList (positiveText x)

end Number

end JavaScript
