import Mathlib.Data.Nat.Digits.Lemmas
import Talos.Rust.Core

/-!
# Lines, words and numerals

The string functions that take a program's output apart, on lists of characters,
and the numerals that such output holds: a number written in some radix is read
back by `u32FromStrRadix`.
-/

namespace Rust

/-! ## Lines and words -/

/-- A line without the carriage return of its line ending. -/
def stripCarriageReturn (line : List Char) : List Char :=
  if line.getLast? = some '\r' then line.dropLast else line

variable (text : List Char)

/-- `text.lines()`. The part after the last line feed is a line of its own unless
it is empty. -/
def lines : List (List Char) :=
  let parts := text.splitOnP (· = '\n')
  parts.dropLast.map stripCarriageReturn ++ (parts.getLast?.filter (· ≠ [])).toList

/-- `text.split_whitespace()`. -/
def splitWhitespace : List (List Char) :=
  (text.splitOnP isWhitespace).filter (· ≠ [])

/-- `text.contains(part)`. -/
def contains (part : List Char) : Bool := part <:+: text

/-- `text.replace(pattern, replacement)` for a pattern that is not empty; `skip`
counts the characters of a match that are still to be left out. -/
def replaceFrom {α : Type*} [BEq α] (pattern replacement : List α) : ℕ → List α → List α
  | _, [] => []
  | skip + 1, _ :: rest => replaceFrom pattern replacement skip rest
  | 0, c :: rest =>
    if pattern.isPrefixOf (c :: rest) then
      replacement ++ replaceFrom pattern replacement (pattern.length - 1) rest
    else c :: replaceFrom pattern replacement 0 rest

def replace (text pattern replacement : String) : String :=
  String.ofList (replaceFrom pattern.toList replacement.toList 0 text.toList)

/-- `text.len()`, in bytes. -/
def byteLen : ℕ := (text.map Char.utf8Size).sum

/-- `text.get(n..)`: nothing when the text is shorter or `n` is inside a character. -/
def dropBytes : ℕ → List Char → Option (List Char)
  | 0, text => some text
  | _ + 1, [] => none
  | n + 1, c :: rest => if c.utf8Size ≤ n + 1 then dropBytes (n + 1 - c.utf8Size) rest else none

/-- `text.split_inclusive('\n')`. -/
def splitInclusive : List Char → List (List Char)
  | [] => []
  | c :: rest =>
    if c = '\n' then [c] :: splitInclusive rest
    else
      match splitInclusive rest with
      | [] => [[c]]
      | line :: lines => (c :: line) :: lines

/-- `text.trim()`, on characters. -/
def trimChars : List Char :=
  ((text.dropWhile isWhitespace).reverse.dropWhile isWhitespace).reverse

/-- `text.trim_start_matches("0x")`. -/
def trimStartHexMark : List Char → List Char
  | '0' :: 'x' :: rest => trimStartHexMark rest
  | text => text

theorem lines_cons {line : List Char} (hline : '\n' ∉ line) (rest : List Char) :
    lines (line ++ '\r' :: '\n' :: rest) = line :: lines rest := by
  have hsplit : (line ++ '\r' :: '\n' :: rest).splitOnP (· = '\n')
      = (line ++ ['\r']) :: rest.splitOnP (· = '\n') := by
    rw [show line ++ '\r' :: '\n' :: rest = (line ++ ['\r']) ++ '\n' :: rest by simp,
      List.splitOnP_append_cons _ _ (by decide), List.splitOnP_eq_singleton, List.singleton_append]
    intro c hc
    rcases List.mem_append.mp hc with hc | hc
    · exact decide_eq_false fun h => hline (h ▸ hc)
    · rw [List.mem_singleton.mp hc]
      decide
  have hstrip : stripCarriageReturn (line ++ ['\r']) = line := by simp [stripCarriageReturn]
  have hrest : rest.splitOnP (· = '\n') ≠ [] := List.splitOnP_ne_nil _ _
  simp only [lines, hsplit, List.dropLast_cons_of_ne_nil hrest, List.map_cons, hstrip,
    List.cons_append, List.getLast?_cons, List.getLast?_eq_some_getLast hrest, Option.getD_some]

theorem lines_nil : lines [] = [] := by decide

theorem getLast?_splitWhitespace {word : List Char} (hword : ∀ c ∈ word, isWhitespace c = false)
    (hne : word ≠ []) (text : List Char) :
    (splitWhitespace (text ++ ' ' :: word)).getLast? = some word := by
  rw [splitWhitespace, List.splitOnP_append_cons _ _ (by decide), List.splitOnP_eq_singleton hword,
    List.filter_append, List.filter_cons_of_pos (by simpa using hne), List.filter_nil,
    List.getLast?_concat]

/-! ## Numerals -/

/-- `c.to_digit(radix)` for a radix up to sixteen. -/
def toDigit (radix : ℕ) (c : Char) : Option ℕ :=
  let value : Option ℕ :=
    if '0' ≤ c ∧ c ≤ '9' then some (c.toNat - '0'.toNat)
    else if 'a' ≤ c ∧ c ≤ 'f' then some (c.toNat - 'a'.toNat + 10)
    else if 'A' ≤ c ∧ c ≤ 'F' then some (c.toNat - 'A'.toNat + 10)
    else none
  value.filter (· < radix)

def digitsValue (radix : ℕ) (digits : List Char) : Option ℕ :=
  digits.foldl (fun value c => value.bind fun n => (toDigit radix c).map (n * radix + ·)) (some 0)

/-- `u32::from_str_radix(text, radix)`. -/
def u32FromStrRadix (radix : ℕ) : Option UInt32 :=
  let digits := match text with
    | '+' :: rest => rest
    | _ => text
  if digits = [] then none
  else ((digitsValue radix digits).filter (· < 2 ^ 32)).map UInt32.ofNat

/-- `text.parse::<i32>()`. -/
def i32FromStr : Option ℤ :=
  let (negative, digits) : Bool × List Char := match text with
    | '-' :: rest => (true, rest)
    | '+' :: rest => (false, rest)
    | _ => (false, text)
  if digits = [] then none
  else
    ((digitsValue 10 digits).map fun n => if negative then -(n : ℤ) else n).filter fun n =>
      -2 ^ 31 ≤ n ∧ n < 2 ^ 31

/-- The digits of a number in base sixteen, most significant first. -/
def hexDigits (n : ℕ) : List Char :=
  if n = 0 then ['0'] else ((Nat.digits 16 n).map Nat.digitChar).reverse

theorem toDigit_digitChar {d : ℕ} (h : d < 16) : toDigit 16 (Nat.digitChar d) = some d := by
  have hall : ∀ d : Fin 16, toDigit 16 (Nat.digitChar d) = some (d : ℕ) := by decide
  exact hall ⟨d, h⟩

theorem digitsValue_reverse {digits : List ℕ} (h : ∀ d ∈ digits, d < 16) :
    digitsValue 16 (digits.map Nat.digitChar).reverse = some (Nat.ofDigits 16 digits) := by
  induction digits with
  | nil => rfl
  | cons d digits ih =>
    have hrest := ih fun d hd => h d (List.mem_cons_of_mem _ hd)
    rw [digitsValue] at hrest ⊢
    rw [List.map_cons, List.reverse_cons, List.foldl_append, hrest, List.foldl_cons,
      List.foldl_nil, Option.bind_some, toDigit_digitChar (h d List.mem_cons_self),
      Option.map_some, Nat.ofDigits_cons]
    congr 1
    ring

theorem digitsValue_hexDigits (n : ℕ) : digitsValue 16 (hexDigits n) = some n := by
  unfold hexDigits
  split
  next hzero => rw [hzero]; decide
  next =>
    rw [digitsValue_reverse fun d hd => Nat.digits_lt_base (by decide) hd, Nat.ofDigits_digits]

theorem isHexDigit_of_mem {n : ℕ} {c : Char} (h : c ∈ hexDigits n) :
    ∃ d : Fin 16, c = Nat.digitChar d := by
  unfold hexDigits at h
  split at h
  · exact ⟨0, List.mem_singleton.mp h⟩
  · obtain ⟨d, hd, rfl⟩ := List.mem_map.mp (List.mem_reverse.mp h)
    exact ⟨⟨d, Nat.digits_lt_base (by decide) hd⟩, rfl⟩

theorem hexDigits_ne_nil (n : ℕ) : hexDigits n ≠ [] := by
  unfold hexDigits
  split
  · exact List.cons_ne_nil _ _
  next h => simpa [Nat.digits_eq_nil_iff_eq_zero] using h

/-- A property of the sixteen digits holds of every digit of a numeral. -/
theorem forall_mem_hexDigits {p : Char → Prop} (h : ∀ d : Fin 16, p (Nat.digitChar d)) (n : ℕ) :
    ∀ c ∈ hexDigits n, p c := by
  intro c hc
  obtain ⟨d, rfl⟩ := isHexDigit_of_mem hc
  exact h d

theorem u32FromStrRadix_hexDigits (value : UInt32) :
    u32FromStrRadix (hexDigits value.toNat) 16 = some value := by
  have hsign : ∀ c ∈ hexDigits value.toNat, c ≠ '+' := forall_mem_hexDigits (by decide) _
  have hdigits : (match hexDigits value.toNat with
      | '+' :: rest => rest
      | _ => hexDigits value.toNat) = hexDigits value.toNat := by
    split
    next rest heq => exact absurd rfl (hsign '+' (heq ▸ List.mem_cons_self))
    next => rfl
  unfold u32FromStrRadix
  simp only [hdigits, hexDigits_ne_nil, if_false, digitsValue_hexDigits, Option.filter_some,
    value.toNat_lt, decide_true, if_true, Option.map_some, UInt32.ofNat_toNat]

theorem trimStartHexMark_hexDigits (n : ℕ) :
    trimStartHexMark ('0' :: 'x' :: hexDigits n) = hexDigits n := by
  have hmark : ∀ c ∈ hexDigits n, c ≠ 'x' := forall_mem_hexDigits (by decide) _
  rw [trimStartHexMark]
  unfold trimStartHexMark
  split
  next rest heq => exact absurd rfl (hmark 'x' (by rw [heq]; simp))
  next => rfl

end Rust
