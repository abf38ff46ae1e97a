import Talos.JavaScript.Number

/-!
# Regular expressions

A backtracking matcher for the regular expressions without flags that need no
group. A cursor is a place in the text; `ends p cursor` lists the places where
a match of `p` from the cursor can end, in the order in which the matcher tries
them, so that its head is the match that `exec` finds.
-/

namespace JavaScript

inductive Pattern where
  | empty
  /-- One character of a class. -/
  | set (holds : Char → Bool)
  | seq (first second : Pattern)
  /-- `first|second`; the first alternative is tried first. -/
  | alt (first second : Pattern)
  /-- `p*`, greedy. -/
  | star (p : Pattern)
  /-- `^`. -/
  | start
  /-- `\b`. -/
  | boundary

namespace Pattern

/-- A place in a text: the characters before it, nearest first, and those
after it. -/
structure Cursor where
  before : List Char
  after : List Char

/-- The class `\w`. -/
def isWord (c : Char) : Bool :=
  ('a' ≤ c && c ≤ 'z') || ('A' ≤ c && c ≤ 'Z') || ('0' ≤ c && c ≤ '9') || c = '_'

namespace Cursor

def step (holds : Char → Bool) (cursor : Cursor) : List Cursor :=
  match cursor.after with
  | [] => []
  | c :: rest => if holds c then [⟨c :: cursor.before, rest⟩] else []

def atBoundary (cursor : Cursor) : Bool :=
  cursor.before.head?.any isWord != cursor.after.head?.any isWord

def places (before : List Char) : List Char → List Cursor
  | [] => [⟨before, []⟩]
  | c :: rest => ⟨before, c :: rest⟩ :: places (c :: before) rest

end Cursor

/-- The ends of a repetition. Each turn has to consume a character, so the
length of the rest of the text bounds the number of turns. -/
def repeated (ends : Cursor → List Cursor) : ℕ → Cursor → List Cursor
  | 0, cursor => [cursor]
  | turns + 1, cursor =>
    ((ends cursor).filter fun next => next.after.length < cursor.after.length).flatMap
      (repeated ends turns) ++ [cursor]

def ends : Pattern → Cursor → List Cursor
  | .empty, cursor => [cursor]
  | .set holds, cursor => cursor.step holds
  | .seq first second, cursor => (ends first cursor).flatMap (ends second)
  | .alt first second, cursor => ends first cursor ++ ends second cursor
  | .star p, cursor => repeated (ends p) cursor.after.length cursor
  | .start, cursor => if cursor.before = [] then [cursor] else []
  | .boundary, cursor => if cursor.atBoundary then [cursor] else []

/-- `pattern.test(text)`. -/
def test (p : Pattern) (text : String) : Bool :=
  (Cursor.places [] text.toList).any fun cursor => (ends p cursor).head?.isSome

/-- The characters of the match that `pattern.exec(text)` finds. -/
def exec (p : Pattern) (text : String) : Option (List Char) :=
  (Cursor.places [] text.toList).findSome? fun cursor =>
    (ends p cursor).head?.map fun stop =>
      cursor.after.take (cursor.after.length - stop.after.length)

/-! ## Abbreviations -/

def char (c : Char) : Pattern := .set (· = c)

def literal (text : String) : Pattern :=
  text.toList.foldr (fun c rest => .seq (char c) rest) .empty

/-- A text whose letters are written in small case, matched under the flag
`i`. -/
def literalIgnoreCase (text : String) : Pattern :=
  text.toList.foldr (fun c rest => .seq (.set fun d => d = c || d = c.toUpper) rest) .empty

/-- `p?`. -/
def optional (p : Pattern) : Pattern := .alt p .empty

/-- `p+`. -/
def plus (p : Pattern) : Pattern := .seq p (.star p)

def times : ℕ → Pattern → Pattern
  | 0, _ => .empty
  | n + 1, p => .seq p (times n p)

def digit : Pattern := .set Number.isDigit

/-- The class `.`, which has every character but the line terminators. -/
def dot : Pattern := .set fun c => c.toNat ∉ [0xA, 0xD, 0x2028, 0x2029]

/-- `\btext\b`. -/
def word (text : String) : Pattern := .seq .boundary (.seq (literal text) .boundary)

def anyOf : List Pattern → Pattern
  | [] => .set fun _ => false
  | [p] => p
  | p :: rest => .alt p (anyOf rest)

end Pattern

example : (Pattern.word "bios").test "new bios, 1.2" = true := by decide

example :
    (Pattern.seq .boundary (.seq (.plus .digit) (.star (.seq (.char '.') (.plus .digit))))).exec
      "macos 15.3.1 beta" = some "15.3.1".toList := by
  decide

end JavaScript
