import Talos.JavaScript.Number

/-!
# JSON values as JavaScript reads them

An object is the list of its own properties in insertion order. A property
read gives `none` for `undefined`, so a value that may be undefined is an
`Option Json`; `coalesce` is the operator `??`, which passes over `undefined`
and `null` alike.

`stringify` is `JSON.stringify`, `toNumber` is `Number(value)` on a value that
came out of JSON, and `storable` is the one restriction PostgreSQL puts on such
a value when it is cast to `jsonb`: no text in it may hold the character zero.
-/

namespace JavaScript

inductive Json where
  | null
  | bool (value : Bool)
  | num (value : Number)
  | str (value : String)
  | arr (elements : List Json)
  | obj (properties : List (String × Json))

abbrev Record := List (String × Json)

namespace Record

variable (record : Record) (key : String)

/-- `record[key]`. -/
def get? : Option Json :=
  (record.find? fun property => property.1 = key).map Prod.snd

/-- `Object.prototype.hasOwnProperty.call(record, key)`. -/
def has : Bool :=
  record.any fun property => property.1 = key

/-- `delete record[key]`. -/
def delete : Record :=
  record.filter fun property => property.1 ≠ key

/-- `record[key] = value`, in place when the property exists. -/
def set (value : Json) : Record :=
  if has record key then
    record.map fun property => if property.1 = key then (key, value) else property
  else record ++ [(key, value)]

end Record

/-- `first ?? second`. -/
def coalesce : Option Json → Option Json → Option Json
  | none, second => second
  | some .null, second => second
  | first, _ => first

/-- A value that is an object and neither an array nor `null`. -/
def asRecord : Option Json → Option Record
  | some (.obj properties) => some properties
  | _ => none

def asArray : Option Json → List Json
  | some (.arr elements) => elements
  | _ => []

/-- The trimmed text of a value that is a string with more than white space in
it. -/
def readString : Option Json → Option String
  | some (.str text) => if trim text = "" then none else some (trim text)
  | _ => none

/-- The value counts as true in a condition. -/
def truthy : Option Json → Bool
  | none | some .null => false
  | some (.bool value) => value
  | some (.num value) => value.truthy
  | some (.str text) => text ≠ ""
  | some (.arr _) | some (.obj _) => true

namespace Json

/-! ## Conversion to text and number -/

mutual

/-- `String(value)`; the elements of an array are joined by commas. -/
def toText : Json → String
  | .null => "null"
  | .bool true => "true"
  | .bool false => "false"
  | .num value => value.toText
  | .str value => value
  | .arr elements => joinText elements
  | .obj _ => "[object Object]"

/-- `elements.join()`, where a missing element contributes nothing. -/
def joinText : List Json → String
  | [] => ""
  | [element] => elementText element
  | element :: rest => elementText element ++ "," ++ joinText rest

def elementText : Json → String
  | .null => ""
  | .bool true => "true"
  | .bool false => "false"
  | .num value => value.toText
  | .str value => value
  | .arr elements => joinText elements
  | .obj _ => "[object Object]"

end

/-- `Number(value)`. -/
def toNumber : Json → Number
  | .null => .finite 0
  | .bool true => .finite 1
  | .bool false => .finite 0
  | .num value => value
  | .str value => .ofText value
  | .arr elements => .ofText (joinText elements)
  | .obj _ => .nan

/-! ## Serialization -/

def hexDigit (n : ℕ) : Char :=
  if n < 10 then Char.ofNat ('0'.toNat + n) else Char.ofNat ('a'.toNat + (n - 10))

def escape (c : Char) : List Char :=
  if c = '"' then ['\\', '"']
  else if c = '\\' then ['\\', '\\']
  else if c.toNat = 8 then ['\\', 'b']
  else if c.toNat = 9 then ['\\', 't']
  else if c.toNat = 10 then ['\\', 'n']
  else if c.toNat = 12 then ['\\', 'f']
  else if c.toNat = 13 then ['\\', 'r']
  else if c.toNat < 32 then
    ['\\', 'u', '0', '0', hexDigit (c.toNat / 16), hexDigit (c.toNat % 16)]
  else [c]

def quote (text : String) : String :=
  String.ofList ('"' :: text.toList.flatMap escape ++ ['"'])

mutual

/-- `JSON.stringify(value)`. A number that is not finite is written as
`null`. -/
def stringify : Json → String
  | .null => "null"
  | .bool true => "true"
  | .bool false => "false"
  | .num value => if value.isFinite then value.toText else "null"
  | .str value => quote value
  | .arr elements => "[" ++ stringifyElements elements ++ "]"
  | .obj properties => "\x7b" ++ stringifyProperties properties ++ "\x7d"

def stringifyElements : List Json → String
  | [] => ""
  | [element] => stringify element
  | element :: rest => stringify element ++ "," ++ stringifyElements rest

def stringifyProperties : List (String × Json) → String
  | [] => ""
  | [(key, value)] => quote key ++ ":" ++ stringify value
  | (key, value) :: rest =>
    quote key ++ ":" ++ stringify value ++ "," ++ stringifyProperties rest

end

/-! ## Storage as `jsonb` -/

def textStorable (text : String) : Bool := text.toList.all fun c => c.toNat ≠ 0

mutual

/-- The values that PostgreSQL accepts as `jsonb`. -/
def storable : Json → Bool
  | .null => true
  | .bool _ => true
  | .num _ => true
  | .str value => textStorable value
  | .arr elements => elementsStorable elements
  | .obj properties => propertiesStorable properties

def elementsStorable : List Json → Bool
  | [] => true
  | element :: rest => storable element && elementsStorable rest

def propertiesStorable : List (String × Json) → Bool
  | [] => true
  | (key, value) :: rest => textStorable key && storable value && propertiesStorable rest

end

variable {value : Json}

theorem elementsStorable_mem {values : List Json} (h : elementsStorable values = true)
    (hmem : value ∈ values) : value.storable = true := by
  induction values with
  | nil => cases hmem
  | cons first values ih =>
    simp only [elementsStorable, Bool.and_eq_true] at h
    rcases List.mem_cons.mp hmem with rfl | hmem'
    · exact h.1
    · exact ih h.2 hmem'

variable {record : Record}

theorem propertiesStorable_get? {key : String} (h : propertiesStorable record = true)
    (hget : record.get? key = some value) : value.storable = true := by
  induction record with
  | nil => cases hget
  | cons property record ih =>
    obtain ⟨name, first⟩ := property
    simp only [propertiesStorable, Bool.and_eq_true] at h
    by_cases hname : name = key
    · have hvalue : first = value := by simpa [Record.get?, hname] using hget
      rw [← hvalue]
      exact h.1.2
    · refine ih h.2 ?_
      simpa [Record.get?, hname] using hget

theorem propertiesStorable_asRecord (h : value.storable = true)
    (hrecord : asRecord (some value) = some record) : propertiesStorable record = true := by
  cases value <;> simp only [asRecord, Option.some.injEq, reduceCtorEq] at hrecord
  rw [← hrecord]
  simpa [storable] using h

theorem storable_asArray {value : Option Json}
    (h : ∀ json, value = some json → json.storable = true) {element : Json}
    (hmem : element ∈ asArray value) : element.storable = true := by
  unfold asArray at hmem
  split at hmem
  · exact elementsStorable_mem (by simpa [storable] using h _ rfl) hmem
  · cases hmem

theorem storable_coalesce {first second : String} (h : propertiesStorable record = true)
    (hvalue : coalesce (record.get? first) (record.get? second) = some value) :
    value.storable = true := by
  unfold coalesce at hvalue
  split at hvalue
  · exact propertiesStorable_get? h hvalue
  · exact propertiesStorable_get? h hvalue
  · exact propertiesStorable_get? h hvalue

theorem textStorable_trim {text : String} (h : textStorable text = true) :
    textStorable (trim text) = true := by
  simp only [textStorable, List.all_eq_true, trim, String.toList_ofList] at h ⊢
  intro c hc
  apply h
  have hreversed := (List.dropWhile_suffix isSpace).subset (List.mem_reverse.mp hc)
  exact (List.dropWhile_suffix isSpace).subset (List.mem_reverse.mp hreversed)

theorem textStorable_readString {value : Option Json} {text : String}
    (h : readString value = some text) (hvalue : ∀ json, value = some json → json.storable = true) :
    textStorable text = true := by
  unfold readString at h
  split at h
  · split_ifs at h
    cases h
    exact textStorable_trim (by simpa [storable] using hvalue _ rfl)
  · cases h

end Json

end JavaScript
