import Talos.Rust.Core

/-!
# JSON values of serde

A number is kept as `serde_json` keeps it: an unsigned integer, a negative
integer or a float. An object is the list of its entries; a key occurs in it
once.
-/

namespace Rust

inductive Number where
  | posInt (value : ℕ)
  /-- The number `-(magnitude + 1)`. -/
  | negInt (magnitude : ℕ)
  | float (bits : UInt64)
deriving DecidableEq

inductive Value where
  | null
  | bool (value : Bool)
  | number (value : Number)
  | string (value : String)
  | array (items : List Value)
  | object (entries : List (String × Value))

namespace Value

def asObject : Value → Option (List (String × Value))
  | .object entries => some entries
  | _ => none

/-- `value.get(key)`. -/
def get (value : Value) (key : String) : Option Value :=
  value.asObject.bind fun entries => (entries.find? fun entry => entry.1 = key).map Prod.snd

def asStr : Value → Option String
  | .string value => some value
  | _ => none

def asU64 : Value → Option ℕ
  | .number (.posInt value) => some value
  | _ => none

end Value

/-- `number.as_i64()`. -/
def Number.asI64 : Number → Option Int
  | .posInt value => if value < 2 ^ 63 then some value else none
  | .negInt magnitude => some (Int.negSucc magnitude)
  | .float _ => none

end Rust
