import Talos.JavaScript.Date
import Talos.JavaScript.Json

/-!
# What the runtime decides

Functions of the JavaScript runtime whose tables are not modelled. A statement
about code that calls them is made for every `Runtime`.
-/

namespace JavaScript

structure Runtime where
  /-- `text.toLowerCase()`. -/
  toLowerCase : String → String
  /-- `Date.parse(text)`, where `none` is `NaN`. -/
  dateParse : String → Option Date.Time
  /-- `text.localeCompare(other)`. -/
  localeCompare : String → String → ℤ
  /-- Types and values of `formatToParts` for the two-digit hour and minute of
  a time in a time zone, or `none` when the zone is not known and the formatter
  throws. -/
  formatToParts : String → Date.Time → Option (List (String × String))

/-- The runtime of the fixed inputs: texts are their own lower case, no text is
a date, no time zone is known. -/
def Runtime.bare : Runtime where
  toLowerCase := id
  dateParse _ := none
  localeCompare _ _ := 0
  formatToParts _ _ := none

/-- `new Date(value)`, or the date itself. -/
def Runtime.toDate (js : Runtime) : Date.Input → Option Date.Time
  | .text text => js.dateParse text
  | .date time => time

end JavaScript
