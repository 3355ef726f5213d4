import ImportClosure.Text.Basic

/-!
# `ImportClosure.Json.Value`: JSON values

A number is kept exactly, as a mantissa and a power of ten. `other` stands for the few
values that a JSON text can name and this type cannot hold: numbers that are not finite and
texts with half of a surrogate pair.
-/

set_option autoImplicit false

namespace ImportClosure.Json

/-- A JSON value. The members of an object keep the order of the text. -/
inductive Value where
  | null
  | bool (b : Bool)
  /-- The number `mantissa * 10 ^ exponent`. -/
  | number (mantissa exponent : Int)
  | text (t : Text)
  | other
  | list (items : List Value)
  | object (members : List (Text × Value))

namespace Value

/-- The text of a value that is one. -/
def asText? : Value → Option Text
  | text t => some t
  | _ => none

/-- The items of a value that is a list. -/
def asList? : Value → Option (List Value)
  | list items => some items
  | _ => none

/-- The members of a value that is an object. -/
def asObject? : Value → Option (List (Text × Value))
  | object members => some members
  | _ => none

/-- The member of an object with the given name; of several, the last one. -/
def member? (name : Text) (value : Value) : Option Value :=
  (value.asObject?.getD []).foldl (fun found m => if m.1 = name then some m.2 else found) none

/-- The whole number that a value is. -/
def asInt? : Value → Option Int
  | number m e =>
    if 0 ≤ e then some (m * Int.pow 10 e.toNat)
    else if m % Int.pow 10 (-e).toNat = 0 then some (m / Int.pow 10 (-e).toNat)
    else none
  | _ => none

end Value

end ImportClosure.Json
