/-
# HiddenLoads.Json -- JSON values

Strings are `Text`, since a JSON string can name a lone surrogate, and numbers keep integers
and decimals apart.  `Json.get?` is the value of a key; reading keeps the last of equal keys.
-/
import HiddenLoads.Number

namespace HiddenLoads

set_option autoImplicit false

inductive Json where
  | null
  | bool (b : Bool)
  | number (n : Number)
  | string (s : Text)
  | array (items : List Json)
  | object (fields : List (Text × Json))
deriving Repr

namespace Json

def get? (key : Text) : Json → Option Json
  | .object fields => fields.lookup key
  | _ => none

def keys : Json → List Text
  | .object fields => fields.map Prod.fst
  | _ => []

def isString (t : Text) : Json → Bool
  | .string s => s == t
  | _ => false

def ofNat (n : Nat) : Json := .number (.integer n)

end Json

end HiddenLoads
