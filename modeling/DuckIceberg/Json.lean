import DuckIceberg.Lib.Strings
import DuckIceberg.Types

/-!
# JSON values

The values `yyjson_read` delivers and the accessors the code calls on them.  A `yyjson_val *` is
an `Option Json`: the accessors accept a null pointer and return one when there is nothing to
return.  `IcebergUtils` wraps them in getters that throw.
-/

namespace DuckIceberg

/-- `yyjson_val`.  The code never looks at the value of a real number. -/
inductive Json
  | null
  | bool (b : Bool)
  | int (n : ℤ)
  | real
  | str (s : String)
  | arr (elems : List Json)
  | obj (members : List (String × Json))

namespace Json

/-- The first member with this key. -/
def member (key : String) : List (String × Json) → Option Json
  | [] => none
  | (k, v) :: ms => if k = key then some v else member key ms

/-- `yyjson_obj_get`, `yyjson_obj_getn` -/
def objGet (v : Option Json) (key : String) : Option Json :=
  match v with
  | some (.obj ms) => member key ms
  | _ => none

/-- The values `yyjson_arr_foreach` goes through. -/
def elems (v : Option Json) : List Json :=
  match v with
  | some (.arr l) => l
  | _ => []

/-- `yyjson_get_uint` -/
def getUInt : Json → ℕ
  | .int n => (n % 2 ^ 64).toNat
  | _ => 0

/-- A `std::string` made from a C string. -/
def cString (s : String) : String := String.ofList (s.toList.takeWhile (· ≠ '\x00'))

end Json

namespace IcebergUtils

open Json

/-- The exception of the getters. -/
def invalidField (field : String) : Error :=
  ⟨.io, "Invalid field found while parsing field: " ++ field⟩

/-- `IcebergUtils::TryGetNumFromObject` -/
def tryGetNumFromObject (obj : Option Json) (field : String) : Except Error ℕ :=
  match objGet obj field with
  | some (.int n) => .ok (Json.int n).getUInt
  | some .real => .ok Json.real.getUInt
  | _ => .error (invalidField field)

/-- `IcebergUtils::TryGetBoolFromObject` -/
def tryGetBoolFromObject (obj : Option Json) (field : String) : Except Error Bool :=
  match objGet obj field with
  | some (.bool b) => .ok b
  | _ => .error (invalidField field)

/-- `IcebergUtils::TryGetStrFromObject` -/
def tryGetStrFromObject (obj : Option Json) (field : String) : Except Error String :=
  match objGet obj field with
  | some (.str s) => .ok (cString s)
  | _ => .error (invalidField field)

end IcebergUtils

end DuckIceberg
