import DuckIceberg.Json

/-!
# Helpers of the catalog

What the catalog takes from DuckDB and from other libraries, and the functions of
`catalog_utils.cpp` that read the answers of the server.
-/

namespace DuckIceberg

open Strings Json IcebergUtils

/-- What the catalog uses of DuckDB and of other libraries. -/
structure CatalogContext where
  /-- `StringUtil::URLEncode` -/
  urlEncode : String → String
  /-- `yyjson_read` -/
  yyjsonRead : String → Option Json
  /-- `Cast::Operation<string_t, uint8_t>`, which throws where this is `none` -/
  castUInt8 : String → Option (Fin 256)

/-- A cast of texts that are digits only. -/
def readUInt8 (s : String) : Option (Fin 256) :=
  if h : s.toList ≠ [] ∧ s.toList.all Char.isDigit = true ∧ digitsValue s.toList < 256 then
    some ⟨digitsValue s.toList, h.2.2⟩
  else none

theorem readUInt8_numeral {n : ℕ} (hn : n < 256) : readUInt8 (toString n) = some ⟨n, hn⟩ := by
  have hlist : (toString n).toList = Nat.toDigits 10 n := by
    rw [Nat.toString_eq_ofList_toDigits, String.toList_ofList]
  have hvalue := digitsValue_toDigits n
  have h : (toString n).toList ≠ [] ∧ (toString n).toList.all Char.isDigit = true ∧
      digitsValue (toString n).toList < 256 := by
    rw [hlist, hvalue, List.all_eq_true]
    exact ⟨Nat.toDigits_ne_nil, fun c hc => isDigit_toDigits hc, hn⟩
  rw [readUInt8, dif_pos h]
  refine congrArg some (Fin.ext ?_)
  change digitsValue (toString n).toList = n
  rw [hlist, hvalue]

theorem readUInt8_of_mem {s : String} {c : Char} (hc : c.isDigit = false) (h : c ∈ s.toList) :
    readUInt8 s = none := by
  refine dif_neg fun hall => ?_
  rw [List.all_eq_true.1 hall.2.1 c h] at hc
  cases hc

namespace IcebergUtils

/-- `IcebergUtils::TryGetStrFromObject` that gives an empty string for a missing field -/
def tryGetStrOrEmpty (obj : Option Json) (field : String) : String :=
  match objGet obj field with
  | some (.str s) => cString s
  | _ => ""

end IcebergUtils

/-- `ICUtils::api_result_to_doc`, with the root of the document -/
def apiResultToDoc (ctx : CatalogContext) (apiResult : String) : Except Error (Option Json) :=
  let root := ctx.yyjsonRead apiResult
  match objGet root "error" with
  | some error =>
    match tryGetStrFromObject (some error) "message" with
    | .ok errMsg => .error ⟨.invalidInput, errMsg⟩
    | .error e => .error e
  | none => .ok root

/-- `yyjson_obj_size` -/
def objSize : Option Json → ℕ
  | some (.obj members) => members.length
  | _ => 0

end DuckIceberg
