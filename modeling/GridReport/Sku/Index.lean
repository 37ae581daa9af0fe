import GridReport.Error
import GridReport.Json.Value

/-!
SKUs of a billing catalog, found by their ids.
-/

namespace GridReport.Sku

/-- SKU documents by id. No id occurs twice. -/
abbrev Index := List (String × Json)

/-- The SKU documents of a catalog; a catalog without a list of them has none. -/
def entries (catalog : Json) : List Json := (catalog.itemsField? "skus").getD []

/-- Adds SKU documents in order. Each needs an id that is not in the index yet. -/
def addAll (index : Index) : List Json → Except Error Index
  | [] => .ok index
  | sku :: rest =>
    match sku.textField? "skuId" with
    | none => .error (.pricing .skuWithoutId)
    | some id =>
      if (index.lookup id).isSome then .error (.pricing (.duplicateSku id))
      else addAll (index ++ [(id, sku)]) rest

def index (catalog : Json) : Except Error Index := addAll [] (entries catalog)

end GridReport.Sku
