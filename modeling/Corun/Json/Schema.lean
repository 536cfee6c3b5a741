import Corun.Json.Doc

namespace Corun.Json

/-- The fields of a record in their order. `default` is what a field holds that is left out. -/
structure Record (φ : Type) (β : φ → Type) where
  name : String
  fields : List φ
  fieldName : φ → String
  default : ∀ f, Option (β f)
  all : ∀ f, f ∈ fields
  distinct : (fields.map fieldName).Nodup

/-- How the values of a type are declared that documents stand for. -/
inductive Schema : Type → Type 1
  | text : Schema String
  | truth : Schema Bool
  | natural (name : String) : Schema Nat
  | optional {α : Type} (of : Schema α) : Schema (Option α)
  | list {α : Type} (of : Schema α) : Schema (List α)
  | choice {α : Type} (names : List (String × α)) : Schema α
  /-- Other members than those of the record are refused. -/
  | record {φ : Type} {β : φ → Type} {α : Type} [DecidableEq φ] (r : Record φ β)
      (of : ∀ f, Schema (β f)) (make : (∀ f, β f) → α) : Schema α

end Corun.Json
