import Corun.Json.Library
import Corun.Json.Reader

namespace Corun.Json

namespace Decode

def text : Doc → Except Fault String
  | .string s => .ok s
  | d => d.mismatch "a string"

def truth : Doc → Except Fault Bool
  | .bool b => .ok b
  | d => d.mismatch "a boolean"

def natural (name : String) : Doc → Except Fault Nat
  | .number (.integer n) =>
    if 0 ≤ n then .ok n.toNat
    else .error (.invalidValue (.number (.integer n)) name)
  | d => d.mismatch name

def unit : Doc → Except Fault Unit
  | .null => .ok ()
  | d => d.mismatch "unit"

def optional {α : Type} (decode : Doc → Except Fault α) : Doc → Except Fault (Option α)
  | .null => .ok none
  | d => (decode d).map some

/-- What the end of a list or an object means to one who asks for more. Where the last value could not
be read, decoding has failed there. -/
def ending : Ending → Except Fault Unit
  | .closed => .ok ()
  | .fault f => .error f
  | .cut => .error .expectedValue

def listOf {α : Type} (decode : Doc → Except Fault α) : Doc → Except Fault (List α)
  | .array items e => do
    let xs ← items.mapM decode
    ending e
    return xs
  | d => d.mismatch "a sequence"

def variant {α : Type} (names : List (String × α)) (name : String) : Except Fault α :=
  match names.lookup name with
  | some a => .ok a
  | none => .error (.unknownVariant name (names.map Prod.fst))

def variantEnding : List (String × Doc) → Ending → Except Fault Unit
  | [], .closed => .ok ()
  | [], .fault (.ended .object) => .error (.ended .object)
  | _, _ => .error .expectedValue

/-- A choice is a name, or an object with the name as its only key and null under it. -/
def choice {α : Type} (names : List (String × α)) : Doc → Except Fault α
  | .string s => variant names s
  | .object [] .closed => .error .expectedValue
  | .object [] (.fault f) => .error f
  | .object [] .cut => .error .expectedValue
  | .object ((key, d) :: more) e => do
    let a ← variant names key
    unit d
    variantEnding more e
    return a
  | .broken .quote f => .error f
  | .broken .other f => .error f
  | _ => .error .expectedValue

end Decode

namespace Record

open Decode

variable {φ : Type} {β : φ → Type} (r : Record φ β)

def title : String := "struct " ++ r.name

def fieldNames : List String := r.fields.map r.fieldName

def field? (key : String) : Option φ := r.fields.find? fun f => r.fieldName f == key

def content (set : ∀ f, Option (β f)) (f : φ) : Option (β f) := (set f).or (r.default f)

def complete (set : ∀ f, Option (β f)) : Except Fault (∀ f, β f) :=
  match h : r.fields.find? fun f => (r.content set f).isNone with
  | some f => .error (.missingField (r.fieldName f))
  | none =>
    .ok fun f => (r.content set f).get <| by
      simpa [Option.isSome_iff_ne_none] using List.find?_eq_none.mp h f (r.all f)

def listEnding : List Doc → Ending → Except Fault Unit
  | [], .closed => .ok ()
  | [], .fault (.ended .list) => .error (.ended .list)
  | [], .fault .trailingComma => .error .trailingComma
  | _, _ => .error .trailingCharacters

variable [DecidableEq φ] (field : ∀ f, Doc → Except Fault (β f))

def put (f : φ) (x : β f) (set : ∀ f, Option (β f)) : ∀ f, Option (β f) :=
  fun g => if h : f = g then some (h ▸ x) else set g

/-- A key is judged before its value is looked at. -/
def members : List (String × Doc) → (∀ f, Option (β f)) → Except Fault (∀ f, Option (β f))
  | [], set => .ok set
  | (key, d) :: more, set =>
    match r.field? key with
    | none => .error (.unknownField key r.fieldNames)
    | some f =>
      if (set f).isSome then .error (.duplicateField key)
      else do
        let x ← field f d
        members more (put f x set)

/-- The fields of a record written as a list; `index` counts those already taken. -/
def elements (index : Nat) :
    List φ → List Doc → Ending → (∀ f, Option (β f)) → Except Fault (∀ f, β f)
  | [], items, e, set => do
    listEnding items e
    r.complete set
  | f :: fs, d :: items, e, set => do
    let x ← field f d
    elements (index + 1) fs items e (put f x set)
  | f :: fs, [], e, set => do
    ending e
    if (r.default f).isNone then
      .error (.invalidLength index
        (r.title ++ " with " ++ toString r.fields.length ++ " elements"))
    else elements (index + 1) fs [] e set

/-- A record is written as an object, or as the list of its fields in their order with the last ones
left out if they have defaults. The first thing that does not fit is the failure. -/
def decode : Doc → Except Fault (∀ f, β f)
  | .array items e => r.elements field 0 r.fields items e fun _ => none
  | .object ms e => do
    let set ← r.members field ms fun _ => none
    ending e
    r.complete set
  | d => d.mismatch r.title

end Record

def Schema.decode {α : Type} : Schema α → Doc → Except Fault α
  | .text => Decode.text
  | .truth => Decode.truth
  | .natural name => Decode.natural name
  | .optional s => Decode.optional s.decode
  | .list s => Decode.listOf s.decode
  | .choice names => Decode.choice names
  | @record _ _ _ _ r of make => fun d => (r.decode (fun f => (of f).decode) d).map make

/-- Reads a text as far as it can be read, and decodes until something does not fit. -/
def streaming : Library where
  read text :=
    let r := Reader.document text
    { document := r.value
      close := match skipSpace (r.rest.getD []) with
        | [] => .ok ()
        | _ => .error .trailingCharacters }
  decode s := s.decode

end Corun.Json
