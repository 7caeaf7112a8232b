/-
This file defines JSON values and the conventions by which records and variants are written in
them. A record is an object with one entry per field, or the array of its fields in order. A
variant without data is its name; a variant with data is an object whose only entry has the
variant's name. Readers ignore entries they do not know, take a missing optional field for null,
and refuse anything else that does not fit.
-/

namespace BinaryFacts

/-- A JSON value. A number is known by the way it is written: one with a fraction or an exponent
is not whole, even where its value is. -/
inductive Json where
  | null
  | bool (value : Bool)
  /-- A whole number of any size. -/
  | int (value : Int)
  /-- A number with a fraction or an exponent, or a negative zero, as it is written. -/
  | decimal (literal : String)
  | text (value : String)
  | array (items : List Json)
  | object (entries : List (String × Json))

namespace Json

instance : Inhabited Json := ⟨.null⟩

/-- A natural number. -/
def nat (value : Nat) : Json := .int value

mutual

/-- How deep arrays and objects are nested in a value. -/
def depth : Json → Nat
  | .null | .bool _ | .int _ | .decimal _ | .text _ => 0
  | .array items => 1 + depthAll items
  | .object entries => 1 + depthEntries entries

/-- The greatest depth in a list of values. -/
def depthAll : List Json → Nat
  | [] => 0
  | item :: rest => max item.depth (depthAll rest)

/-- The greatest depth in the entries of an object. -/
def depthEntries : List (String × Json) → Nat
  | [] => 0
  | (_, value) :: rest => max value.depth (depthEntries rest)

end

/-! ### Records -/

/-- The name of a record's field, and whether the field may be missing. -/
inductive Field where
  | required (name : String)
  | optional (name : String)

/-- The value of a field in the entries of an object; a missing optional field is null. -/
def Field.find? (entries : List (String × Json)) : Field → Option Json
  | .required name => entries.lookup name
  | .optional name => some ((entries.lookup name).getD .null)

/-- The fields of an object, in the order of their names. -/
def objectFields? (fields : List Field) : Json → Option (List Json)
  | .object entries => fields.mapM (Field.find? entries)
  | .null | .bool _ | .int _ | .decimal _ | .text _ | .array _ => none

/-- The fields of a record, written as an object or as an array of exactly these fields. -/
def recordFields? (fields : List Field) : Json → Option (List Json)
  | .array items => if items.length = fields.length then some items else none
  | json => json.objectFields? fields

/-! ### Variants -/

/-- A variant with data. -/
def variant (name : String) (data : Json) : Json := .object [(name, data)]

/-- The name of a variant and its data, if it has any. -/
def variant? : Json → Option (String × Option Json)
  | .text name => some (name, none)
  | .object [(name, data)] => some (name, some data)
  | _ => none

/-- The value of a variant without data, which may be spelled out as null. -/
def unit? {Value : Type} (value : Value) : Option Json → Option Value
  | none | some .null => some value
  | some _ => none

/-- A choice among named values. -/
def choice? {Value : Type} (choices : List (String × Value)) (json : Json) : Option Value := do
  let (name, data) ← json.variant?
  unit? (← choices.lookup name) data

end Json

/-! ### Types with a JSON form -/

/-- A type whose values are written and read as JSON. -/
class JsonForm (Value : Type) where
  encode : Value → Json
  decode? : Json → Option Value

export JsonForm (encode decode?)

/-- Read a value of a type and write it again. -/
def Json.reencode? (Value : Type) [JsonForm Value] (json : Json) : Option Json :=
  (decode? json : Option Value).map encode

namespace JsonForm

instance : JsonForm Bool where
  encode := .bool
  decode?
    | .bool value => some value
    | _ => none

instance : JsonForm String where
  encode := .text
  decode?
    | .text value => some value
    | _ => none

/-- A whole number below `bound`. -/
def natBelow? (bound : Nat) : Json → Option Nat
  | .int (.ofNat value) => if value < bound then some value else none
  | _ => none

instance : JsonForm UInt8 where
  encode value := .nat value.toNat
  decode? json := (natBelow? UInt8.size json).map UInt8.ofNat

instance : JsonForm UInt64 where
  encode value := .nat value.toNat
  decode? json := (natBelow? UInt64.size json).map UInt64.ofNat

instance : JsonForm Int64 where
  encode value := .int value.toInt
  decode?
    | .int value =>
      if Int64.minValue.toInt ≤ value ∧ value ≤ Int64.maxValue.toInt then
        some (Int64.ofInt value)
      else none
    | _ => none

instance {Value : Type} [JsonForm Value] : JsonForm (List Value) where
  encode values := .array (values.map encode)
  decode?
    | .array items => items.mapM decode?
    | _ => none

instance {Value : Type} [JsonForm Value] : JsonForm (Option Value) where
  encode
    | some value => encode value
    | none => .null
  decode?
    | .null => some none
    | json => (decode? json).map some

end JsonForm

end BinaryFacts
