/-
This file gives the JSON forms of descriptors and variables. A descriptor is written from the
bottom up. It is read level by level; no descriptor inside a value lies deeper than the value is
nested.
-/

import BinaryFacts.Json
import BinaryFacts.Variable

namespace BinaryFacts

/-! ### Names -/

instance : JsonForm AggregateVariant where
  encode
    | .structType => .text "Struct"
    | .classType => .text "Class"
    | .unionType => .text "Union"
  decode? := Json.choice? [("Struct", .structType), ("Class", .classType), ("Union", .unionType)]

instance : JsonForm ReferenceClass where
  encode
    | .structType => .text "Struct"
    | .unionType => .text "Union"
    | .typedef => .text "Typedef"
    | .enumType => .text "Enum"
    | .unknown => .text "Unknown"
    | .other name => .variant "Other" (.text name)
  decode? json :=
    match json.variant? with
    | some ("Struct", data) => Json.unit? .structType data
    | some ("Union", data) => Json.unit? .unionType data
    | some ("Typedef", data) => Json.unit? .typedef data
    | some ("Enum", data) => Json.unit? .enumType data
    | some ("Unknown", data) => Json.unit? .unknown data
    | some ("Other", some data) => (decode? data).map .other
    | _ => none

/-! ### Members and kinds -/

section Parts

variable {Part : Type}

/-- Write a member, given how its type is written. -/
def Member.encode (part : Part → Json) (member : Member Part) : Json :=
  .object [("name", .text member.name), ("offset", JsonForm.encode member.offset),
    ("width", JsonForm.encode member.width), ("ty", part member.type)]

/-- Read a member, given how its type is read. -/
def Member.decode? (part? : Json → Option Part) (json : Json) : Option (Member Part) := do
  let [name, offset, width, type] ← json.recordFields?
    [.required "name", .required "offset", .required "width", .required "ty"] | none
  return ⟨← JsonForm.decode? name, ← JsonForm.decode? offset, ← JsonForm.decode? width,
    ← part? type⟩

/-- Read a list, given how its items are read. -/
def Json.list? (item? : Json → Option Part) : Json → Option (List Part)
  | .array items => items.mapM item?
  | _ => none

namespace Kind

/-- Write a kind, given how its parts are written. -/
def encode (part : Part → Json) : Kind Part → Json
  | .void => .text "Void"
  | .bool => .text "Bool"
  | .integer signed => .variant "Integer" (.object [("signed", .bool signed)])
  | .float => .text "Float"
  | .wideChar => .text "WideChar"
  | .varArgs => .text "VarArgs"
  | .value => .text "Value"
  | .pointer target => .variant "Pointer" (.object [("target", part target)])
  | .array element count =>
    .variant "Array" (.object [("element", part element), ("count", JsonForm.encode count)])
  | .function result parameters variadic =>
    .variant "Function" (.object [("return_type", part result),
      ("parameters", .array (parameters.map part)), ("variadic", .bool variadic)])
  | .aggregate variant members =>
    .variant "Structure" (.object [("variant", JsonForm.encode variant),
      ("members", .array (members.map (Member.encode part)))])
  | .enumeration => .text "Enumeration"
  | .reference category typeId name =>
    .variant "NamedTypeReference" (.object [("class", JsonForm.encode category),
      ("type_id", JsonForm.encode typeId), ("name", .text name)])
  | .other name => .variant "Other" (.text name)

/-- Read a kind, given how its parts are read. -/
def decode? (part? : Json → Option Part) (json : Json) : Option (Kind Part) :=
  match json.variant? with
  | some ("Void", data) => Json.unit? .void data
  | some ("Bool", data) => Json.unit? .bool data
  | some ("Integer", some data) => do
    let [signed] ← data.objectFields? [.required "signed"] | none
    return .integer (← JsonForm.decode? signed)
  | some ("Float", data) => Json.unit? .float data
  | some ("WideChar", data) => Json.unit? .wideChar data
  | some ("VarArgs", data) => Json.unit? .varArgs data
  | some ("Value", data) => Json.unit? .value data
  | some ("Pointer", some data) => do
    let [target] ← data.objectFields? [.required "target"] | none
    return .pointer (← part? target)
  | some ("Array", some data) => do
    let [element, count] ← data.objectFields? [.required "element", .required "count"] | none
    return .array (← part? element) (← JsonForm.decode? count)
  | some ("Function", some data) => do
    let [result, parameters, variadic] ← data.objectFields?
      [.required "return_type", .required "parameters", .required "variadic"] | none
    return .function (← part? result) (← Json.list? part? parameters) (← JsonForm.decode? variadic)
  | some ("Structure", some data) => do
    let [variant, members] ← data.objectFields? [.required "variant", .required "members"] | none
    return .aggregate (← JsonForm.decode? variant) (← Json.list? (Member.decode? part?) members)
  | some ("Enumeration", data) => Json.unit? .enumeration data
  | some ("NamedTypeReference", some data) => do
    let [category, typeId, name] ← data.objectFields?
      [.required "class", .optional "type_id", .required "name"] | none
    return .reference (← JsonForm.decode? category) (← JsonForm.decode? typeId)
      (← JsonForm.decode? name)
  | some ("Other", some data) => (JsonForm.decode? data).map .other
  | _ => none

end Kind

end Parts

/-! ### Descriptors -/

namespace Descriptor

/-- A descriptor in JSON. -/
def toJson : Descriptor → Json :=
  fold fun kind width registeredName key =>
    .object [("kind", kind.encode id), ("width", encode width),
      ("registered_name", encode registeredName), ("key", .text key)]

/-- Read a descriptor nested at most `depth` levels deep. -/
def ofJsonWithin : Nat → Json → Option Descriptor
  | 0, _ => none
  | depth + 1, json => do
    let [kind, width, registeredName, key] ← json.recordFields?
      [.required "kind", .required "width", .optional "registered_name", .required "key"] | none
    return ⟨← Kind.decode? (ofJsonWithin depth) kind, ← decode? width, ← decode? registeredName,
      ← decode? key⟩

end Descriptor

instance : JsonForm Descriptor where
  encode := Descriptor.toJson
  decode? json := Descriptor.ofJsonWithin json.depth json

instance : JsonForm (Member Descriptor) where
  encode := Member.encode encode
  decode? := Member.decode? decode?

/-! ### Variables -/

instance : JsonForm VariableSource where
  encode
    | .register => .text "Register"
    | .stack => .text "Stack"
    | .flag => .text "Flag"
  decode? := Json.choice? [("Register", .register), ("Stack", .stack), ("Flag", .flag)]

instance : JsonForm Variable where
  encode subject :=
    .object [("name", .text subject.name), ("source", encode subject.source),
      ("storage", encode subject.storage), ("ty", encode subject.type)]
  decode? json := do
    let [name, source, storage, type] ← json.recordFields?
      [.required "name", .required "source", .required "storage", .required "ty"] | none
    return ⟨← decode? name, ← decode? source, ← decode? storage, ← decode? type⟩

end BinaryFacts
