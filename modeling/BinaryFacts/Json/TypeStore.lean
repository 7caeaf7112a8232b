/-
This file gives the JSON forms of stored types, type stores and locations. A type id is a number
of at most 32 bits. A type store is written as its nodes alone, so a store that is read back
shares no leaves.
-/

import BinaryFacts.Binding.Location
import BinaryFacts.Json
import BinaryFacts.TypeStore.Basic

namespace BinaryFacts

instance : JsonForm TypeId where
  encode id := .nat id.index
  decode? json := do TypeId.ofIndex? (← JsonForm.natBelow? TypeId.count json)

instance : JsonForm (TypeNode TypeId) where
  encode
    | .void => .text "void"
    | .bool => .text "bool"
    | .integer size signed =>
      .variant "integer" (.object [("size", encode size), ("signed", .bool signed)])
    | .float size => .variant "float" (.object [("size", encode size)])
    | .pointer element => .variant "pointer" (.object [("element", encode element)])
    | .array element count =>
      .variant "array" (.object [("element", encode element), ("count", encode count)])
    | .struct elements => .variant "structure" (.object [("elements", encode elements)])
    | .union members => .variant "union" (.object [("members", encode members)])
    | .enumeration underlying => .variant "enum" (.object [("underlying", encode underlying)])
    | .typedef underlying => .variant "typedef" (.object [("underlying", encode underlying)])
    | .function result parameters variadic =>
      .variant "function" (.object [("return_type", encode result),
        ("parameters", encode parameters), ("variadic", .bool variadic)])
    | .padding bytes => .variant "padding" (.object [("bytes", encode bytes)])
  decode? json :=
    match json.variant? with
    | some ("void", data) => Json.unit? .void data
    | some ("bool", data) => Json.unit? .bool data
    | some ("integer", some data) => do
      let [size, signed] ← data.objectFields? [.required "size", .required "signed"] | none
      return .integer (← decode? size) (← decode? signed)
    | some ("float", some data) => do
      let [size] ← data.objectFields? [.required "size"] | none
      return .float (← decode? size)
    | some ("pointer", some data) => do
      let [element] ← data.objectFields? [.required "element"] | none
      return .pointer (← decode? element)
    | some ("array", some data) => do
      let [element, count] ← data.objectFields? [.required "element", .required "count"] | none
      return .array (← decode? element) (← decode? count)
    | some ("structure", some data) => do
      let [elements] ← data.objectFields? [.required "elements"] | none
      return .struct (← decode? elements)
    | some ("union", some data) => do
      let [members] ← data.objectFields? [.required "members"] | none
      return .union (← decode? members)
    | some ("enum", some data) => do
      let [underlying] ← data.objectFields? [.required "underlying"] | none
      return .enumeration (← decode? underlying)
    | some ("typedef", some data) => do
      let [underlying] ← data.objectFields? [.required "underlying"] | none
      return .typedef (← decode? underlying)
    | some ("function", some data) => do
      let [result, parameters, variadic] ← data.objectFields?
        [.required "return_type", .required "parameters", .required "variadic"] | none
      return .function (← decode? result) (← decode? parameters) (← decode? variadic)
    | some ("padding", some data) => do
      let [bytes] ← data.objectFields? [.required "bytes"] | none
      return .padding (← decode? bytes)
    | _ => none

instance : JsonForm TypeStore where
  encode store := .object [("nodes", encode store.nodes.toList)]
  decode? json := do
    let [nodes] ← json.recordFields? [.required "nodes"] | none
    let nodes : List (TypeNode TypeId) ← decode? nodes
    return { nodes := nodes.toArray }

instance : JsonForm Storage where
  encode
    | .register name => .variant "register" (.object [("name", .text name)])
    | .memory base offset =>
      .variant "memory" (.object [("base", .text base), ("offset", encode offset)])
  decode? json :=
    match json.variant? with
    | some ("register", some data) => do
      let [name] ← data.objectFields? [.required "name"] | none
      return .register (← decode? name)
    | some ("memory", some data) => do
      let [base, offset] ← data.objectFields? [.required "base", .required "offset"] | none
      return .memory (← decode? base) (← decode? offset)
    | _ => none

instance : JsonForm Location where
  encode location := .object [("storage", encode location.storage), ("ty", encode location.type)]
  decode? json := do
    let [storage, type] ← json.recordFields? [.required "storage", .required "ty"] | none
    return ⟨← decode? storage, ← decode? type⟩

end BinaryFacts
