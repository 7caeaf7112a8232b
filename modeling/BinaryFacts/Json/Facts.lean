/-
This file gives the JSON forms of the facts about function bodies and signatures. Memory is an
object whose names are the addresses in decimal; a set of addresses is the ascending list of
them.
-/

import BinaryFacts.Json.TypeStore
import BinaryFacts.Memory.CrossReference
import BinaryFacts.Program.Facts

namespace BinaryFacts

instance : JsonForm ReferenceUse where
  encode use := .text use.name
  decode? := Json.choice? (ReferenceUse.all.map fun use => (use.name, use))

/-! ### Memory -/

instance : JsonForm MappedByte where
  encode byte :=
    .object [("value", encode byte.value), ("writable", .bool byte.writable),
      ("executable", .bool byte.executable)]
  decode? json := do
    let [value, writable, executable] ← json.recordFields?
      [.required "value", .required "writable", .required "executable"] | none
    return ⟨← decode? value, ← decode? writable, ← decode? executable⟩

/-- An address in decimal. -/
def decimalAddress (address : UInt64) : String := toString address.toNat

/-- The address with a decimal form. -/
def addressOfDecimal? (text : String) : Option UInt64 :=
  let value := text.toList.foldl (fun value digit => 10 * value + (digit.toNat - '0'.toNat)) 0
  if value < UInt64.size ∧ toString value = text then some (UInt64.ofNat value) else none

instance : JsonForm ByteMap where
  encode map :=
    .object [("bytes", .object (map.entries.map fun entry =>
      (decimalAddress entry.1, encode entry.2)))]
  decode? json := do
    let [.object entries] ← json.recordFields? [.required "bytes"] | none
    entries.foldlM (fun map entry =>
      return map.insert (← addressOfDecimal? entry.1) (← decode? entry.2)) AddressMap.empty

instance : JsonForm AddressSet where
  encode addresses := encode addresses.addresses
  decode? json := (decode? json).map AddressSet.ofList

instance : JsonForm MemoryRun where
  encode run :=
    .object [("start", encode run.start), ("bytes", encode run.bytes),
      ("writable", .bool run.writable), ("executable", .bool run.executable)]
  decode? json := do
    let [start, bytes, writable, executable] ← json.recordFields?
      [.required "start", .required "bytes", .required "writable", .required "executable"] | none
    return ⟨← decode? start, ← decode? bytes, ← decode? writable, ← decode? executable⟩

/-! ### Timelines -/

instance : JsonForm RegisterContent where
  encode
    | .value address => .variant "Value" (encode address)
    | .type id => .variant "Type" (encode id)
  decode? json :=
    match json.variant? with
    | some ("Value", some data) => (decode? data).map .value
    | some ("Type", some data) => (decode? data).map .type
    | _ => none

instance : JsonForm TimelineEntry where
  encode entry :=
    .object [("address", encode entry.address), ("register", .text entry.register),
      ("binding", encode entry.content)]
  decode? json := do
    let [address, register, content] ← json.recordFields?
      [.required "address", .required "register", .required "binding"] | none
    return ⟨← decode? address, ← decode? register, ← decode? content⟩

/-! ### Functions -/

instance : JsonForm Signature where
  encode signature :=
    .object [("address", encode signature.address), ("name", .text signature.name),
      ("function_type", encode signature.type), ("parameters", encode signature.parameters),
      ("returns", encode signature.results)]
  decode? json := do
    let [address, name, type, parameters, results] ← json.recordFields?
      [.required "address", .required "name", .required "function_type",
       .required "parameters", .required "returns"] | none
    return ⟨← decode? address, ← decode? name, ← decode? type, ← decode? parameters,
      ← decode? results⟩

instance : JsonForm FunctionBody where
  encode body :=
    .object [("address", encode body.address), ("memory", encode body.memory),
      ("xrefs", encode body.references), ("typed_registers", encode body.timeline)]
  decode? json := do
    let [address, memory, references, timeline] ← json.recordFields?
      [.required "address", .required "memory", .required "xrefs",
       .required "typed_registers"] | none
    return ⟨← decode? address, ← decode? memory, ← decode? references, ← decode? timeline⟩

instance : JsonForm Referent where
  encode
    | .function address => .variant "Function" (encode address)
    | .data address => .variant "Data" (encode address)
  decode? json :=
    match json.variant? with
    | some ("Function", some data) => (decode? data).map .function
    | some ("Data", some data) => (decode? data).map .data
    | _ => none

end BinaryFacts
