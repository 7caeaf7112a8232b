/-
This file gives the JSON forms of the regions of a binary and of calling conventions.
-/

import BinaryFacts.Binary.Function
import BinaryFacts.Json

namespace BinaryFacts

instance : JsonForm AddressRange where
  encode range := .object [("start", encode range.start), ("end", encode range.stop)]
  decode? json := do
    let [start, stop] ← json.recordFields? [.required "start", .required "end"] | none
    return ⟨← decode? start, ← decode? stop⟩

instance : JsonForm Segment where
  encode segment :=
    .object [("start", encode segment.start), ("end", encode segment.stop),
      ("readable", .bool segment.readable), ("writable", .bool segment.writable),
      ("executable", .bool segment.executable)]
  decode? json := do
    let [start, stop, readable, writable, executable] ← json.recordFields?
      [.required "start", .required "end", .required "readable", .required "writable",
       .required "executable"] | none
    return ⟨⟨← decode? start, ← decode? stop⟩, ← decode? readable, ← decode? writable,
      ← decode? executable⟩

/-- The names of the purposes of sections. -/
def SectionPurpose.names : List (String × SectionPurpose) :=
  [("Default", .default), ("ReadOnlyCode", .readOnlyCode), ("ReadOnlyData", .readOnlyData),
   ("ReadWriteData", .readWriteData), ("External", .external)]

instance : JsonForm SectionPurpose where
  encode
    | .default => .text "Default"
    | .readOnlyCode => .text "ReadOnlyCode"
    | .readOnlyData => .text "ReadOnlyData"
    | .readWriteData => .text "ReadWriteData"
    | .external => .text "External"
  decode? := Json.choice? SectionPurpose.names

instance : JsonForm Section where
  encode subject :=
    .object [("name", .text subject.name), ("start", encode subject.start),
      ("end", encode subject.stop), ("semantics", encode subject.purpose)]
  decode? json := do
    let [name, start, stop, purpose] ← json.recordFields?
      [.required "name", .required "start", .required "end", .required "semantics"] | none
    return ⟨⟨← decode? start, ← decode? stop⟩, ← decode? name, ← decode? purpose⟩

instance : JsonForm CallingConvention where
  encode convention :=
    .object [("name", .text convention.name),
      ("int_arg_regs", encode convention.integerRegisters),
      ("float_arg_regs", encode convention.floatRegisters)]
  decode? json := do
    let [name, integers, floats] ← json.recordFields?
      [.required "name", .required "int_arg_regs", .required "float_arg_regs"] | none
    return ⟨← decode? name, ← decode? integers, ← decode? floats⟩

end BinaryFacts
