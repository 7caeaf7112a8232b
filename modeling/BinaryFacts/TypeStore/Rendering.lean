/-
This file writes stored types as text. A node that is being written further out, or that lies
below the depth limit, is written as a back reference: its word and its number. An id without a
node is written with a question mark. Structures, unions and typedefs carry their number, so that
a back reference can be followed.
-/

import BinaryFacts.TypeStore.Basic

namespace BinaryFacts

namespace TypeStore

/-- How many nodes may be open around a node that is written out. -/
def renderDepth : Nat := 32

/-- The mark that numbers a node. -/
def numberMark (id : TypeId) : String := s!"#{id.index}"

/-- The bits of a scalar of `size` bytes. -/
def renderBits (size : UInt64) : Except Fault String := do
  let count ← checkedProduct size 8
  return toString count.toNat

/-- A body in braces, with blanks inside unless it is empty. -/
def braced (body : List String) : String :=
  match body with
  | [] => "\x7b\x7d"
  | _ => "\x7b " ++ String.intercalate ", " body ++ " \x7d"

/-- Write one node, given how its children are written. -/
def renderNode (id : TypeId) (child : TypeId → Except Fault String) :
    TypeNode TypeId → Except Fault String
  | .void => return "void"
  | .bool => return "bool"
  | .integer size signed => return (if signed then "i" else "u") ++ (← renderBits size)
  | .float size => return "f" ++ (← renderBits size)
  | .padding bytes => return s!"pad[{bytes.toNat}]"
  | .pointer element => return "ptr(" ++ (← child element) ++ ")"
  | .array element count => return "[" ++ (← child element) ++ s!"; {count.toNat}]"
  | .struct elements => return "struct" ++ numberMark id ++ " " ++ braced (← elements.mapM child)
  | .union members => return "union" ++ numberMark id ++ " " ++ braced (← members.mapM child)
  | .enumeration underlying => return "enum(" ++ (← child underlying) ++ ")"
  | .typedef underlying => return "typedef" ++ numberMark id ++ "(" ++ (← child underlying) ++ ")"
  | .function result parameters variadic => do
    let rest := if variadic then ["..."] else []
    let spelled := String.intercalate ", " ((← parameters.mapM child) ++ rest)
    return "fn(" ++ spelled ++ ") -> " ++ (← child result)

/-- Write a type inside the nodes of `path`, with `remaining` more levels to write out. -/
def renderWithin (store : TypeStore) : Nat → List TypeId → TypeId → Except Fault String
  | 0, _, id =>
    match store.get? id with
    | none => return "?" ++ numberMark id
    | some node => return node.word ++ numberMark id
  | remaining + 1, path, id =>
    match store.get? id with
    | none => return "?" ++ numberMark id
    | some node =>
      if id ∈ path then return node.word ++ numberMark id
      else renderNode id (store.renderWithin remaining (id :: path)) node

/-- A type as text, such as `struct#0 { i64, ptr(struct#0) }`. -/
def render (store : TypeStore) (id : TypeId) : Except Fault String :=
  store.renderWithin renderDepth [] id

end TypeStore

end BinaryFacts
