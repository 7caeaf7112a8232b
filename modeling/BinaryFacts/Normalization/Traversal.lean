/-
This file builds a descriptor without recursion into its parts, on a stack of tasks and a stack
of built ids, so that the depth of a type costs no depth of calls. A descriptor with parts leaves
a frame that closes its node under the frames of its parts; when that frame comes up, the ids of
the parts are the newest on the stack of ids.
-/

import BinaryFacts.Normalization.Draft

namespace BinaryFacts

namespace Building

/-- A task on the stack. -/
inductive Frame where
  /-- Build a descriptor. -/
  | visit (descriptor : Descriptor)
  /-- Close the node `id`, whose parts are built. -/
  | finish (id : TypeId) (form : Form Descriptor)

/-- Work off a stack of tasks, as far as a number of steps goes. The result is the stack of built
ids, newest first, or nothing if tasks are left; `root` is the key that errors of the run as a
whole name. -/
def traverseWithin (binary : Binary) (pointerSize : UInt64) (root : String) :
    Nat → List Frame → List TypeId → Building (Option (List TypeId))
  | 0, _, _ => return none
  | _ + 1, [], built => return some built
  | steps + 1, .visit descriptor :: stack, built => do
    match ← start binary pointerSize descriptor with
    | .done id => traverseWithin binary pointerSize root steps stack (id :: built)
    | .instead target =>
      traverseWithin binary pointerSize root steps (.visit target :: stack) built
    | .parts id form =>
      let frames := form.parts.map .visit ++ .finish id form :: stack
      traverseWithin binary pointerSize root steps frames built
  | steps + 1, .finish id form :: stack, built => do
    let arity := form.parts.length
    match form.refill? (built.take arity).reverse with
    | some filled =>
      let id ← close id filled
      traverseWithin binary pointerSize root steps stack (id :: built.drop arity)
    | none => throw (.incomplete root)

/-- Build a descriptor on a stack of tasks. The result is nothing if the number of steps is not
enough. -/
def traverse (binary : Binary) (pointerSize : UInt64) (steps : Nat) (descriptor : Descriptor) :
    Building (Option TypeId) := do
  match ← traverseWithin binary pointerSize descriptor.key steps [.visit descriptor] [] with
  | none => return none
  | some [id] => return some id
  | some _ => throw (.incomplete descriptor.key)

end Building

end BinaryFacts
