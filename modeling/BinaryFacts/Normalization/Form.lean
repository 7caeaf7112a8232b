/-
This file defines the forms of types that are built from parts: what is known about such a type
before its parts are built. A form is over the type of its parts, so building the parts turns a
form over descriptors into a form over type ids. `parts` lists the parts in the order in which
they are built, and `refill?` puts as many new parts back into their places.
-/

import BinaryFacts.Layout

namespace BinaryFacts

/-- A type built from parts, over the type of the parts. -/
inductive Form (Part : Type) where
  | pointer (target : Part)
  | array (element : Part) (count : UInt64)
  | function (result : Part) (parameters : List Part) (variadic : Bool)
  | typedef (target : Part)
  /-- A structure of `width` bytes, given by the spans of its members. -/
  | struct (width : UInt64) (spans : List (Layout.Span Part))
  | union (members : List Part)

namespace Form

variable {Part Other : Type}

/-- The parts of a form in the order in which they are built. -/
def parts : Form Part → List Part
  | .pointer target => [target]
  | .array element _ => [element]
  | .function result parameters _ => result :: parameters
  | .typedef target => [target]
  | .struct _ spans => spans.map (·.item)
  | .union members => members

/-- Build every part of a form in order. -/
def mapM {m : Type → Type} [Monad m] (build : Part → m Other) : Form Part → m (Form Other)
  | .pointer target => return .pointer (← build target)
  | .array element count => return .array (← build element) count
  | .function result parameters variadic =>
    return .function (← build result) (← parameters.mapM build) variadic
  | .typedef target => return .typedef (← build target)
  | .struct width spans =>
    return .struct width (← spans.mapM fun span => return { span with item := ← build span.item })
  | .union members => return .union (← members.mapM build)

/-- Put new parts into the places of the old ones, if there are as many. -/
def refill? : Form Part → List Other → Option (Form Other)
  | .pointer _, [target] => some (.pointer target)
  | .array _ count, [element] => some (.array element count)
  | .function _ parameters variadic, result :: rest =>
    if rest.length = parameters.length then some (.function result rest variadic) else none
  | .typedef _, [target] => some (.typedef target)
  | .struct width spans, items =>
    if items.length = spans.length then
      some (.struct width (spans.zipWith (fun span item => { span with item }) items))
    else none
  | .union members, items =>
    if items.length = members.length then some (.union items) else none
  | _, _ => none

/-- A refilled form has as many parts as before. -/
theorem length_of_refill? {form : Form Part} {items : List Other} {filled : Form Other}
    (refilled : form.refill? items = some filled) : items.length = form.parts.length := by
  cases form with
  | pointer target | array element count | typedef target =>
    match items, refilled with
    | [item], _ => rfl
  | function result parameters variadic =>
    match items, refilled with
    | item :: rest, refilled =>
      rw [refill?] at refilled
      split at refilled
      · rename_i fits
        rw [parts, List.length_cons, List.length_cons, fits]
      · cases refilled
  | struct width spans =>
    rw [refill?] at refilled
    split at refilled
    · rename_i fits
      rw [parts, List.length_map, fits]
    · cases refilled
  | union members =>
    rw [refill?] at refilled
    split at refilled
    · rename_i fits
      exact fits
    · cases refilled

/-- A refilled form has the new parts. -/
theorem parts_of_refill? {form : Form Part} {items : List Other} {filled : Form Other}
    (refilled : form.refill? items = some filled) : filled.parts = items := by
  cases form with
  | pointer target | array element count | typedef target =>
    match items, refilled with
    | [item], refilled =>
      cases refilled
      rfl
  | function result parameters variadic =>
    match items, refilled with
    | item :: rest, refilled =>
      by_cases fits : rest.length = parameters.length
      · simp only [refill?, fits, if_true, Option.some.injEq] at refilled
        subst refilled
        rfl
      · simp [refill?, fits] at refilled
  | struct width spans =>
    by_cases fits : items.length = spans.length
    · simp only [refill?, fits, if_true, Option.some.injEq] at refilled
      subst refilled
      simp only [parts, List.map_zipWith]
      induction spans generalizing items with
      | nil => simpa using fits
      | cons span rest inductionHypothesis =>
        cases items with
        | nil => simp at fits
        | cons item others => simpa using inductionHypothesis (by simpa using fits)
    · simp [refill?, fits] at refilled
  | union members =>
    by_cases fits : items.length = members.length
    · simp only [refill?, fits, if_true, Option.some.injEq] at refilled
      subst refilled
      rfl
    · simp [refill?, fits] at refilled

end Form

end BinaryFacts
