/-
This file defines the upper-case form of a text. The form of a character does not depend on its
neighbours, and one character may have a form of two or three characters, so the form of a text
is the forms of its characters joined in order.
-/

import BinaryFacts.Text.CaseTable

namespace BinaryFacts.Text

/-- The upper-case form of a character; a character without one stands for itself. -/
def upperForm (character : Char) : List Char :=
  let code := character.toNat
  match expandingForms.lookup code with
  | some form => form.map Char.ofNat
  | none =>
    match caseRanges.find? (·.holds code) with
    | some range => [Char.ofNat (code + range.shift).toNat]
    | none => [character]

/-- The upper-case form of a text. -/
def upper (text : String) : String :=
  String.ofList (text.toList.flatMap upperForm)

end BinaryFacts.Text
