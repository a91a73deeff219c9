import StackMachine.Json.Basic

/-!
# Issues with a request

What can be wrong with the body of a request, and where.
-/

namespace StackMachine.Service

inductive Issue where
  | missing
  | notObject
  | notString
  | notInteger
  | unreadable
  | tooLarge
  | fractional
  | notFinite
  | notPositive
deriving DecidableEq, Repr

def Issue.name : Issue → String
  | .missing => "missing"
  | .notObject => "model_attributes_type"
  | .notString => "string_type"
  | .notInteger => "int_type"
  | .unreadable => "int_parsing"
  | .tooLarge => "int_parsing_size"
  | .fractional => "int_from_float"
  | .notFinite => "finite_number"
  | .notPositive => "greater_than"

/-- An issue with the body as a whole, or with one of its fields. -/
structure Problem where
  issue : Issue
  field : Option String
deriving DecidableEq, Repr

def Problem.json (p : Problem) : Json :=
  .object [
    ("type", .string p.issue.name),
    ("loc", .array ((("body" :: p.field.toList)).map .string))]

end StackMachine.Service
