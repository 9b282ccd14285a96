import HartBoot.Word

/-!
The inspection text of a value, which messages and trace records carry. A record is written
`Name { field: value }`, a value with arguments `Name(value)`, a plain choice by its name and a number in
decimal; an optional value is `Some(value)` or `None`.
-/
namespace HartBoot

class Inspect (α : Type) where
  inspect : α → String

export Inspect (inspect)

/-- A record with its fields in the order of their declaration. -/
def recordText (name : String) (fields : List (String × String)) : String :=
  name ++ " \x7b " ++ ", ".intercalate (fields.map fun item => item.1 ++ ": " ++ item.2) ++ " \x7d"

/-- A value named by its constructor, with its arguments. -/
def tupleText (name : String) (arguments : List String) : String :=
  name ++ "(" ++ ", ".intercalate arguments ++ ")"

/-- A text between quotes; the texts inspected hold nothing that needs an escape. -/
def quoted (text : String) : String := "\"" ++ text ++ "\""

instance {w : Nat} : Inspect (BitVec w) := ⟨decimal⟩

instance : Inspect Bool := ⟨fun b => if b then "true" else "false"⟩

instance {α : Type} [Inspect α] : Inspect (Option α) :=
  ⟨fun
    | none => "None"
    | some a => tupleText "Some" [inspect a]⟩

/-- The report of an operation that was to succeed and ended with an error. -/
def failedResult (error : String) : String := "called `Result::unwrap()` on an `Err` value: " ++ error

end HartBoot
