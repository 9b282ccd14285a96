import HartBoot.Console.Basic
import HartBoot.Log.Record

/-!
Scripts of console operations in which traps interrupt prints. A trap strikes a print while it holds the lock;
the handler takes the lock back, performs a script of its own, and the print never goes on.
-/
namespace HartBoot.Console

/-- When a trap strikes a print of some pieces. -/
inductive Moment
  /-- While the print holds the lock, whatever it has written, and also where there is no sink. -/
  | locked
  /-- Once all the pieces are written, which does not happen if one is refused or there is no sink. -/
  | written
deriving DecidableEq

/-- Whether the moment comes, when `complete` tells whether all the pieces are written. -/
def Moment.comes : Moment → (complete : Bool) → Bool
  | .locked, _ => true
  | .written, complete => complete

@[simp] theorem Moment.comes_complete (moment : Moment) : moment.comes true = true := by cases moment <;> rfl

inductive Step
  | install (room : Option Nat)
  | print (pieces : List String)
  /-- A print with a color around its pieces. -/
  | printInColor (color : Nat) (pieces : List String)
  | reclaim
  /-- A print that is struck by a trap if the moment comes, and what the handler does. -/
  | strike (moment : Moment) (pieces : List String) (handler : List Step)

/-- A print that is struck by a trap once all its pieces are written. -/
abbrev Step.trap (pieces : List String) (handler : List Step) : Step := .strike .written pieces handler

inductive Act
  | installed
  | printed
  | printedInColor
  | reclaimed (taken : Bool)
  /-- A handler took the lock back. -/
  | handler (taken : Bool)
  /-- A print that was to be struck by a trap was, or was not. -/
  | trapped (struck : Bool)
deriving DecidableEq

/-- What an operation did, and what each sink has received since the start. -/
structure Item where
  act : Act
  received : List String
deriving DecidableEq

mutual

/-- Performs a step. A lock that is taken back is announced by printing `notice`. -/
def perform (notice : List String) (c : Console) : Step → Option (Console × List Item)
  | .install room => do
    let c ← c.install room
    return (c, [⟨.installed, c.received⟩])
  | .print pieces => do
    let c ← c.print pieces
    return (c, [⟨.printed, c.received⟩])
  | .printInColor color pieces => do
    let c ← c.print (Log.inColor color pieces)
    return (c, [⟨.printedInColor, c.received⟩])
  | .reclaim => do
    let (c, taken) ← c.reclaimWith notice
    return (c, [⟨.reclaimed taken, c.received⟩])
  | .strike moment pieces handler => do
    let (c, complete) ← c.hold pieces
    if moment.comes complete then
      let (c, taken) ← c.reclaimWith notice
      let first : Item := ⟨.handler taken, c.received⟩
      let (c, items) ← performAll notice c handler
      let c := c.unlock
      return (c, first :: items ++ [⟨.trapped true, c.received⟩])
    else
      let c := c.unlock
      return (c, [⟨.trapped false, c.received⟩])

/-- Performs steps one after the other. -/
def performAll (notice : List String) (c : Console) : List Step → Option (Console × List Item)
  | [] => some (c, [])
  | step :: steps => do
    let (c, items) ← perform notice c step
    let (c, rest) ← performAll notice c steps
    return (c, items ++ rest)

end

end HartBoot.Console
