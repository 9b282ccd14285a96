import HartBoot.Machine.Board

/-!
Scripts of operations on the hart of a board. A fault ends an operation and the script goes on; when the hart
ends, nothing more runs.
-/
namespace HartBoot.Machine

inductive Step
  | write (value : RegisterWrite)
  | privilegeReturn (resume : Resume)
  | waitForInterrupt
  | enter (transition : Transition)
  | hartId
  | descend (start : Boot)
  | idle

inductive Answer
  | done
  | flow (flow : Flow Empty)
  | word (value : Word)
deriving DecidableEq

variable (ops : HartOps Stop Board Empty)

def perform : Step → BoardM Answer
  | .write value => do
    ops.write value
    return .done
  | .privilegeReturn resume => Answer.flow <$> ops.privilegeReturn resume
  | .waitForInterrupt => Answer.flow <$> ops.waitForInterrupt
  | .enter transition => Answer.flow <$> ops.enter transition
  | .hartId => do
    return .word (ops.hartId (← get))
  | .descend start => Answer.flow <$> start.descend ops
  | .idle => Answer.flow <$> ops.idle

/-- The routine at an address, when those at `divergent` do not come back and all others do at once. -/
def simpleRoutine (divergent : List Word) (entry : Word) : BoardM Unit :=
  if entry ∈ divergent then throw (.ended .diverged) else pure ()

/-- What the hart did between two moments: its events and the text it sent to the console. -/
structure Deed where
  events : List Event
  text : String
deriving DecidableEq

def deedBetween (before after : Board) : Deed where
  events := after.events.drop before.events.length
  text := String.ofList (after.console.text.toList.drop before.console.text.length)

structure Account where
  step : Step
  answer : Except Fault Answer
  deed : Deed

/-- The accounts of the operations that came to their end, how the hart ended, if it did, and what it did in
    the operation in which it ended. -/
structure Session where
  accounts : List Account
  ending : Option Ending
  last : Deed

/-- Performs operations one after the other until the hart ends. -/
def runScript (b : Board) : List Step → Session
  | [] => ⟨[], none, ⟨[], ""⟩⟩
  | step :: steps =>
    let finish (answer : Except Fault Answer) (after : Board) : Session :=
      let rest := runScript after steps
      { rest with accounts := ⟨step, answer, deedBetween b after⟩ :: rest.accounts }
    match perform ops step b with
    | .ok answer after => finish (.ok answer) after
    | .error (.fault cause) after => finish (.error cause) after
    | .error (.ended how) after => ⟨[], some how, deedBetween b after⟩

end HartBoot.Machine
