import HartBoot.Fault
import HartBoot.Log.Level
import HartBoot.Transition

/-!
What the boot sequence needs of a hart, and the two things that every part of it does with one: enter a
routine by a return from machine mode (`HartOps.enter`) and wait for interrupts until the hart halts
(`HartOps.idle`).
-/
namespace HartBoot

/-- How an operation leaves the code after it: the code goes on, or the hart has halted. -/
inductive Flow (Halt : Type)
  | onward
  | halted (reason : Halt)
deriving DecidableEq

/-- The operations of a hart with state `σ` that stops with `ε` and halts with `Halt`. -/
structure HartOps (ε σ Halt : Type) where
  hartId : σ → Word
  /-- The number of waits after which the hart has halted at the latest. -/
  patience : σ → Nat
  /-- How the hart stops at a fault. -/
  fault : Fault → ε
  /-- Emits a log record. -/
  emit : Log.Level → String → EStateM ε σ Unit
  write : RegisterWrite → EStateM ε σ Unit
  /-- Returns from machine mode into the routine whose address was written, which goes on as told when it
      returns. -/
  privilegeReturn : Resume → EStateM ε σ (Flow Halt)
  waitForInterrupt : EStateM ε σ (Flow Halt)

namespace HartOps
variable {ε σ Halt : Type} (ops : HartOps ε σ Halt)

/-- Emits a record about the hart, which begins with its number. -/
def report (level : Log.Level) (message : String) : EStateM ε σ Unit := do
  ops.emit level ("hart " ++ decimal (ops.hartId (← get)) ++ ": " ++ message)

/-- Writes the registers of a transition and returns from machine mode into its routine. -/
def enter (t : Transition) : EStateM ε σ (Flow Halt) := do
  ops.report .trace ("mret to " ++ hex t.entry ++ " in " ++ inspect t.mode ++ " mode")
  t.writes.forM ops.write
  ops.privilegeReturn t.resume

/-- Waits for interrupts, `n` times at most, until the hart halts. -/
def idleFor : Nat → EStateM ε σ (Flow Halt)
  | 0 => pure .onward
  | n + 1 => do
    match ← ops.waitForInterrupt with
    | .halted reason => pure (.halted reason)
    | .onward => idleFor n

/-- Waits for interrupts until the hart halts. -/
def idle : EStateM ε σ (Flow Halt) := do
  ops.idleFor (ops.patience (← get))

end HartOps

/-- The steps between reset and the first call, which need no stack. -/
inductive Setup
  /-- Addresses are physical from now on. -/
  | bareAddressing
  | globalPointer (value : Word)
  | zeroWord (addr : Word)
  | stackPointer (value : Word)
deriving DecidableEq

/-- A hart that the boot can take from reset on. -/
structure ResetOps (ε σ Halt : Type) extends HartOps ε σ Halt where
  setup : Setup → EStateM ε σ Unit

end HartBoot
