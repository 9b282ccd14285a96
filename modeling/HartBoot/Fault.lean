import HartBoot.Platform
import HartBoot.Register.Status
import HartBoot.Stage

/-!
Faults: the breaches of contract that end an operation half way. Each constructor is a cause, and
`Fault.message` is its report.
-/
namespace HartBoot

inductive Fault
  /-- A machine-level operation was tried below machine mode. -/
  | illegalAccess (hart : Word) (what : String) (mode : PrivilegeMode)
  /-- A word was stored at an address that is not a multiple of its size. -/
  | misalignedStore (hart addr : Word)
  /-- A return was tried while the status register names the reserved level. -/
  | reservedLevel (hart : Word)
  /-- A return was tried before the register that holds its target was written. -/
  | noReturnAddress (hart : Word)
  /-- A boot was to go from one stage to one that it cannot move to. -/
  | illegalMove (stage next : Stage)
  /-- A descent was started in another stage than the one before early initialisation. -/
  | earlyDescent (stage : Stage)
  /-- An address past the last one was computed. -/
  | addressOverflow
  /-- A trap vector was installed at an address that is not aligned. -/
  | misalignedTrapVector (addr : Word)
deriving DecidableEq

namespace Fault

/-- The report of two values that should be equal and are not. -/
def inequality (detail left right : String) : String :=
  "assertion `left == right` failed" ++ detail ++ "\n  left: " ++ left ++ "\n right: " ++ right

def message : Fault → String
  | .illegalAccess hart what mode =>
    inequality (": sim hart " ++ decimal hart ++ ": illegal " ++ what ++ " from " ++ inspect mode ++ " mode")
      (inspect mode) (inspect PrivilegeMode.machine)
  | .misalignedStore hart addr =>
    inequality (": sim hart " ++ decimal hart ++ ": misaligned store to " ++ hex addr)
      (toString (addr.toNat % Platform.clearStep)) "0"
  | .reservedLevel hart => "sim hart " ++ decimal hart ++ ": mret with reserved MPP"
  | .noReturnAddress hart => "sim hart " ++ decimal hart ++ ": mret with mepc unset"
  | .illegalMove stage next => "illegal boot stage move " ++ stage.text ++ " -> " ++ next.text
  | .earlyDescent stage => inequality "" (inspect stage) (inspect Stage.awaitingEarlyInit)
  | .addressOverflow => "attempt to add with overflow"
  | .misalignedTrapVector addr =>
    failedResult (recordText "InvalidFieldVariant" [("field", quoted "mtvec::address"), ("value", inspect addr)])

end Fault
end HartBoot
