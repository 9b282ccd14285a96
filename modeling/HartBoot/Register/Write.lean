import HartBoot.Register.InterruptMask
import HartBoot.Register.Pmp
import HartBoot.Register.Status
import HartBoot.Register.TrapVector

/-!
The writes to machine-level registers that a descent to a lower privilege level consists of.
-/
namespace HartBoot

inductive RegisterWrite
  | status (value : Status)
  | epc (entry : Word)
  | trapVector (vector : TrapVector)
  | interruptEnable (mask : InterruptMask)
  | pmp (entry : PmpEntry)
deriving DecidableEq

/-- The write as the report of an illegal one names it. -/
def RegisterWrite.text : RegisterWrite → String
  | .status _ => "mstatus write"
  | .epc _ => "mepc write"
  | .trapVector _ => "mtvec write"
  | .interruptEnable _ => "mie write"
  | .pmp _ => "pmp write"

end HartBoot
