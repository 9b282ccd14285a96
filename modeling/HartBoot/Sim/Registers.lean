import HartBoot.Boot.Operations

/-!
The registers of a simulated hart, and how writes, setup steps and returns from machine mode change them.
-/
namespace HartBoot.Sim

/-- The registers of a hart; `none` stands for one that was never written. -/
structure Registers where
  hartId : Word
  mode : PrivilegeMode
  pc : Option Word
  satp : Option Word
  globalPointer : Option Word
  stackPointer : Option Word
  status : Word
  epc : Option Word
  trapVector : Option TrapVector
  interruptEnable : Option InterruptMask
  pmp : Option PmpEntry
deriving DecidableEq

namespace Registers

/-- Out of reset a hart is in machine mode. -/
def atReset (id : Word) : Registers where
  hartId := id
  mode := .machine
  pc := none
  satp := none
  globalPointer := none
  stackPointer := none
  status := 0
  epc := none
  trapVector := none
  interruptEnable := none
  pmp := none

/-- Whether no interrupt source is enabled; none is before the register is first written. -/
def interruptsMasked (r : Registers) : Bool := r.interruptEnable.all (·.isEmpty)

def write (r : Registers) : RegisterWrite → Registers
  | .status value => { r with status := value.bits }
  | .epc entry => { r with epc := some entry }
  | .trapVector vector => { r with trapVector := some vector }
  | .interruptEnable mask => { r with interruptEnable := some mask }
  | .pmp entry => { r with pmp := some entry }

def setup (r : Registers) : Setup → Registers
  | .bareAddressing => { r with satp := some 0 }
  | .globalPointer value => { r with globalPointer := some value }
  | .zeroWord _ => r
  | .stackPointer value => { r with stackPointer := some value }

/-- A return from machine mode with a decoded status to an address. -/
def privilegeReturn (r : Registers) (status : Status) (entry : Word) : Registers :=
  { r with status := status.afterReturn.bits, mode := status.previous, pc := some entry }

end Registers
end HartBoot.Sim
