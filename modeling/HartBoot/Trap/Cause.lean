import HartBoot.Inspect

/-!
Trap causes. The cause register says in its top bit whether the trap is an interrupt and in the other bits
which; `Cause.ofBits` decodes it and keeps the codes that no interrupt and no exception has.
-/
namespace HartBoot.Trap

inductive Interrupt
  | supervisorSoft
  | machineSoft
  | supervisorTimer
  | machineTimer
  | supervisorExternal
  | machineExternal
deriving DecidableEq

namespace Interrupt

def all : List Interrupt :=
  [.supervisorSoft, .machineSoft, .supervisorTimer, .machineTimer, .supervisorExternal, .machineExternal]

def name : Interrupt → String
  | .supervisorSoft => "SupervisorSoft"
  | .machineSoft => "MachineSoft"
  | .supervisorTimer => "SupervisorTimer"
  | .machineTimer => "MachineTimer"
  | .supervisorExternal => "SupervisorExternal"
  | .machineExternal => "MachineExternal"

def code : Interrupt → Nat
  | .supervisorSoft => 1
  | .machineSoft => 3
  | .supervisorTimer => 5
  | .machineTimer => 7
  | .supervisorExternal => 9
  | .machineExternal => 11

def ofCode? (n : Nat) : Option Interrupt := all.find? (·.code == n)

instance : Inspect Interrupt := ⟨name⟩

end Interrupt

inductive Exception
  | instructionMisaligned
  | instructionFault
  | illegalInstruction
  | breakpoint
  | loadMisaligned
  | loadFault
  | storeMisaligned
  | storeFault
  | userEnvCall
  | supervisorEnvCall
  | machineEnvCall
  | instructionPageFault
  | loadPageFault
  | storePageFault
deriving DecidableEq

namespace Exception

def all : List Exception :=
  [.instructionMisaligned, .instructionFault, .illegalInstruction, .breakpoint, .loadMisaligned, .loadFault,
    .storeMisaligned, .storeFault, .userEnvCall, .supervisorEnvCall, .machineEnvCall, .instructionPageFault,
    .loadPageFault, .storePageFault]

def name : Exception → String
  | .instructionMisaligned => "InstructionMisaligned"
  | .instructionFault => "InstructionFault"
  | .illegalInstruction => "IllegalInstruction"
  | .breakpoint => "Breakpoint"
  | .loadMisaligned => "LoadMisaligned"
  | .loadFault => "LoadFault"
  | .storeMisaligned => "StoreMisaligned"
  | .storeFault => "StoreFault"
  | .userEnvCall => "UserEnvCall"
  | .supervisorEnvCall => "SupervisorEnvCall"
  | .machineEnvCall => "MachineEnvCall"
  | .instructionPageFault => "InstructionPageFault"
  | .loadPageFault => "LoadPageFault"
  | .storePageFault => "StorePageFault"

def code : Exception → Nat
  | .instructionMisaligned => 0
  | .instructionFault => 1
  | .illegalInstruction => 2
  | .breakpoint => 3
  | .loadMisaligned => 4
  | .loadFault => 5
  | .storeMisaligned => 6
  | .storeFault => 7
  | .userEnvCall => 8
  | .supervisorEnvCall => 9
  | .machineEnvCall => 11
  | .instructionPageFault => 12
  | .loadPageFault => 13
  | .storePageFault => 15

def ofCode? (n : Nat) : Option Exception := all.find? (·.code == n)

instance : Inspect Exception := ⟨name⟩

end Exception

inductive Cause
  | interrupt (source : Interrupt)
  | exception (kind : Exception)
  /-- A code that no interrupt, or no exception, has. -/
  | unknown (asynchronous : Bool) (code : BitVec 63)
deriving DecidableEq

namespace Cause

/-- Decodes the cause register. -/
def ofBits (mcause : Word) : Cause :=
  let code : BitVec 63 := mcause.setWidth 63
  let known :=
    if mcause.msb then (Interrupt.ofCode? code.toNat).map interrupt else (Exception.ofCode? code.toNat).map exception
  known.getD (unknown mcause.msb code)

def isInterrupt : Cause → Bool
  | .interrupt _ => true
  | .exception _ => false
  | .unknown asynchronous _ => asynchronous

/-- The cause as the report of a trap names it. -/
def text : Cause → String
  | .interrupt source => "interrupt " ++ source.name
  | .exception kind => "exception " ++ kind.name
  | .unknown true code => "unknown interrupt " ++ decimal code
  | .unknown false code => "unknown exception " ++ decimal code

instance : Inspect Cause :=
  ⟨fun
    | .interrupt source => tupleText "Interrupt" [inspect source]
    | .exception kind => tupleText "Exception" [inspect kind]
    | .unknown asynchronous code =>
      recordText "Unknown" [("interrupt", inspect asynchronous), ("code", inspect code)]⟩

end Cause
end HartBoot.Trap
