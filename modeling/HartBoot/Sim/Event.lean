import HartBoot.Boot.Operations

/-!
The effects of a simulated hart that can be observed, one constructor for each kind.
-/
namespace HartBoot.Sim

inductive Event
  | setup (step : Setup)
  | write (value : RegisterWrite)
  /-- A return from machine mode landed at `pc`; no interrupt source was enabled then if `interruptsMasked`. -/
  | privilegeReturn (mode : PrivilegeMode) (pc : Word) (interruptsMasked : Bool)
  /-- The routine entered at `entry` returned and the hart went on as `resume` says. -/
  | routineReturned (entry : Word) (resume : Resume)
  | waitForInterrupt
deriving DecidableEq

namespace Event

/-- Whether the event changes a register or memory. -/
def isMutation : Event → Bool
  | .waitForInterrupt => false
  | .routineReturned _ _ => false
  | _ => true

/-- The address and value that an event stores in memory. -/
def store? : Event → Option (Word × Word)
  | .setup (.zeroWord addr) => some (addr, 0)
  | _ => none

def name : Event → String
  | .setup .bareAddressing => "DisableTranslation"
  | .setup (.globalPointer _) => "GlobalPointer"
  | .setup (.zeroWord _) => "Store"
  | .setup (.stackPointer _) => "StackPointer"
  | .write (.status _) => "Status"
  | .write (.epc _) => "Epc"
  | .write (.trapVector _) => "TrapVector"
  | .write (.interruptEnable _) => "InterruptEnable"
  | .write (.pmp _) => "Pmp"
  | .privilegeReturn _ _ _ => "PrivilegeReturn"
  | .routineReturned _ _ => "RoutineReturned"
  | .waitForInterrupt => "WaitForInterrupt"

instance : Inspect Event :=
  ⟨fun e => match e with
    | .setup .bareAddressing => e.name
    | .setup (.globalPointer value) => tupleText e.name [inspect value]
    | .setup (.zeroWord addr) => recordText e.name [("addr", inspect addr), ("value", inspect (0 : Word))]
    | .setup (.stackPointer value) => tupleText e.name [inspect value]
    | .write (.status value) => tupleText e.name [inspect value]
    | .write (.epc entry) => tupleText e.name [inspect entry]
    | .write (.trapVector vector) => tupleText e.name [inspect vector]
    | .write (.interruptEnable mask) => tupleText e.name [inspect mask]
    | .write (.pmp entry) => tupleText e.name [inspect entry]
    | .privilegeReturn mode pc interruptsMasked => recordText e.name
      [("mode", inspect mode), ("pc", inspect pc), ("interrupts_masked", inspect interruptsMasked)]
    | .routineReturned entry resume => recordText e.name [("entry", inspect entry), ("to", inspect resume)]
    | .waitForInterrupt => e.name⟩

end Event
end HartBoot.Sim
