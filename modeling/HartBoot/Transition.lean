import HartBoot.Layout
import HartBoot.Register.Write

/-!
Transitions into a routine, mostly at a lower privilege level. A transition says which registers to write
before a return from machine mode, in which order (`Transition.writes`), and where the routine that is
entered goes when it returns.
-/
namespace HartBoot

/-- Where a routine that was entered by a return from machine mode goes when it returns. -/
inductive Resume
  /-- To the code that entered it. -/
  | caller
  /-- To the idle loop. -/
  | idle
deriving DecidableEq

namespace Resume

def all : List Resume := [.caller, .idle]

def name : Resume → String
  | .caller => "Caller"
  | .idle => "Idle"

instance : Inspect Resume := ⟨name⟩

end Resume

structure Transition where
  /-- The status before the return; it names the level the routine runs in. -/
  status : Status
  entry : Word
  /-- Every interrupt source is masked, instead of those of the main routine being unmasked. -/
  interruptsMasked : Bool
  resume : Resume
  /-- Installed before interrupts are touched. -/
  trapVector : Option TrapVector
  /-- Written after interrupts. -/
  pmp : Option PmpEntry
deriving DecidableEq

namespace Transition

/-- Early initialisation runs in machine mode, and the return enables interrupts. -/
def earlyInitStatus : Status := ⟨.machine, StatusFlags.mpie ∪ StatusFlags.mie⟩

/-- The main routine runs in supervisor mode. -/
def mainStatus : Status := ⟨.supervisor, StatusFlags.mpie ∪ StatusFlags.spie⟩

def mainInterrupts : InterruptMask := InterruptMask.msie ∪ InterruptMask.mtie ∪ InterruptMask.meie

def openPmp : PmpEntry := ⟨⟨.all, .tor, false⟩, Platform.pmpAddressMax⟩

/-- Into early initialisation, which comes back. -/
def earlyInit (l : Layout) : Transition where
  status := earlyInitStatus
  entry := l.earlyInit
  interruptsMasked := true
  resume := .caller
  trapVector := some l.trapVector
  pmp := none

/-- Into the main routine, which is not expected to return. -/
def main (l : Layout) : Transition where
  status := mainStatus
  entry := l.main
  interruptsMasked := false
  resume := .idle
  trapVector := none
  pmp := some openPmp

def mode (t : Transition) : PrivilegeMode := t.status.previous

def interruptEnable (t : Transition) : InterruptMask := if t.interruptsMasked then .empty else mainInterrupts

/-- The register writes before the return, in order. The trap vector comes before the interrupts that could
    use it, and the protection entry comes last. -/
def writes (t : Transition) : List RegisterWrite :=
  [.status t.status, .epc t.entry] ++ (t.trapVector.map RegisterWrite.trapVector).toList ++
    [.interruptEnable t.interruptEnable] ++ (t.pmp.map RegisterWrite.pmp).toList

instance : Inspect Transition :=
  ⟨fun t => recordText "Transition"
    [("status", inspect t.status), ("entry", inspect t.entry), ("interrupts_masked", inspect t.interruptsMasked),
      ("resume", inspect t.resume), ("trap_vector", inspect t.trapVector), ("pmp", inspect t.pmp)]⟩

end Transition
end HartBoot
