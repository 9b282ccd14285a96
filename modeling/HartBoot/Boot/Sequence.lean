import HartBoot.Boot.Operations

/-!
The boot of one hart. A hart that wins the election is set up (`prologue`), runs early initialisation in
machine mode and then the main routine in supervisor mode (`descend`); every other hart, and the boot hart
once the main routine has returned, waits for interrupts for good. Each step checks that the stage allows it.
-/
namespace HartBoot

/-- Whether a hart sets the machine up. -/
abbrev IsBootHart (id : Word) : Prop := id = Platform.bootHart

/-- A boot in progress. -/
structure Boot where
  layout : Layout
  stage : Stage
deriving DecidableEq

namespace Boot

/-- A boot that starts at reset. -/
def new (l : Layout) : Boot := ⟨l, .electing⟩

/-- A boot whose hart was elected and set up elsewhere. -/
def afterPrologue (l : Layout) : Boot := ⟨l, .awaitingEarlyInit⟩

section
variable {ε σ Halt : Type} (ops : HartOps ε σ Halt)

/-- Moves to another stage, if the stage allows it. -/
def advance (boot : Boot) (next : Stage) : EStateM ε σ Boot :=
  if boot.stage.canMoveTo next then pure { boot with stage := next }
  else throw (ops.fault (.illegalMove boot.stage next))

/-- Runs early initialisation and the main routine, and idles when the main routine has returned. -/
def descend (boot : Boot) : EStateM ε σ (Flow Halt) := do
  if boot.stage ≠ .awaitingEarlyInit then
    throw (ops.fault (.earlyDescent boot.stage))
  ops.report .debug ("entering early init at " ++ hex boot.layout.earlyInit)
  match ← ops.enter (.earlyInit boot.layout) with
  | .halted reason => return .halted reason
  | .onward =>
    let boot ← boot.advance ops .awaitingMain
    ops.report .debug ("early init done, entering main at " ++ hex boot.layout.main)
    match ← ops.enter (.main boot.layout) with
    | .halted reason => return .halted reason
    | .onward =>
      let _ ← boot.advance ops .idle
      ops.idle

end

section
variable {ε σ Halt : Type} (ops : ResetOps ε σ Halt)

/-- Clears word by word from `addr` up to `stop`; the address after a cleared word has to exist. -/
def clearFrom (addr stop : Word) : EStateM ε σ Unit :=
  if _below : addr < stop then do
    ops.setup (.zeroWord addr)
    match _next : Word.add? addr Platform.clearStep with
    | none => throw (ops.fault .addressOverflow)
    | some next => clearFrom next stop
  else pure ()
termination_by stop.toNat - addr.toNat
decreasing_by
  have later := Word.toNat_of_add? _next
  have inside : addr.toNat < stop.toNat := _below
  simp only [Platform.clearStep] at later
  omega

/-- Clears a region; its bounds are taken as they are. -/
def clearBss (r : BssRegion) : EStateM ε σ Unit := clearFrom ops r.start r.stop

/-- Sets the hart up: bare addressing, global pointer, cleared memory, stack. -/
def prologue (l : Layout) : EStateM ε σ Unit := do
  ops.setup .bareAddressing
  ops.setup (.globalPointer l.globalPointer)
  clearBss ops l.bss
  ops.setup (.stackPointer l.stackEnd)

/-- The whole boot, from reset on. -/
def reset (boot : Boot) : EStateM ε σ (Flow Halt) := do
  if IsBootHart (ops.hartId (← get)) then
    let boot ← boot.advance ops.toHartOps .clearingBss
    prologue ops boot.layout
    let boot ← boot.advance ops.toHartOps .awaitingEarlyInit
    boot.descend ops.toHartOps
  else
    let _ ← boot.advance ops.toHartOps .idle
    ops.idle

end
end Boot
end HartBoot
