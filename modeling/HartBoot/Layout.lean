import HartBoot.Register.TrapVector

/-!
The addresses that the boot of an image needs, which linking fixes. `BssRegion.check` and `Layout.validate`
say what is wrong with a layout; the boot itself takes any.
-/
namespace HartBoot

/-- What can be wrong with a layout. -/
inductive LayoutError
  /-- An address that has to be aligned is not. -/
  | misaligned (what : String) (addr : Word)
  /-- The cleared memory ends before it starts. -/
  | inverted (start stop : Word)
  /-- The top of the stack lies in the cleared memory, so that clearing would run over the stack. -/
  | stackInsideBss (stackEnd : Word)
deriving DecidableEq

namespace LayoutError

def message : LayoutError → String
  | .misaligned what addr => what ++ " " ++ hex addr ++ " is misaligned"
  | .inverted start stop => "bss end " ++ hex stop ++ " is below start " ++ hex start
  | .stackInsideBss stackEnd => "stack end " ++ hex stackEnd ++ " lies inside bss"

instance : Inspect LayoutError :=
  ⟨fun
    | .misaligned what addr => recordText "Misaligned" [("what", quoted what), ("addr", inspect addr)]
    | .inverted start stop => recordText "Inverted" [("start", inspect start), ("end", inspect stop)]
    | .stackInsideBss stackEnd => recordText "StackInsideBss" [("stack_end", inspect stackEnd)]⟩

end LayoutError

/-- The memory to clear, from `start` up to but not including `stop`; none when `start` is not below. -/
structure BssRegion where
  start : Word
  stop : Word
deriving DecidableEq

namespace BssRegion

/-- The region with these bounds, if they are word aligned and in order. -/
def check (start stop : Word) : Except LayoutError BssRegion :=
  if ¬ Aligned Platform.clearStep start then .error (.misaligned "bss start" start)
  else if ¬ Aligned Platform.clearStep stop then .error (.misaligned "bss end" stop)
  else if stop < start then .error (.inverted start stop)
  else .ok ⟨start, stop⟩

def isEmpty (r : BssRegion) : Bool := r.stop ≤ r.start

/-- Size in bytes. -/
def size (r : BssRegion) : Word := if r.stop ≤ r.start then 0 else r.stop - r.start

def contains (r : BssRegion) (addr : Word) : Bool := r.start ≤ addr && addr < r.stop

end BssRegion

/-- The addresses that the boot of an image needs. -/
structure Layout where
  globalPointer : Word
  bss : BssRegion
  /-- The initial stack pointer; the stack grows down from here. -/
  stackEnd : Word
  /-- Entered in machine mode with interrupts masked; returns. -/
  earlyInit : Word
  /-- Entered in supervisor mode with interrupts enabled. -/
  main : Word
  trapVector : TrapVector
deriving DecidableEq

/-- The first thing wrong with a layout. A stack that ends where the cleared memory starts is fine, as it
    grows away from it. -/
def Layout.validate (l : Layout) : Except LayoutError Unit := do
  let _ ← BssRegion.check l.bss.start l.bss.stop
  if l.bss.start < l.stackEnd ∧ l.stackEnd ≤ l.bss.stop then
    throw (.stackInsideBss l.stackEnd)
  if ¬ l.trapVector.IsAligned then
    throw (.misaligned "trap vector" l.trapVector.address)

end HartBoot
