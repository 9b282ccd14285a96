import HartBoot.Inspect
import HartBoot.Platform

/-!
The trap vector register: the address that traps lead to, whose alignment leaves the low bits free for the
mode.
-/
namespace HartBoot

inductive TrapMode
  /-- Every trap leads to the address itself. -/
  | direct
  /-- The address is that of a table. -/
  | vectored
deriving DecidableEq

namespace TrapMode

def all : List TrapMode := [.direct, .vectored]

def name : TrapMode → String
  | .direct => "Direct"
  | .vectored => "Vectored"

/-- The mode in the low bits of the register. -/
def bits : TrapMode → Word
  | .direct => 0
  | .vectored => 1

instance : Inspect TrapMode := ⟨name⟩

end TrapMode

structure TrapVector where
  address : Word
  mode : TrapMode
deriving DecidableEq

namespace TrapVector

/-- The vector that takes every trap to `address`. -/
def direct (address : Word) : TrapVector := ⟨address, .direct⟩

abbrev IsAligned (v : TrapVector) : Prop := Aligned Platform.trapVectorAlign v.address

def bits (v : TrapVector) : Word := v.address ||| v.mode.bits

instance : Inspect TrapVector :=
  ⟨fun v => recordText "TrapVector" [("address", inspect v.address), ("mode", inspect v.mode)]⟩

end TrapVector
end HartBoot
