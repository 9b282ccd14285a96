import HartBoot.FlagSet

/-!
The machine status register. It holds, between other bits, the interrupt enables (`StatusFlags`) and in bits
11 and 12 the privilege level that a return from machine mode switches to; `Status.bits` writes both into a
word and `Status.ofBits?` reads them back, except for the level that is reserved.
-/
namespace HartBoot

inductive PrivilegeMode
  | user
  | supervisor
  | machine
deriving DecidableEq

namespace PrivilegeMode

def all : List PrivilegeMode := [.user, .supervisor, .machine]

def name : PrivilegeMode → String
  | .user => "User"
  | .supervisor => "Supervisor"
  | .machine => "Machine"

/-- The number of a level in a register field; 2 is reserved. -/
def code : PrivilegeMode → Nat
  | .user => 0
  | .supervisor => 1
  | .machine => 3

def ofCode? (n : Nat) : Option PrivilegeMode := all.find? (·.code == n)

instance : Inspect PrivilegeMode := ⟨name⟩

end PrivilegeMode

/-- The interrupt enables of the status register. -/
def statusVocabulary : Vocabulary 64 := ⟨"StatusFlags", [("SIE", 1), ("MIE", 3), ("SPIE", 5), ("MPIE", 7)]⟩

abbrev StatusFlags := FlagSet statusVocabulary

namespace StatusFlags

def sie : StatusFlags := .single 1

def mie : StatusFlags := .single 3

def spie : StatusFlags := .single 5

/-- Machine interrupts were enabled before the trap; a return enables them again. -/
def mpie : StatusFlags := .single 7

end StatusFlags

/-- What the boot sequence writes into the status register: the level to return to and the enables. -/
structure Status where
  previous : PrivilegeMode
  flags : StatusFlags
deriving DecidableEq

namespace Status

def modeStart : Nat := 11

def modeWidth : Nat := 2

/-- The register value: the enables, with the level written over its two bits. -/
def bits (s : Status) : Word := putField modeStart (BitVec.ofNat modeWidth s.previous.code) s.flags.bits

/-- The level and the known enables of a register value; none for the reserved level. -/
def ofBits? (bits : Word) : Option Status :=
  (PrivilegeMode.ofCode? (field modeStart modeWidth bits).toNat).map fun previous => ⟨previous, .truncate bits⟩

/-- The status after a return from machine mode: the saved enable becomes the current one and is set, and
    the next return would lead to user mode. -/
def afterReturn (s : Status) : Status :=
  ⟨.user, (s.flags.set StatusFlags.mie (s.flags.contains StatusFlags.mpie)).union StatusFlags.mpie⟩

instance : Inspect Status :=
  ⟨fun s => recordText "Status" [("previous", inspect s.previous), ("flags", inspect s.flags)]⟩

end Status
end HartBoot
