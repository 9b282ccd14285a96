import HartBoot.Word

/-!
The numbers that the boot of this board is built from: which hart sets the machine up, the granularity of
clearing and of trap vectors, and where memory and devices lie.
-/
namespace HartBoot.Platform

/-- The only hart that sets the machine up; the others park. -/
def bootHart : Word := 0

/-- Bytes cleared at a time. -/
def clearStep : Nat := 8

def trapVectorAlign : Nat := 4

/-- The highest bound a protection entry can hold: `pmpaddr` has 54 bits. -/
def pmpAddressMax : Word := BitVec.allOnes 64 >>> 10

def uartBase : Word := 0x10000000

/-- Base address of the core-local interruptor. -/
def clintBase : Word := 0x02000000

/-- The timer comparator of the boot hart. -/
def clintComparator : Word := clintBase + 0x4000

def ramStart : Word := 0x80000000

/-- Where the reset vector is placed. -/
def imageStart : Word := ramStart

/-- Bytes reserved for the stack of the boot hart. -/
def bootStackSize : Word := 0x10000

end HartBoot.Platform
