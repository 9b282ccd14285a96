import HartBoot.FlagSet

/-!
Physical memory protection, entry 0: a configuration byte (permissions, address matching and a lock) and an
address. `PmpConfig.bits` and `PmpConfig.ofBits` write and read the byte.
-/
namespace HartBoot

def permissionVocabulary : Vocabulary 8 := ⟨"PmpPermissions", [("R", 0), ("W", 1), ("X", 2)]⟩

abbrev PmpPermissions := FlagSet permissionVocabulary

/-- How an entry's address bounds the memory it covers. -/
inductive AddressMatching
  | off
  /-- From the previous entry's address up to this one. -/
  | tor
  /-- Four bytes. -/
  | na4
  /-- A naturally aligned power of two. -/
  | napot
deriving DecidableEq

namespace AddressMatching

def all : List AddressMatching := [.off, .tor, .na4, .napot]

def name : AddressMatching → String
  | .off => "Off"
  | .tor => "Tor"
  | .na4 => "Na4"
  | .napot => "Napot"

def code : AddressMatching → Nat
  | .off => 0
  | .tor => 1
  | .na4 => 2
  | .napot => 3

def ofCode? (n : Nat) : Option AddressMatching := all.find? (·.code == n)

instance : Inspect AddressMatching := ⟨name⟩

end AddressMatching

structure PmpConfig where
  permissions : PmpPermissions
  matching : AddressMatching
  /-- A locked entry binds machine mode too and stays until reset. -/
  locked : Bool
deriving DecidableEq

namespace PmpConfig

def matchingStart : Nat := 3

def matchingWidth : Nat := 2

def lockStart : Nat := 7

/-- The configuration byte: the permissions, with the matching and the lock written over their bits. -/
def bits (c : PmpConfig) : Byte :=
  putField lockStart (BitVec.ofBool c.locked)
    (putField matchingStart (BitVec.ofNat matchingWidth c.matching.code) c.permissions.bits)

/-- The configuration that a byte holds; every value of the matching field has a meaning. -/
def ofBits (bits : Byte) : PmpConfig where
  permissions := .truncate bits
  matching := (AddressMatching.ofCode? (field matchingStart matchingWidth bits).toNat).getD .off
  locked := bits.getLsbD lockStart

instance : Inspect PmpConfig :=
  ⟨fun c => recordText "PmpConfig"
    [("permissions", inspect c.permissions), ("matching", inspect c.matching), ("locked", inspect c.locked)]⟩

end PmpConfig

/-- Entry 0. Its address counts units of four bytes. -/
structure PmpEntry where
  config : PmpConfig
  address : Word
deriving DecidableEq

namespace PmpEntry

/-- The configuration register of the first eight entries, with the other seven off. -/
def configBits (e : PmpEntry) : Word := e.config.bits.setWidth 64

instance : Inspect PmpEntry :=
  ⟨fun e => recordText "PmpEntry" [("config", inspect e.config), ("address", inspect e.address)]⟩

end PmpEntry
end HartBoot
