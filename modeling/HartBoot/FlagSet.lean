import HartBoot.Inspect

/-!
Sets of named register bits. A vocabulary lists the bits of a register that have names; a flag set over it
is a register value, so bits without a name are kept until `truncate` drops them. `ofBits?` accepts exactly
the values without unnamed bits.
-/
namespace HartBoot

/-- The bits of a register that have names, in the order in which they are written. -/
structure Vocabulary (w : Nat) where
  title : String
  flags : List (String × Nat)

def Vocabulary.known {w : Nat} (v : Vocabulary w) : BitVec w :=
  v.flags.foldl (fun bits flag => bits ||| bit flag.2) 0

/-- A value of the register with vocabulary `v`. -/
structure FlagSet {w : Nat} (v : Vocabulary w) where
  bits : BitVec w
deriving DecidableEq

namespace FlagSet
variable {w : Nat} {v : Vocabulary w}

def empty : FlagSet v := ⟨0⟩

def all : FlagSet v := ⟨v.known⟩

def single (i : Nat) : FlagSet v := ⟨bit i⟩

/-- The named bits of a register value. -/
def truncate (bits : BitVec w) : FlagSet v := ⟨bits &&& v.known⟩

/-- A register value as a flag set, if all its bits have names. -/
def ofBits? (bits : BitVec w) : Option (FlagSet v) :=
  if bits &&& v.known = bits then some ⟨bits⟩ else none

def isEmpty (s : FlagSet v) : Bool := s.bits == 0

def isAll (s : FlagSet v) : Bool := v.known ||| s.bits == s.bits

def contains (s t : FlagSet v) : Bool := s.bits &&& t.bits == t.bits

def intersects (s t : FlagSet v) : Bool := s.bits &&& t.bits != 0

def union (s t : FlagSet v) : FlagSet v := ⟨s.bits ||| t.bits⟩

def inter (s t : FlagSet v) : FlagSet v := ⟨s.bits &&& t.bits⟩

def diff (s t : FlagSet v) : FlagSet v := ⟨s.bits &&& ~~~t.bits⟩

def symmDiff (s t : FlagSet v) : FlagSet v := ⟨s.bits ^^^ t.bits⟩

/-- The named bits that are absent. -/
def complement (s : FlagSet v) : FlagSet v := truncate (~~~s.bits)

/-- `s` with the bits of `t` present or absent as `present` says. -/
def set (s t : FlagSet v) (present : Bool) : FlagSet v := if present then s.union t else s.diff t

instance : Union (FlagSet v) := ⟨union⟩

def names (s : FlagSet v) : List String :=
  (v.flags.filter fun flag => s.bits.getLsbD flag.2).map Prod.fst

def unnamed (s : FlagSet v) : BitVec w := s.bits &&& ~~~v.known

/-- The names present, then the bits without a name as one number; the empty set is `0x0`. -/
def contents (s : FlagSet v) : String :=
  match s.names ++ (if s.unnamed = 0 then [] else [hex s.unnamed]) with
  | [] => hex (0 : BitVec w)
  | parts => " | ".intercalate parts

instance : Inspect (FlagSet v) := ⟨fun s => tupleText v.title [s.contents]⟩

end FlagSet
end HartBoot
