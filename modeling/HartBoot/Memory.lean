import Std.Data.ExtTreeMap
import HartBoot.Word

/-!
A sparse memory of words: a word is absent until it is stored. A store is read back at its own address and
changes no other (`read_store`), and memories that read the same everywhere are equal (`ext_read`).
-/
namespace HartBoot

/-- The words that were stored, by address. -/
abbrev Memory := Std.ExtTreeMap Word Word

namespace Memory

/-- A memory in which nothing is stored. -/
def empty : Memory := ∅

def store (m : Memory) (addr value : Word) : Memory := m.insert addr value

/-- The word at an address, if one was stored there. -/
def read (m : Memory) (addr : Word) : Option Word := m[addr]?

@[simp] theorem read_empty (a : Word) : empty.read a = none := by
  simp [read, empty]

theorem read_store (m : Memory) (addr value a : Word) :
    (m.store addr value).read a = if addr = a then some value else m.read a := by
  simp [read, store, Std.ExtTreeMap.getElem?_insert]

@[simp] theorem read_store_self (m : Memory) (addr value : Word) : (m.store addr value).read addr = some value := by
  simp [read_store]

theorem ext_read {m n : Memory} (same : ∀ a, m.read a = n.read a) : m = n := Std.ExtTreeMap.ext_getElem? same

end Memory
end HartBoot
