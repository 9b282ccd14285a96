import HartBoot.FlagSet

/-!
The interrupt-enable register: one bit for each source of each privilege level. The empty mask keeps every
source from interrupting.
-/
namespace HartBoot

def interruptVocabulary : Vocabulary 64 :=
  ⟨"InterruptMask", [("SSIE", 1), ("MSIE", 3), ("STIE", 5), ("MTIE", 7), ("SEIE", 9), ("MEIE", 11)]⟩

abbrev InterruptMask := FlagSet interruptVocabulary

namespace InterruptMask

/-- Machine software interrupts. -/
def msie : InterruptMask := .single 3

/-- Machine timer interrupts. -/
def mtie : InterruptMask := .single 7

/-- Machine external interrupts. -/
def meie : InterruptMask := .single 11

end InterruptMask
end HartBoot
