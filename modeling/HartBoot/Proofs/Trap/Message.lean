import HartBoot.Machine.Image
import HartBoot.Proofs.Text
import HartBoot.Proofs.Trap.Cause

/-!
The reports of traps tell the traps apart. A cause is written as its kind and then one word, the name or the number that
distinguishes the causes of that kind (`Cause.text_injective`). A report ends with the value of the trap and has the
address before that, both words without a space, so what is left of it is the text of the cause (`trap_told_apart`).
-/
namespace HartBoot
namespace Trap

theorem Interrupt.name_injective {a b : Interrupt} (same : a.name = b.name) : a = b :=
  isTable.name_injective (by decide) same

theorem Exception.name_injective {a b : Exception} (same : a.name = b.name) : a = b :=
  isTable.name_injective (by decide) same

namespace Cause

/-- Whether an interrupt or an exception has the code of the cause. -/
def isKnown : Cause → Bool
  | .unknown _ _ => false
  | _ => true

/-- What stands before the last word of the text of a cause. -/
def kindText (known asynchronous : Bool) : String :=
  (if known then "" else "unknown ") ++ (if asynchronous then "interrupt" else "exception")

def lastWord : Cause → String
  | .interrupt source => source.name
  | .exception kind => kind.name
  | .unknown _ code => decimal code

theorem text_eq (c : Cause) : c.text = kindText c.isKnown c.isInterrupt ++ " " ++ c.lastWord := by
  cases c with
  | interrupt source => rfl
  | exception kind => rfl
  | unknown asynchronous code => cases asynchronous <;> rfl

theorem kindText_injective : ∀ {known asynchronous known' asynchronous' : Bool},
    kindText known asynchronous = kindText known' asynchronous' → known = known' ∧ asynchronous = asynchronous' := by
  decide

theorem space_notMem_lastWord (c : Cause) : ' ' ∉ c.lastWord.toList := by
  cases c with
  | interrupt source => cases source <;> decide
  | exception kind => cases kind <;> decide
  | unknown asynchronous code => exact space_notMem_decimal code

/-- No two causes have the same text. -/
theorem text_injective {c d : Cause} (same : c.text = d.text) : c = d := by
  rw [text_eq, text_eq] at same
  obtain ⟨kinds, words⟩ := last_word_inj (space_notMem_lastWord c) (space_notMem_lastWord d) same
  obtain ⟨known, alike⟩ := kindText_injective kinds
  cases c with
  | interrupt source =>
    cases d with
    | interrupt other => rw [Interrupt.name_injective words]
    | exception kind => cases alike
    | unknown asynchronous code => cases known
  | exception kind =>
    cases d with
    | interrupt source => cases alike
    | exception other => rw [Exception.name_injective words]
    | unknown asynchronous code => cases known
  | unknown asynchronous code =>
    cases d with
    | interrupt source => cases known
    | exception kind => cases known
    | unknown other number =>
      have same : asynchronous = other := alike
      rw [same, decimal_injective words]

end Cause
end Trap

/-- The report of a trap, taken apart at the spaces before its value and before its address. -/
theorem trapReport_eq (cause epc value : Word) : Machine.Image.trapReport cause epc value =
    "unhandled " ++ (Trap.Cause.ofBits cause).text ++ " at" ++ " " ++ hex epc ++ ", mtval" ++ " " ++ hex value := by
  simp only [Machine.Image.trapReport, String.append_assoc]
  rfl

/-- Two traps have the same report only if they are the same in cause, address and value. -/
theorem trap_told_apart (cause epc value cause' epc' value' : Word) :
    Machine.Image.trapReport cause epc value = Machine.Image.trapReport cause' epc' value' ↔
      cause = cause' ∧ epc = epc' ∧ value = value' := by
  constructor
  · intro same
    rw [trapReport_eq, trapReport_eq] at same
    obtain ⟨fronts, values⟩ := last_word_inj (space_notMem_hex value) (space_notMem_hex value') same
    have addressed := (String.append_left_inj _).mp fronts
    obtain ⟨causes, addresses⟩ := last_word_inj (space_notMem_hex epc) (space_notMem_hex epc') addressed
    have texts := (String.append_right_inj _).mp ((String.append_left_inj _).mp causes)
    have decoded := Trap.Cause.text_injective texts
    refine ⟨?_, hex_injective addresses, hex_injective values⟩
    rw [← Trap.Cause.bits_ofBits cause, decoded, Trap.Cause.bits_ofBits]
  · rintro ⟨rfl, rfl, rfl⟩
    rfl

end HartBoot
