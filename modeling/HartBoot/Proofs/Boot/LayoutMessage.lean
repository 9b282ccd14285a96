import HartBoot.Layout
import HartBoot.Proofs.Text

/-!
The messages of layout errors tell the errors apart. The last word of a message says which kind of error it is, and the
words before it give the addresses (`message_injective`).
-/
namespace HartBoot
namespace LayoutError

/-- What stands before the last word of the message of an error. -/
def front : LayoutError → String
  | .misaligned what addr => what ++ " " ++ hex addr ++ " " ++ "is"
  | .inverted _ stop => "bss end " ++ hex stop ++ " is below start"
  | .stackInsideBss stackEnd => "stack end " ++ hex stackEnd ++ " lies inside"

def lastWord : LayoutError → String
  | .misaligned _ _ => "misaligned"
  | .inverted start _ => hex start
  | .stackInsideBss _ => "bss"

theorem message_eq (e : LayoutError) : e.message = e.front ++ " " ++ e.lastWord := by
  cases e <;> simp only [message, front, lastWord, String.append_assoc] <;> rfl

theorem space_notMem_lastWord (e : LayoutError) : ' ' ∉ e.lastWord.toList := by
  cases e with
  | misaligned what addr =>
    have free : ' ' ∉ "misaligned".toList := by decide
    exact free
  | inverted start stop => exact space_notMem_hex start
  | stackInsideBss stackEnd =>
    have free : ' ' ∉ "bss".toList := by decide
    exact free

/-- No two errors have the same message. -/
theorem message_injective {e f : LayoutError} (same : e.message = f.message) : e = f := by
  rw [message_eq, message_eq] at same
  obtain ⟨fronts, lasts⟩ := last_word_inj (space_notMem_lastWord e) (space_notMem_lastWord f) same
  have number_word : ∀ x : Word, hex x ≠ "misaligned" := fun x => hex_ne (by decide)
  have number_region : ∀ x : Word, hex x ≠ "bss" := fun x => hex_ne (by decide)
  have word_region : "misaligned" ≠ "bss" := by decide
  cases e with
  | misaligned what addr =>
    cases f with
    | misaligned what' addr' =>
      obtain ⟨rest, _⟩ := last_word_inj (by decide) (by decide) fronts
      obtain ⟨rfl, numbers⟩ := last_word_inj (space_notMem_hex addr) (space_notMem_hex addr') rest
      rw [hex_injective numbers]
    | inverted start stop => exact absurd lasts.symm (number_word start)
    | stackInsideBss stackEnd => exact absurd lasts word_region
  | inverted start stop =>
    cases f with
    | misaligned what addr => exact absurd lasts (number_word start)
    | inverted start' stop' =>
      obtain rfl := hex_injective lasts
      rw [hex_injective ((String.append_right_inj _).mp ((String.append_left_inj _).mp fronts))]
    | stackInsideBss stackEnd => exact absurd lasts (number_region start)
  | stackInsideBss stackEnd =>
    cases f with
    | misaligned what addr => exact absurd lasts.symm word_region
    | inverted start stop => exact absurd lasts.symm (number_region start)
    | stackInsideBss stackEnd' =>
      rw [hex_injective ((String.append_right_inj _).mp ((String.append_left_inj _).mp fronts))]

end LayoutError
end HartBoot
