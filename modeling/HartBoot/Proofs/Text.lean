import HartBoot.Word

/-!
Words and numbers in texts. A number is read off its digits, in hexadecimal (`hex_injective`) and in decimal
(`decimal_injective`), and there is no space among them, so a text can be taken apart at its last space
(`last_word_inj`). A text is taken apart at any character that is not in front of it, or not behind it
(`append_cons_inj_first`, `append_cons_inj_last`).
-/
namespace HartBoot

/-! ### Numbers -/

theorem digitChar_injective {d e : Nat} (small : d < 16) (below : e < 16) (same : d.digitChar = e.digitChar) :
    d = e := by
  have all : ∀ d : Fin 16, ∀ e : Fin 16, d.val.digitChar = e.val.digitChar → d = e := by decide
  exact congrArg Fin.val (all ⟨d, small⟩ ⟨e, below⟩ same)

/-- A number is read off its digits, the last first. -/
theorem toDigits_injective {n m : Nat} (same : Nat.toDigits 16 n = Nat.toDigits 16 m) : n = m := by
  induction n using Nat.strongRecOn generalizing m with
  | ind n ih =>
    rw [Nat.toDigits_eq_if (by decide), Nat.toDigits_eq_if (n := m) (by decide)] at same
    by_cases small : n < 16
    · by_cases below : m < 16
      · rw [if_pos small, if_pos below] at same
        exact digitChar_injective small below (List.singleton_inj.mp same)
      · rw [if_pos small, if_neg below] at same
        exact absurd (List.append_eq_singleton_iff.mp same.symm) (by simp)
    · by_cases below : m < 16
      · rw [if_neg small, if_pos below] at same
        exact absurd (List.append_eq_singleton_iff.mp same) (by simp)
      · rw [if_neg small, if_neg below] at same
        obtain ⟨front, last⟩ := List.append_inj' same rfl
        have quotients : n / 16 = m / 16 := ih (n / 16) (by omega) front
        have remainders : n % 16 = m % 16 :=
          digitChar_injective (Nat.mod_lt n (by decide)) (Nat.mod_lt m (by decide)) (List.singleton_inj.mp last)
        omega

/-- A number in decimal has no other characters than digits. -/
theorem notMem_toString {c : Char} (other : c.isDigit = false) (n : Nat) : c ∉ (toString n).toList := by
  intro member
  rw [Nat.toString_eq_ofList_toDigits, String.toList_ofList] at member
  have digit := Nat.isDigit_of_mem_toDigits (by decide) (by decide) member
  rw [other] at digit
  cases digit

theorem toString_injective {n m : Nat} (same : toString n = toString m) : n = m := by
  have digits := congrArg String.toList same
  rw [Nat.toString_eq_ofList_toDigits, Nat.toString_eq_ofList_toDigits, String.toList_ofList, String.toList_ofList]
    at digits
  calc n
    _ = Nat.ofDigitChars 10 (Nat.toDigits 10 n) 0 := Nat.ofDigitChars_ten_toDigits.symm
    _ = Nat.ofDigitChars 10 (Nat.toDigits 10 m) 0 := by rw [digits]
    _ = m := Nat.ofDigitChars_ten_toDigits

theorem space_notMem_toDigits {base : Nat} (large : 1 < base) (n : Nat) : ' ' ∉ Nat.toDigits base n := by
  have digit : ∀ d : Nat, ' ' ≠ d.digitChar := fun d => (Nat.digitChar_ne ' ' (by decide)).symm
  induction n using Nat.strongRecOn with
  | ind n ih =>
    rw [Nat.toDigits_eq_if large]
    by_cases small : n < base
    · rw [if_pos small, List.mem_singleton]
      exact digit n
    · have shorter : n / base < n := Nat.div_lt_self (by omega) large
      rw [if_neg small, List.mem_append, List.mem_singleton]
      rintro (front | last)
      · exact ih (n / base) shorter front
      · exact digit (n % base) last

section
variable {w : Nat}

theorem toList_hex (x : BitVec w) : (hex x).toList = '0' :: 'x' :: Nat.toDigits 16 x.toNat := by
  simp [hex, hexDigits]

theorem hex_injective {x y : BitVec w} (same : hex x = hex y) : x = y := by
  have digits := congrArg String.toList same
  rw [toList_hex, toList_hex] at digits
  exact BitVec.eq_of_toNat_eq (toDigits_injective (List.cons.inj (List.cons.inj digits).2).2)

theorem space_notMem_hex (x : BitVec w) : ' ' ∉ (hex x).toList := by
  rw [toList_hex]
  simpa using space_notMem_toDigits (by decide) x.toNat

theorem decimal_injective {x y : BitVec w} (same : decimal x = decimal y) : x = y :=
  BitVec.eq_of_toNat_eq (toString_injective same)

theorem space_notMem_decimal (x : BitVec w) : ' ' ∉ (decimal x).toList := notMem_toString (by decide) x.toNat

/-- A hexadecimal number begins with a zero. -/
theorem hex_ne {x : BitVec w} {text : String} (begins : text.toList.head? ≠ some '0') : hex x ≠ text := by
  rintro rfl
  rw [toList_hex] at begins
  exact begins rfl

end

/-! ### The last word of a text -/

theorem append_cons_inj_last {α : Type} {a : α} {front front' last last' : List α} (free : a ∉ last) (free' : a ∉ last')
    (same : front ++ a :: last = front' ++ a :: last') : front = front' ∧ last = last' := by
  rcases List.append_eq_append_iff.mp same with ⟨between, rfl, tail⟩ | ⟨between, rfl, tail⟩
  · cases between with
    | nil => exact ⟨(List.append_nil front).symm, (List.cons.inj tail).2⟩
    | cons c between =>
      rw [(List.cons.inj tail).2] at free
      exact absurd (List.mem_append_right between List.mem_cons_self) free
  · cases between with
    | nil => exact ⟨List.append_nil front', (List.cons.inj tail).2.symm⟩
    | cons c between =>
      rw [(List.cons.inj tail).2] at free'
      exact absurd (List.mem_append_right between List.mem_cons_self) free'

theorem append_cons_inj_first {α : Type} {a : α} {front front' last last' : List α} (free : a ∉ front)
    (free' : a ∉ front') (same : front ++ a :: last = front' ++ a :: last') : front = front' ∧ last = last' := by
  have mirrored := congrArg List.reverse same
  simp only [List.reverse_append, List.reverse_cons, List.append_assoc, List.singleton_append] at mirrored
  obtain ⟨lasts, fronts⟩ := append_cons_inj_last (mt List.mem_reverse.mp free) (mt List.mem_reverse.mp free') mirrored
  exact ⟨List.reverse_inj.mp fronts, List.reverse_inj.mp lasts⟩

/-- A text with at least two words is read off what stands before its last space and what stands behind. -/
theorem last_word_inj {front front' last last' : String} (free : ' ' ∉ last.toList) (free' : ' ' ∉ last'.toList)
    (same : front ++ " " ++ last = front' ++ " " ++ last') : front = front' ∧ last = last' := by
  have lists := congrArg String.toList same
  simp only [String.toList_append, List.append_assoc] at lists
  obtain ⟨fronts, lasts⟩ := append_cons_inj_last free free' lists
  exact ⟨String.toList_inj.mp fronts, String.toList_inj.mp lasts⟩

end HartBoot
