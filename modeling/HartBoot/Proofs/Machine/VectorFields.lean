import HartBoot.Proofs.Machine.Entry

/-!
The two encodings of a trap vector. `TrapVector.bits` puts the mode into the low bits of the address as they are; a
register type with fields is filled from zero, the address first, and refuses an address with low bits (`VectorFields`).
A word is its two low bits and the other 62 (`word_ext`), so the two ways come to the same word wherever the fields take
the address, and that is wherever the vector is aligned (`vector_encodings_agree`).
-/
namespace HartBoot

/-- The number of a mode in the two low bits of the trap vector register. -/
def TrapMode.number : TrapMode → BitVec 2
  | .direct => 0b00
  | .vectored => 0b01

/-- A word is its two low bits and the rest. -/
theorem word_ext {x y : Word} (low : x.extractLsb' 0 2 = y.extractLsb' 0 2)
    (high : x.extractLsb' 2 62 = y.extractLsb' 2 62) : x = y := by
  apply BitVec.eq_of_getLsbD_eq
  intro i inside
  by_cases below : i < 2
  · simpa [below] using congrArg (·.getLsbD i) low
  · have place : 2 + (i - 2) = i := by omega
    have within : i - 2 < 62 := by omega
    simpa [place, within] using congrArg (·.getLsbD (i - 2)) high

section
variable (x : Word)

theorem low_clear : (x &&& ~~~0b11).extractLsb' 0 2 = 0#2 := by
  have mask : (~~~0b11 : Word).extractLsb' 0 2 = 0#2 := by decide
  rw [BitVec.extractLsb'_and, mask, BitVec.and_zero]

theorem high_clear : (x &&& ~~~0b11).extractLsb' 2 62 = x.extractLsb' 2 62 := by
  have mask : (~~~0b11 : Word).extractLsb' 2 62 = BitVec.allOnes 62 := by decide
  rw [BitVec.extractLsb'_and, mask, BitVec.and_allOnes]

theorem low_mask : (x &&& 0b11).extractLsb' 0 2 = x.extractLsb' 0 2 := by
  have mask : (0b11 : Word).extractLsb' 0 2 = BitVec.allOnes 2 := by decide
  rw [BitVec.extractLsb'_and, mask, BitVec.and_allOnes]

theorem high_mask : (x &&& 0b11).extractLsb' 2 62 = 0#62 := by
  have mask : (0b11 : Word).extractLsb' 2 62 = 0#62 := by decide
  rw [BitVec.extractLsb'_and, mask, BitVec.and_zero]

end

theorem aligned_iff_low (address : Word) :
    Aligned Platform.trapVectorAlign address ↔ address.extractLsb' 0 2 = 0#2 := by
  rw [← BitVec.toNat_inj]
  simp [Platform.trapVectorAlign]

namespace TrapVector

theorem bits_high (v : TrapVector) : v.bits.extractLsb' 2 62 = v.address.extractLsb' 2 62 := by
  apply BitVec.eq_of_getLsbD_eq
  intro i _
  simp [bits, Machine.mode_bits_high v.mode (show 2 ≤ 2 + i by omega)]

section
variable {v : TrapVector} (aligned : v.IsAligned)
include aligned

theorem bits_low : v.bits.extractLsb' 0 2 = v.mode.number := by
  have clear := (aligned_iff_low v.address).mp aligned
  rw [bits, BitVec.extractLsb'_or, clear]
  cases v.mode <;> rfl

/-- The address is what is left of the bits without the mode. -/
theorem bits_address : v.bits &&& ~~~0b11 = v.address := by
  apply word_ext
  · rw [low_clear, (aligned_iff_low v.address).mp aligned]
  · rw [high_clear, bits_high]

/-- Distinct aligned vectors have distinct bits. -/
theorem bits_injective {w : TrapVector} (other : w.IsAligned) (same : v.bits = w.bits) : v = w := by
  have addresses : v.address = w.address := by rw [← bits_address aligned, same, bits_address other]
  have numbers : v.mode.number = w.mode.number := by rw [← bits_low aligned, same, bits_low other]
  have modes : v.mode = w.mode := by
    revert numbers
    cases v.mode <;> cases w.mode <;> decide
  rw [show v = ⟨v.address, v.mode⟩ from rfl, addresses, modes]

end
end TrapVector

namespace Machine

/-- The fields of the trap vector register. Each function gives a register value with one field filled; the first refuses
    some addresses. -/
structure VectorFields where
  setAddress : Word → Word → Option Word
  setMode : Word → TrapMode → Word

/-- What fields do that take aligned addresses only: the mode has the two low bits and the address the others. -/
structure VectorFields.Documented (f : VectorFields) : Prop where
  refused : ∀ register address, f.setAddress register address = none ↔ address.extractLsb' 0 2 ≠ 0#2
  address : ∀ register address filled, f.setAddress register address = some filled →
    filled.extractLsb' 2 62 = address.extractLsb' 2 62 ∧ filled.extractLsb' 0 2 = register.extractLsb' 0 2
  mode : ∀ register mode, (f.setMode register mode).extractLsb' 0 2 = mode.number ∧
    (f.setMode register mode).extractLsb' 2 62 = register.extractLsb' 2 62

/-- Fills a register value from zero, the address first, and writes it. -/
def VectorFields.install (f : VectorFields) (v : TrapVector) : BoardM Unit :=
  match f.setAddress 0 v.address with
  | none => throw (.fault (.misalignedTrapVector v.address))
  | some register => writeCsr .mtvec (f.setMode register v.mode)

section
variable {f : VectorFields} (documented : f.Documented) {v : TrapVector}
include documented

/-- An aligned address is taken, and with the mode it fills the register to the bits of the vector. -/
theorem fields_aligned (aligned : v.IsAligned) :
    ∃ register, f.setAddress 0 v.address = some register ∧ f.setMode register v.mode = v.bits := by
  have clear := (aligned_iff_low v.address).mp aligned
  cases taken : f.setAddress 0 v.address with
  | none => exact absurd clear ((documented.refused 0 v.address).mp taken)
  | some register =>
    obtain ⟨high, _⟩ := documented.address 0 v.address register taken
    obtain ⟨low, kept⟩ := documented.mode register v.mode
    refine ⟨register, rfl, word_ext ?_ ?_⟩
    · rw [low, TrapVector.bits_low aligned]
    · rw [kept, high, TrapVector.bits_high]

theorem install_aligned (aligned : v.IsAligned) (b : Board) :
    f.install v b = .ok () ((b.setCsr .mtvec v.bits).trace (.csr .mtvec v.bits)) := by
  obtain ⟨register, taken, filled⟩ := fields_aligned documented aligned
  unfold VectorFields.install
  rw [taken]
  simp only [filled]
  rfl

theorem install_misaligned (misaligned : ¬ v.IsAligned) (b : Board) :
    f.install v b = .error (.fault (.misalignedTrapVector v.address)) b := by
  have refused := (documented.refused 0 v.address).mpr fun clear => misaligned ((aligned_iff_low v.address).mpr clear)
  unfold VectorFields.install
  rw [refused]
  rfl

end

theorem write_misaligned {v : TrapVector} (misaligned : ¬ v.IsAligned) (b : Board) :
    writeRegister (.trapVector v) b = .error (.fault (.misalignedTrapVector v.address)) b := by
  have fails : encode (.trapVector v) = .error (.misalignedTrapVector v.address) := if_neg misaligned
  unfold writeRegister
  rw [fails]
  rfl

/-- A trap vector is installed field by field as the board writes it, whatever fields with the documented behaviour
    there are. An aligned vector is one write of its bits: the mode in the two low bits, and its address without them, so
    no other aligned vector has the same. Any other vector is refused and nothing is written. -/
theorem vector_encodings_agree {f : VectorFields} (documented : f.Documented) (v : TrapVector) (b : Board) :
    f.install v b = writeRegister (.trapVector v) b ∧
    if v.IsAligned then
      f.install v b = .ok () ((b.setCsr .mtvec v.bits).trace (.csr .mtvec v.bits)) ∧
      v.bits.extractLsb' 0 2 = v.mode.number ∧ v.bits &&& ~~~0b11 = v.address ∧
      ∀ w : TrapVector, w.IsAligned → v.bits = w.bits → v = w
    else f.install v b = .error (.fault (.misalignedTrapVector v.address)) b := by
  by_cases aligned : v.IsAligned
  · have installed := install_aligned documented aligned b
    have fits : Fits (.trapVector v) := aligned
    have written := write_fits fits b
    rw [if_pos aligned]
    refine ⟨installed.trans written.symm, installed, TrapVector.bits_low aligned, TrapVector.bits_address aligned, ?_⟩
    intro w other same
    exact TrapVector.bits_injective aligned other same
  · have refused := install_misaligned documented aligned b
    rw [if_neg aligned]
    exact ⟨refused.trans (write_misaligned aligned b).symm, refused⟩

/-- Fields that mask the two low bits. -/
def maskedFields : VectorFields where
  setAddress register address := if address &&& 0b11 ≠ 0 then none else some (address ||| (register &&& 0b11))
  setMode register mode := (register &&& ~~~0b11) ||| mode.number.setWidth 64

theorem maskedFields_documented : maskedFields.Documented where
  refused register address := by
    have refuses : maskedFields.setAddress register address = none ↔ address &&& 0b11 ≠ 0 := by simp [maskedFields]
    have low_bits : address &&& 0b11 = 0 ↔ address.extractLsb' 0 2 = 0#2 := by
      constructor
      · intro none
        rw [← low_mask, none]
        rfl
      · intro clear
        exact word_ext ((low_mask address).trans clear) (high_mask address)
    rw [refuses]
    exact not_congr low_bits
  address register address filled taken := by
    obtain ⟨clear, rfl⟩ : address &&& 0b11 = 0 ∧ address ||| (register &&& 0b11) = filled := by
      simpa [maskedFields] using taken
    constructor
    · rw [BitVec.extractLsb'_or, high_mask, BitVec.or_zero]
    · rw [BitVec.extractLsb'_or, low_mask, ← low_mask address, clear]
      exact BitVec.zero_or
  mode register mode := by
    constructor
    · change ((register &&& ~~~0b11) ||| _).extractLsb' 0 2 = _
      rw [BitVec.extractLsb'_or, low_clear]
      cases mode <;> rfl
    · change ((register &&& ~~~0b11) ||| _).extractLsb' 2 62 = _
      rw [BitVec.extractLsb'_or, high_clear]
      cases mode <;> exact BitVec.or_zero

/-- A table of handlers, and an address that is aligned to two bytes only. -/
theorem vector_encodings_agree_masked :
    let b := Board.atReset Platform.bootHart 4 ⟨none, none⟩
    maskedFields.Documented ∧
      maskedFields.install ⟨0x80000300, .vectored⟩ b = writeRegister (.trapVector ⟨0x80000300, .vectored⟩) b ∧
      maskedFields.install ⟨0x80000300, .vectored⟩ b =
        .ok () ((b.setCsr .mtvec 0x80000301).trace (.csr .mtvec 0x80000301)) ∧
      (TrapVector.direct 0x80000300).bits ≠ 0x80000301 ∧
      maskedFields.install (.direct 0x80000302) b = .error (.fault (.misalignedTrapVector 0x80000302)) b := by
  intro b
  have aligned : (TrapVector.mk 0x80000300 .vectored).IsAligned := by decide
  have misaligned : ¬ (TrapVector.direct 0x80000302).IsAligned := by decide
  have table := vector_encodings_agree maskedFields_documented ⟨0x80000300, .vectored⟩ b
  have refused := (vector_encodings_agree maskedFields_documented (.direct 0x80000302) b).2
  rw [if_pos aligned] at table
  rw [if_neg misaligned] at refused
  obtain ⟨same, installed, _, _, distinct⟩ := table
  refine ⟨maskedFields_documented, same, installed, ?_, refused⟩
  intro equal
  exact absurd (distinct (.direct 0x80000300) (by decide) equal.symm) (by decide)

end Machine
end HartBoot
