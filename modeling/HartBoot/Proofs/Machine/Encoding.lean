import HartBoot.Machine.Board
import HartBoot.Proofs.Register.Status

/-!
The control register values of machine-level writes. A write whose named bits and alignment are in order reaches its
registers with exactly the bits it was given (`encode_fits`): no mask takes one away, and the fields of the trap vector
register come together to the vector's own bits.
-/
namespace HartBoot

theorem and_eq_of_bits {w : Nat} {x mask : BitVec w} (inside : ∀ i, x.getLsbD i = true → mask.getLsbD i = true) :
    x &&& mask = x := by
  apply BitVec.eq_of_getLsbD_eq
  intro i _
  rw [BitVec.getLsbD_and]
  cases present : x.getLsbD i with
  | false => rfl
  | true =>
    rw [inside i present]
    rfl

theorem FlagSet.named_of_unnamed {w : Nat} {v : Vocabulary w} {s : FlagSet v} (known : s.unnamed = 0) {i : Nat}
    (present : s.bits.getLsbD i = true) : v.known.getLsbD i = true := by
  have below : i < w := BitVec.lt_of_getLsbD present
  have none : s.unnamed.getLsbD i = false := by
    rw [known]
    exact BitVec.getLsbD_zero
  simpa [FlagSet.unnamed, below, present] using none

namespace Machine

/-- The control registers that a write reaches, in order, with its bits as they are. -/
def registerImage : RegisterWrite → List (Csr × Word)
  | .status value => [(.mstatus, value.bits)]
  | .epc entry => [(.mepc, entry)]
  | .trapVector vector => [(.mtvec, vector.bits)]
  | .interruptEnable mask => [(.mie, mask.bits)]
  | .pmp entry => [(.pmpaddr0, entry.address), (.pmpcfg0, entry.configBits)]

/-- Whether a write asks for no more than its registers take: bits that have names, and an aligned trap vector. -/
def Fits : RegisterWrite → Prop
  | .status value => value.flags.unnamed = 0
  | .trapVector vector => vector.IsAligned
  | .interruptEnable mask => mask.unnamed = 0
  | _ => True

theorem status_masked {s : Status} (known : s.flags.unnamed = 0) : s.bits &&& statusMask = s.bits := by
  refine and_eq_of_bits fun i present => ?_
  have below : i < 64 := BitVec.lt_of_getLsbD present
  rw [Status.bits, getLsbD_putField _ _ _ below] at present
  by_cases level : Status.modeStart ≤ i ∧ i < Status.modeStart + Status.modeWidth
  · simp only [Status.modeStart, Status.modeWidth] at level
    obtain rfl | rfl : i = 11 ∨ i = 12 := by omega
    · rfl
    · rfl
  · rw [if_neg level] at present
    have named := FlagSet.named_of_unnamed known present
    rw [Status.getLsbD_known below, decide_eq_true_eq] at named
    rcases named with rfl | rfl | rfl | rfl <;> rfl

theorem interrupts_masked {mask : InterruptMask} (known : mask.unnamed = 0) : mask.bits &&& interruptMask = mask.bits := by
  have all : interruptMask = interruptVocabulary.known := by decide
  rw [all]
  exact and_eq_of_bits fun i => FlagSet.named_of_unnamed known

/-- The low bits of an aligned address are clear. -/
theorem low_bits_clear {address : Word} (aligned : Aligned Platform.trapVectorAlign address) {i : Nat} (low : i < 2) :
    address.getLsbD i = false := by
  have multiple : address.toNat % 4 = 0 := aligned
  rw [BitVec.getLsbD, Nat.testBit_eq_decide_div_mod_eq, decide_eq_false_iff_not]
  obtain rfl | rfl : i = 0 ∨ i = 1 := by omega
  · omega
  · omega

/-- The mode of a trap vector takes the low bits and no others. -/
theorem mode_bits_high (mode : TrapMode) {i : Nat} (high : 2 ≤ i) : mode.bits.getLsbD i = false := by
  cases mode with
  | direct => exact BitVec.getLsbD_zero
  | vectored =>
    have one : (1 : Word).getLsbD i = (decide (0 < 64) && decide (i = 0)) := BitVec.getLsbD_one
    rw [TrapMode.bits, one, decide_eq_false (show ¬ i = 0 by omega), Bool.and_false]

theorem encodeTrapVector_aligned {v : TrapVector} (aligned : v.IsAligned) : encodeTrapVector v = v.bits := by
  apply BitVec.eq_of_getLsbD_eq
  intro i inside
  rw [encodeTrapVector, getLsbD_putField _ _ _ inside, getLsbD_putField _ _ _ inside, TrapVector.bits,
    BitVec.getLsbD_or]
  by_cases low : i < 2
  · rw [if_pos (by omega), low_bits_clear aligned low]
    simp [low]
  · rw [if_neg (by omega), if_pos (by omega), mode_bits_high v.mode (by omega), Bool.or_false,
      BitVec.getLsbD_extractLsb']
    have shifted : 2 + (i - 2) = i := by omega
    rw [shifted, decide_eq_true (show i - 2 < 62 by omega), Bool.true_and]

/-- The configuration of the first entry leaves the other seven off. -/
theorem configBits_others (e : PmpEntry) : e.configBits >>> 8 = 0 := by
  apply BitVec.eq_of_getLsbD_eq
  intro i _
  simp [PmpEntry.configBits]

theorem encode_fits {value : RegisterWrite} (fits : Fits value) : encode value = .ok (registerImage value) := by
  cases value with
  | status value =>
    rw [encode, status_masked fits]
    rfl
  | epc entry => rfl
  | trapVector vector =>
    have aligned : vector.IsAligned := fits
    rw [encode, if_pos aligned, encodeTrapVector_aligned aligned]
    rfl
  | interruptEnable mask =>
    rw [encode, interrupts_masked fits]
    rfl
  | pmp entry => rfl

end Machine
end HartBoot
