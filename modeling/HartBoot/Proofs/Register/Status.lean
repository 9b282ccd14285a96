import HartBoot.Register.Status

/-!
What the status register holds. A status is read back from its register value with its level and its named enables
(`ofBits?_bits`), and a return from machine mode changes the value bit by bit (`bits_afterReturn`).
-/
namespace HartBoot

theorem field_putField {w len : Nat} (start : Nat) (v : BitVec len) (x : BitVec w) (inside : start + len ≤ w) :
    field start len (putField start v x) = v := by
  apply BitVec.eq_of_getLsbD_eq
  intro i small
  rw [BitVec.getLsbD_extractLsb', getLsbD_putField start v x (by omega)]
  simp [small]

theorem FlagSet.contains_single {w : Nat} {v : Vocabulary w} (s : FlagSet v) {i : Nat} (inside : i < w) :
    s.contains (.single i) = s.bits.getLsbD i := by
  have set : (BitVec.twoPow w i).getLsbD i = true := by simp [inside]
  simp only [contains, single, bit, BitVec.and_twoPow]
  cases s.bits.getLsbD i with
  | true => simp
  | false =>
    have different : (0#w) ≠ BitVec.twoPow w i := by
      intro same
      rw [← same] at set
      simp at set
    simpa using different

namespace Status

theorem getLsbD_known {i : Nat} (inside : i < 64) :
    statusVocabulary.known.getLsbD i = decide (i = 1 ∨ i = 3 ∨ i = 5 ∨ i = 7) := by
  simp only [Vocabulary.known, statusVocabulary, List.foldl, bit, BitVec.getLsbD_or, BitVec.getLsbD_twoPow]
  simp [inside]
  grind

theorem ofCode?_code (mode : PrivilegeMode) :
    PrivilegeMode.ofCode? (BitVec.ofNat modeWidth mode.code).toNat = some mode := by
  cases mode <;> rfl

/-- The level overwrites two bits that have no name, so the named enables stay. -/
theorem truncate_bits (s : Status) : (FlagSet.truncate s.bits : StatusFlags) = .truncate s.flags.bits := by
  unfold FlagSet.truncate
  congr 1
  apply BitVec.eq_of_getLsbD_eq
  intro i inside
  rw [BitVec.getLsbD_and, BitVec.getLsbD_and, getLsbD_known inside, bits, getLsbD_putField _ _ _ inside]
  by_cases named : i = 1 ∨ i = 3 ∨ i = 5 ∨ i = 7
  · have outside : ¬ (modeStart ≤ i ∧ i < modeStart + modeWidth) := by simp only [modeStart]; omega
    rw [if_neg outside]
  · simp [named]

/-- The register value has the named enables of the status. -/
theorem contains_bits (s : Status) {i : Nat} (named : i = 1 ∨ i = 3 ∨ i = 5 ∨ i = 7) :
    (FlagSet.mk s.bits : StatusFlags).contains (.single i) = s.flags.contains (.single i) := by
  have inside : i < 64 := by omega
  have outside : ¬ (modeStart ≤ i ∧ i < modeStart + modeWidth) := by simp only [modeStart]; omega
  rw [FlagSet.contains_single _ inside, FlagSet.contains_single _ inside, bits, getLsbD_putField _ _ _ inside,
    if_neg outside]

/-- Whatever bits a status was written with, its level and its named enables are read back. -/
theorem ofBits?_bits (s : Status) : ofBits? s.bits = some ⟨s.previous, .truncate s.flags.bits⟩ := by
  have level : field modeStart modeWidth s.bits = BitVec.ofNat modeWidth s.previous.code :=
    field_putField _ _ _ (by decide)
  rw [ofBits?, level, ofCode?_code, truncate_bits]
  rfl

theorem flags_of_ofBits? {w : Word} {s : Status} (decoded : ofBits? w = some s) : s.flags = .truncate w := by
  obtain ⟨mode, _, rfl⟩ := Option.map_eq_some_iff.mp decoded
  rfl

/-- A register value after a return from machine mode: the saved enable becomes the current one and is set, the
    enables of supervisor mode stay, and the level to return to is user mode. -/
def returnedBits (w : Word) : Word := (w &&& (bit 1 ||| bit 5)) ||| (if w.getLsbD 7 then bit 3 else 0) ||| bit 7

theorem getLsbD_afterReturn (s : Status) {i : Nat} (inside : i < 64) :
    s.afterReturn.flags.bits.getLsbD i =
      (i = 7 || if i = 3 then s.flags.bits.getLsbD 7 else s.flags.bits.getLsbD i) := by
  have saved := FlagSet.contains_single s.flags (show 7 < 64 by decide)
  simp only [afterReturn, FlagSet.union, FlagSet.set, StatusFlags.mpie, StatusFlags.mie, saved]
  cases s.flags.bits.getLsbD 7 <;> simp [FlagSet.diff, FlagSet.single, inside] <;> grind

theorem bits_afterReturn {w : Word} {s : Status} (decoded : ofBits? w = some s) :
    s.afterReturn.bits = returnedBits w := by
  have flags := flags_of_ofBits? decoded
  have user : BitVec.ofNat modeWidth s.afterReturn.previous.code = 0 := rfl
  apply BitVec.eq_of_getLsbD_eq
  intro i inside
  rw [bits, getLsbD_putField _ _ _ inside, getLsbD_afterReturn s inside, user, flags]
  simp only [FlagSet.truncate, BitVec.getLsbD_and, getLsbD_known inside, getLsbD_known (show 7 < 64 by decide),
    returnedBits]
  cases w.getLsbD 7 <;> simp [modeStart, modeWidth, inside] <;> grind

end Status
end HartBoot
