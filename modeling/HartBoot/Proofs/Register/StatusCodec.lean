import HartBoot.Proofs.Register.Codes
import HartBoot.Proofs.Register.Status
import HartBoot.Proofs.Sim.Depth

/-!
The status register as a codec. Of a register value a status represents the four named enables, bits 1, 3, 5 and 7, and
the level, bits 11 and 12. Decoding reads back what was encoded, encoding gives back the represented bits of what was
decoded, and the values that do not decode are those with the reserved level (`status_roundTrips`).
-/
namespace HartBoot
namespace Status

theorem known_eq : statusVocabulary.known = 0xaa := by decide

theorem getLsbD_represented {i : Nat} (inside : i < 64) : (0x18aa : Word).getLsbD i =
    decide ((modeStart ≤ i ∧ i < modeStart + modeWidth) ∨ i = 1 ∨ i = 3 ∨ i = 5 ∨ i = 7) := by
  revert i
  decide

/-- The level is written over two bits of the enables, and the others stay. -/
theorem getLsbD_bits (s : Status) {i : Nat} (low : i ≠ 11) (high : i ≠ 12) :
    s.bits.getLsbD i = s.flags.bits.getLsbD i := by
  by_cases inside : i < 64
  · have outside : ¬ (modeStart ≤ i ∧ i < modeStart + modeWidth) := by
      simp only [modeStart, modeWidth]
      omega
    rw [bits, getLsbD_putField _ _ _ inside, if_neg outside]
  · rw [BitVec.getLsbD_of_ge _ _ (by omega), BitVec.getLsbD_of_ge _ _ (by omega)]

/-- Of the numbers that the level can be only the reserved one is no level. -/
theorem reserved_iff (level : BitVec 2) : (∀ mode : PrivilegeMode, mode.code ≠ level.toNat) ↔ level = 0b10#2 := by
  constructor
  · intro absent
    have user := absent .user
    have supervisor := absent .supervisor
    have machine := absent .machine
    simp only [PrivilegeMode.code] at user supervisor machine
    apply BitVec.eq_of_toNat_eq
    have small := level.isLt
    change level.toNat = 2
    omega
  · rintro rfl mode
    cases mode <;> decide

theorem ofBits?_eq_none_iff (register : Word) : ofBits? register = none ↔ register.extractLsb' 11 2 = 0b10#2 := by
  rw [ofBits?, Option.map_eq_none_iff, ← reserved_iff]
  exact PrivilegeMode.isTable.find?_eq_none_iff

/-- Encoding gives back the bits that a status stands for. -/
theorem bits_of_ofBits? {register : Word} {s : Status} (decoded : ofBits? register = some s) :
    s.bits = register &&& 0x18aa := by
  obtain ⟨mode, found, rfl⟩ := Option.map_eq_some_iff.mp decoded
  have level : mode.code = (field modeStart modeWidth register).toNat :=
    PrivilegeMode.isTable.find?_eq_some_iff.mp found
  apply BitVec.eq_of_getLsbD_eq
  intro i inside
  rw [bits, level, BitVec.ofNat_toNat, BitVec.setWidth_eq, getLsbD_putField _ _ _ inside, BitVec.getLsbD_and,
    getLsbD_represented inside]
  by_cases within : modeStart ≤ i ∧ i < modeStart + modeWidth
  · have place : modeStart + (i - modeStart) = i := by omega
    have small : i - modeStart < modeWidth := by omega
    rw [if_pos within, BitVec.getLsbD_extractLsb', place]
    simp [within, small]
  · rw [if_neg within, FlagSet.truncate, BitVec.getLsbD_and, getLsbD_known inside]
    simp [within]

end Status

namespace Sim

/-- A status that is written in machine mode is held as its register value. -/
theorem step_status (s : Status) {h : Hart} (machine : h.registers.mode = .machine) :
    h.step (.write (.status s)) = .ok .done (h.written (.status s)) := by
  rw [Hart.step, opsAt_eq, perform]
  exact bind_of_ok (write_machine h _ machine)

/-- Decoding what a status is encoded to gives its level and its named enables, and encoding changes no bit but those of
    the level. A register value decodes unless its level is the reserved one, and encoding gives back its represented
    bits. A status that is written is read back with its named enables. -/
theorem status_roundTrips (s : Status) (register : Word) :
    Status.ofBits? s.bits = some ⟨s.previous, ⟨s.flags.bits &&& 0xaa⟩⟩ ∧
    (∀ i, i ≠ 11 → i ≠ 12 → s.bits.getLsbD i = s.flags.bits.getLsbD i) ∧
    (Status.ofBits? register = none ↔ register.extractLsb' 11 2 = 0b10#2) ∧
    (∀ decoded, Status.ofBits? register = some decoded → decoded.bits = register &&& 0x18aa) ∧
    (s.flags.bits &&& 0xaa = s.flags.bits → Status.ofBits? s.bits = some s) ∧
    (∀ decoded, Status.ofBits? register = some decoded → register &&& 0x18aa = register → decoded.bits = register) ∧
    ∀ h : Hart, h.registers.mode = .machine → ∃ after,
      h.step (.write (.status s)) = .ok .done after ∧
      Status.ofBits? after.registers.status = some ⟨s.previous, ⟨s.flags.bits &&& 0xaa⟩⟩ := by
  have read : Status.ofBits? s.bits = some ⟨s.previous, ⟨s.flags.bits &&& 0xaa⟩⟩ := by
    rw [Status.ofBits?_bits, FlagSet.truncate, Status.known_eq]
  refine ⟨read, fun _ => s.getLsbD_bits, Status.ofBits?_eq_none_iff register, fun _ => Status.bits_of_ofBits?,
    ?_, ?_, ?_⟩
  · intro named
    rw [read, named]
  · intro decoded found represented
    rw [Status.bits_of_ofBits? found, represented]
  · intro h machine
    exact ⟨h.written (.status s), step_status s machine, read⟩

/-- A status with all bits set, named or not, a register value with all bits set, and a hart out of reset. -/
theorem status_roundTrips_allOnes :
    Status.ofBits? (Status.mk .supervisor ⟨BitVec.allOnes 64⟩).bits = some ⟨.supervisor, .all⟩ ∧
      (Status.mk .machine .all).bits = BitVec.allOnes 64 &&& 0x18aa ∧
      ∃ after, (Hart.new 0 [] 4).step (.write (.status ⟨.supervisor, ⟨BitVec.allOnes 64⟩⟩)) = .ok .done after ∧
        Status.ofBits? after.registers.status = some ⟨.supervisor, .all⟩ := by
  obtain ⟨read, _, _, encoded, _, _, written⟩ :=
    status_roundTrips ⟨.supervisor, ⟨BitVec.allOnes 64⟩⟩ (BitVec.allOnes 64)
  exact ⟨read, encoded ⟨.machine, .all⟩ (by decide), written (.new 0 [] 4) rfl⟩

end Sim
end HartBoot
