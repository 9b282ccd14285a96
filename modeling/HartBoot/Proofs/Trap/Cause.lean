import Mathlib.Logic.Function.Defs
import HartBoot.Proofs.Register.Codes

/-!
Trap causes lose nothing. The cause register is decoded to an interrupt or an exception exactly if its top bit and its
other bits say so, and to an unknown cause with those bits otherwise; encoding a decoded cause gives the register back
(`Cause.bits_ofBits`), so different registers are different causes (`decoding_lossless`).
-/
namespace HartBoot.Trap
namespace Cause

/-- The bits of the cause register below the top one. -/
def code : Cause → BitVec 63
  | .interrupt source => BitVec.ofNat 63 source.code
  | .exception kind => BitVec.ofNat 63 kind.code
  | .unknown _ code => code

/-- The cause register of a cause. -/
def bits (c : Cause) : Word := BitVec.cons c.isInterrupt c.code

/-- No interrupt, or no exception, has the code. -/
def Unassigned (asynchronous : Bool) (code : BitVec 63) : Prop :=
  match asynchronous with
  | true => ∀ source : Interrupt, source.code ≠ code.toNat
  | false => ∀ kind : Exception, kind.code ≠ code.toNat

section
variable {mcause : Word}

theorem ofBits_interrupt (asynchronous : mcause.msb = true) : ofBits mcause =
    ((Interrupt.ofCode? (mcause.setWidth 63).toNat).map interrupt).getD (unknown true (mcause.setWidth 63)) := by
  rw [ofBits, asynchronous]
  rfl

theorem ofBits_exception (synchronous : mcause.msb = false) : ofBits mcause =
    ((Exception.ofCode? (mcause.setWidth 63).toNat).map exception).getD (unknown false (mcause.setWidth 63)) := by
  rw [ofBits, synchronous]
  rfl

/-- What a cause register is decoded to. -/
theorem ofBits_cases (mcause : Word) :
    (∃ source : Interrupt, mcause.msb = true ∧ source.code = (mcause.setWidth 63).toNat ∧
      ofBits mcause = .interrupt source) ∨
    (∃ kind : Exception, mcause.msb = false ∧ kind.code = (mcause.setWidth 63).toNat ∧
      ofBits mcause = .exception kind) ∨
    Unassigned mcause.msb (mcause.setWidth 63) ∧ ofBits mcause = .unknown mcause.msb (mcause.setWidth 63) := by
  cases top : mcause.msb with
  | true =>
    rw [ofBits_interrupt top]
    cases found : Interrupt.ofCode? (mcause.setWidth 63).toNat with
    | some source => exact .inl ⟨source, rfl, Interrupt.isTable.find?_eq_some_iff.mp found, rfl⟩
    | none => exact .inr (.inr ⟨Interrupt.isTable.find?_eq_none_iff.mp found, rfl⟩)
  | false =>
    rw [ofBits_exception top]
    cases found : Exception.ofCode? (mcause.setWidth 63).toNat with
    | some kind => exact .inr (.inl ⟨kind, rfl, Exception.isTable.find?_eq_some_iff.mp found, rfl⟩)
    | none => exact .inr (.inr ⟨Exception.isTable.find?_eq_none_iff.mp found, rfl⟩)

theorem isInterrupt_ofBits (mcause : Word) : (ofBits mcause).isInterrupt = mcause.msb := by
  rcases ofBits_cases mcause with ⟨source, top, _, decoded⟩ | ⟨kind, top, _, decoded⟩ | ⟨_, decoded⟩
  · rw [decoded, top]
    rfl
  · rw [decoded, top]
    rfl
  · rw [decoded]
    rfl

theorem code_ofBits (mcause : Word) : (ofBits mcause).code = mcause.setWidth 63 := by
  rcases ofBits_cases mcause with ⟨source, _, same, decoded⟩ | ⟨kind, _, same, decoded⟩ | ⟨_, decoded⟩
  · rw [decoded, code, same, BitVec.ofNat_toNat, BitVec.setWidth_eq]
  · rw [decoded, code, same, BitVec.ofNat_toNat, BitVec.setWidth_eq]
  · rw [decoded, code]

/-- Encoding undoes decoding. -/
theorem bits_ofBits (mcause : Word) : (ofBits mcause).bits = mcause := by
  rw [bits, isInterrupt_ofBits, code_ofBits]
  exact BitVec.cons_msb_setWidth mcause

theorem ofBits_eq_interrupt_iff {source : Interrupt} :
    ofBits mcause = .interrupt source ↔ mcause.msb = true ∧ (mcause.setWidth 63).toNat = source.code := by
  constructor
  · intro decoded
    rcases ofBits_cases mcause with ⟨other, top, same, found⟩ | ⟨kind, _, _, found⟩ | ⟨_, found⟩
    · rw [found] at decoded
      cases decoded
      exact ⟨top, same.symm⟩
    · cases found.symm.trans decoded
    · cases found.symm.trans decoded
  · rintro ⟨top, same⟩
    have found : Interrupt.ofCode? (mcause.setWidth 63).toNat = some source :=
      Interrupt.isTable.find?_eq_some_iff.mpr same.symm
    rw [ofBits_interrupt top, found]
    rfl

theorem ofBits_eq_exception_iff {kind : Exception} :
    ofBits mcause = .exception kind ↔ mcause.msb = false ∧ (mcause.setWidth 63).toNat = kind.code := by
  constructor
  · intro decoded
    rcases ofBits_cases mcause with ⟨source, _, _, found⟩ | ⟨other, top, same, found⟩ | ⟨_, found⟩
    · cases found.symm.trans decoded
    · rw [found] at decoded
      cases decoded
      exact ⟨top, same.symm⟩
    · cases found.symm.trans decoded
  · rintro ⟨top, same⟩
    have found : Exception.ofCode? (mcause.setWidth 63).toNat = some kind :=
      Exception.isTable.find?_eq_some_iff.mpr same.symm
    rw [ofBits_exception top, found]
    rfl

theorem ofBits_eq_unknown_iff {asynchronous : Bool} {code : BitVec 63} :
    ofBits mcause = .unknown asynchronous code ↔
      asynchronous = mcause.msb ∧ code = mcause.setWidth 63 ∧ Unassigned asynchronous code := by
  constructor
  · intro decoded
    rcases ofBits_cases mcause with ⟨source, _, _, found⟩ | ⟨kind, _, _, found⟩ | ⟨unassigned, found⟩
    · cases found.symm.trans decoded
    · cases found.symm.trans decoded
    · rw [found] at decoded
      cases decoded
      exact ⟨rfl, rfl, unassigned⟩
  · rintro ⟨rfl, rfl, unassigned⟩
    rcases ofBits_cases mcause with ⟨source, top, same, _⟩ | ⟨kind, top, same, _⟩ | ⟨_, found⟩
    · rw [top] at unassigned
      exact absurd same (unassigned source)
    · rw [top] at unassigned
      exact absurd same (unassigned kind)
    · exact found

end

end Cause

/-- A cause register is an interrupt exactly if its top bit is set and the rest is the code of one, an exception exactly
    if it is not and the rest is the code of one, and else an unknown cause. Encoding gives it back, so no two registers
    are the same cause. -/
theorem decoding_lossless (mcause : Word) :
    (∀ source, Cause.ofBits mcause = .interrupt source ↔
      mcause.msb = true ∧ (mcause.setWidth 63).toNat = source.code) ∧
    (∀ kind, Cause.ofBits mcause = .exception kind ↔ mcause.msb = false ∧ (mcause.setWidth 63).toNat = kind.code) ∧
    (∀ asynchronous code, Cause.ofBits mcause = .unknown asynchronous code ↔
      asynchronous = mcause.msb ∧ code = mcause.setWidth 63 ∧ Cause.Unassigned asynchronous code) ∧
    (Cause.ofBits mcause).isInterrupt = mcause.msb ∧
    (Cause.ofBits mcause).bits = mcause ∧
    Function.Injective Cause.ofBits := by
  refine ⟨fun _ => Cause.ofBits_eq_interrupt_iff, fun _ => Cause.ofBits_eq_exception_iff,
    fun _ _ => Cause.ofBits_eq_unknown_iff, Cause.isInterrupt_ofBits mcause, Cause.bits_ofBits mcause, ?_⟩
  exact Function.LeftInverse.injective Cause.bits_ofBits

/-- The code of the machine's timer, without and with a bit that is one too high for it. -/
example :
    Cause.ofBits 0x8000000000000007 = .interrupt .machineTimer ∧
      Cause.ofBits 0xc000000000000007 = .unknown true 0x4000000000000007 := by
  decide +kernel

end HartBoot.Trap
