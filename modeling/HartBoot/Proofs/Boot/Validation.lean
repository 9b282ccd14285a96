import HartBoot.Proofs.Machine.Entry
import HartBoot.Proofs.Sim.Clearing
import HartBoot.Proofs.Sim.ResetTrace

/-!
What it is worth to validate a layout. A boot on a validated layout never faults of its own accord: if its routines
do not, and early initialisation comes back in machine mode or not at all, it ends with the hart halted
(`reset_halts`), and the trap vector fits its register on the board. That the stack does not end in the cleared memory
is checked exactly: the check fails just when the first word pushed is one that clearing stores
(`stackInside_iff_pushed`).
-/
namespace HartBoot

namespace Layout
variable {l : Layout}

/-- What is left to be said of a layout whose region is checked. -/
theorem validate_checked (checked : BssRegion.check l.bss.start l.bss.stop = .ok l.bss) : l.validate =
    if l.bss.start < l.stackEnd ∧ l.stackEnd ≤ l.bss.stop then .error (.stackInsideBss l.stackEnd)
    else if ¬ l.trapVector.IsAligned then .error (.misaligned "trap vector" l.trapVector.address)
    else .ok () := by
  unfold validate
  rw [checked]
  by_cases inside : l.bss.start < l.stackEnd ∧ l.stackEnd ≤ l.bss.stop
  · rw [if_pos inside]
    simp only [inside]
    rfl
  · rw [if_neg inside]
    simp only [inside]
    rfl

theorem validate_eq_ok : l.validate = .ok () ↔ BssRegion.check l.bss.start l.bss.stop = .ok l.bss ∧
    ¬ (l.bss.start < l.stackEnd ∧ l.stackEnd ≤ l.bss.stop) ∧ l.trapVector.IsAligned := by
  cases accepted : BssRegion.check l.bss.start l.bss.stop with
  | error e =>
    have fails : l.validate = .error e := by
      unfold validate
      rw [accepted]
      rfl
    simp [fails]
  | ok r =>
    obtain rfl : r = l.bss := (BssRegion.check_eq_ok.mp accepted).2
    rw [validate_checked accepted]
    by_cases inside : l.bss.start < l.stackEnd ∧ l.stackEnd ≤ l.bss.stop
    · simp [inside]
    · rw [if_neg inside]
      by_cases aligned : l.trapVector.IsAligned
      · rw [if_neg (not_not_intro aligned)]
        exact iff_of_true rfl ⟨rfl, inside, aligned⟩
      · rw [if_pos aligned]
        exact iff_of_false nofun fun right => aligned right.2.2

theorem validate_stackInside (checked : BssRegion.check l.bss.start l.bss.stop = .ok l.bss) (stackEnd : Word) :
    l.validate = .error (.stackInsideBss stackEnd) ↔
      stackEnd = l.stackEnd ∧ l.bss.start < l.stackEnd ∧ l.stackEnd ≤ l.bss.stop := by
  rw [validate_checked checked]
  by_cases inside : l.bss.start < l.stackEnd ∧ l.stackEnd ≤ l.bss.stop
  · simp [inside, eq_comm]
  · by_cases aligned : l.trapVector.IsAligned
    · simp [inside, aligned]
    · simp [inside, aligned]

/-- The first word that is pushed on the stack: the one below its top, or the last of all when the top is zero. -/
def firstPushed (l : Layout) : Word := l.stackEnd - 8

/-- A word of the cleared memory lies right below the top of the stack just when the top lies in that memory, its start
    not included and its end included. -/
theorem firstPushed_mem_words (checked : BssRegion.check l.bss.start l.bss.stop = .ok l.bss)
    (aligned : Aligned 8 l.stackEnd) :
    l.firstPushed ∈ l.bss.words ↔ l.bss.start < l.stackEnd ∧ l.stackEnd ≤ l.bss.stop := by
  obtain ⟨⟨first, last, ordered⟩, _⟩ := BssRegion.check_eq_ok.mp checked
  have small := l.stackEnd.isLt
  have bounded := l.bss.stop.isLt
  -- Where the stack ends at zero the first word pushed is the last of all, which no checked region reaches.
  have pushed : l.firstPushed.toNat = (addressCount - 8 + l.stackEnd.toNat) % addressCount := BitVec.toNat_sub ..
  simp only [BssRegion.mem_words, BitVec.le_def, BitVec.lt_def, pushed, Aligned, Platform.clearStep, addressCount]
    at first last aligned ordered ⊢
  omega

end Layout

/-! ### The boot of a validated layout -/

namespace Sim

/-- The routines of a boot that starts early initialisation on `started` do not fault, and early initialisation comes
    back in machine mode if it comes back. -/
structure RoutinesComply (n : Nat) (l : Layout) (started : Hart) : Prop where
  earlyInit : ¬ Faults (runAt (opsAt n) l.earlyInit started)
  level : ∀ back, runAt (opsAt n) l.earlyInit started = .ok .returns back → back.registers.mode = .machine
  main : ∀ back, runAt (opsAt n) l.earlyInit started = .ok .returns back →
    ¬ Faults (runAt (opsAt n) l.main ((back.pastEarlyInit l).entered (.main l)))

/-- The boot came to its end: the hart has parked, or one of its routines did not come back. -/
def BootHalts (l : Layout) (result : EStateM.Result Fault Hart (Flow HaltReason)) : Prop :=
  ∃ reason after, result = .ok (.halted reason) after ∧
    (reason = .parked ∨ reason = .diverged l.earlyInit ∨ reason = .diverged l.main)

section
variable {n : Nat} {l : Layout} {started : Hart} {result : EStateM.Result Fault Hart (Flow HaltReason)}

theorem mainEnds_halts (ends : MainEnds n l started result) (complies : ¬ Faults (runAt (opsAt n) l.main started)) :
    BootHalts l result := by
  obtain ⟨_, ends⟩ := ends
  cases ran : runAt (opsAt n) l.main started with
  | error fault after => exact absurd ⟨fault, after, ran⟩ complies
  | ok exit back =>
    rw [ran] at ends
    cases exit with
    | diverges => exact ⟨_, _, ends, .inr (.inr rfl)⟩
    | returns => exact ⟨_, _, ends.1, .inl rfl⟩

theorem earlyInitEnds_halts (ends : EarlyInitEnds n l started result) (complies : RoutinesComply n l started) :
    BootHalts l result := by
  obtain ⟨_, ends⟩ := ends
  cases ran : runAt (opsAt n) l.earlyInit started with
  | error fault after => exact absurd ⟨fault, after, ran⟩ complies.earlyInit
  | ok exit back =>
    rw [ran] at ends
    cases exit with
    | diverges => exact ⟨_, _, ends, .inr (.inl rfl)⟩
    | returns =>
      dsimp only at ends
      rw [if_pos (complies.level back ran)] at ends
      exact mainEnds_halts ends.2 (complies.main back ran)

theorem reset_halts {h : Hart} (valid : l.validate = .ok ()) (elected : IsBootHart h.registers.hartId)
    (machine : h.registers.mode = .machine) (complies : RoutinesComply h.routines.length l (h.atEarlyInit l)) :
    BootHalts l ((Boot.new l).reset (opsAt h.routines.length) h) := by
  obtain ⟨checked, _, _⟩ := Layout.validate_eq_ok.mp valid
  obtain ⟨_, mode, routines⟩ := Hart.foldl_afterSetup l.setup h
  have ready : (h.setUp l).registers.mode = .machine := mode.trans machine
  have small : (h.setUp l).routines.length ≤ h.routines.length := Nat.le_of_eq (congrArg List.length routines)
  rw [reset_run _ elected (BssRegion.checked_clearable checked)]
  exact earlyInitEnds_halts (runRoutines_ends l ready small) complies

end

/-- Where the region is checked, clearing it goes through, and the check of the stack is one of the words it stores. -/
theorem stackInside_iff_pushed (run : Word → HartM Exit) {l : Layout}
    (checked : BssRegion.check l.bss.start l.bss.stop = .ok l.bss) (aligned : Aligned 8 l.stackEnd) (h : Hart) :
    ∃ (after : Hart) (stored : List Word), Boot.clearBss (opsWith run) l.bss h = .ok () after ∧
      after.stores = h.stores ++ stored.map (·, 0) ∧
      ∀ stackEnd, l.validate = .error (.stackInsideBss stackEnd) ↔ stackEnd = l.stackEnd ∧ l.firstPushed ∈ stored := by
  obtain ⟨after, ran, cleared⟩ := checked_region_cleared run checked h
  refine ⟨after, l.bss.words, ran, cleared.stores, fun stackEnd => ?_⟩
  rw [Layout.validate_stackInside checked, Layout.firstPushed_mem_words checked aligned]

/-- A validated layout is enough for the boot of the elected hart to come to its end, if the routines do their part,
    and for its trap vector to go into the register of the board whole. Of a layout with a checked region and a stack
    of whole words, the check of the stack says exactly whether the first push would be on a word that clearing
    stores. -/
theorem validation_suffices :
    (∀ l : Layout, l.validate = .ok () →
      (∀ h : Hart, IsBootHart h.registers.hartId → h.registers.mode = .machine →
        RoutinesComply h.routines.length l (h.atEarlyInit l) →
          BootHalts l ((Boot.new l).reset (opsAt h.routines.length) h)) ∧
      ∀ b : Machine.Board, ∃ after : Machine.Board,
        Machine.writeRegister (.trapVector l.trapVector) b = .ok () after ∧ after.csr .mtvec = l.trapVector.bits) ∧
    ∀ l : Layout, BssRegion.check l.bss.start l.bss.stop = .ok l.bss → Aligned 8 l.stackEnd →
      ∀ (depth : Nat) (h : Hart), ∃ (after : Hart) (stored : List Word),
        Boot.clearBss (opsAt depth) l.bss h = .ok () after ∧ after.stores = h.stores ++ stored.map (·, 0) ∧
        ∀ stackEnd, l.validate = .error (.stackInsideBss stackEnd) ↔
          stackEnd = l.stackEnd ∧ l.firstPushed ∈ stored := by
  constructor
  · intro l valid
    refine ⟨fun h elected machine complies => reset_halts valid elected machine complies, fun b => ?_⟩
    have fits : Machine.Fits (.trapVector l.trapVector) := (Layout.validate_eq_ok.mp valid).2.2
    exact ⟨_, Machine.write_fits fits b, rfl⟩
  · intro l checked aligned depth h
    rw [opsAt_eq]
    exact stackInside_iff_pushed _ checked aligned h

theorem smallHart_complies :
    RoutinesComply smallHart.routines.length smallLayout (smallHart.atEarlyInit smallLayout) where
  earlyInit := by
    rintro ⟨fault, after, ran⟩
    cases ran
  level := by
    intro back ran
    cases ran
    rfl
  main := by
    rintro back ran ⟨fault, after, faulted⟩
    cases ran
    cases faulted

/-- The layout of `smallHart` with a stack that ends with the memory to clear. -/
def overlappingLayout : Layout := { smallLayout with stackEnd := 0x2010 }

theorem validation_suffices_small :
    (smallLayout.validate = .ok () ∧ IsBootHart smallHart.registers.hartId ∧ smallHart.registers.mode = .machine ∧
      RoutinesComply smallHart.routines.length smallLayout (smallHart.atEarlyInit smallLayout) ∧
      BootHalts smallLayout ((Boot.new smallLayout).reset (opsAt smallHart.routines.length) smallHart)) ∧
    BssRegion.check overlappingLayout.bss.start overlappingLayout.bss.stop = .ok overlappingLayout.bss ∧
      Aligned 8 overlappingLayout.stackEnd ∧
      ∃ (after : Hart) (stored : List Word), Boot.clearBss (opsAt 0) overlappingLayout.bss smallHart = .ok () after ∧
        after.stores = smallHart.stores ++ stored.map (·, 0) ∧
        (overlappingLayout.validate = .error (.stackInsideBss 0x2010) ↔
          (0x2010 : Word) = overlappingLayout.stackEnd ∧ overlappingLayout.firstPushed ∈ stored) := by
  have valid : smallLayout.validate = .ok () := rfl
  have checked : BssRegion.check overlappingLayout.bss.start overlappingLayout.bss.stop = .ok overlappingLayout.bss :=
    rfl
  have aligned : Aligned 8 overlappingLayout.stackEnd := by decide
  refine ⟨⟨valid, rfl, rfl, smallHart_complies, ?_⟩, checked, aligned, ?_⟩
  · exact (validation_suffices.1 smallLayout valid).1 smallHart rfl rfl smallHart_complies
  · obtain ⟨after, stored, ran, stores, exactly⟩ :=
      validation_suffices.2 overlappingLayout checked aligned 0 smallHart
    exact ⟨after, stored, ran, stores, exactly 0x2010⟩

end Sim
end HartBoot
