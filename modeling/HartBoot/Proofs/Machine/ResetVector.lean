import HartBoot.Machine.Image
import HartBoot.Proofs.Boot.Clearing
import HartBoot.Proofs.Machine.Departure
import HartBoot.Proofs.Sim.ResetTrace

/-!
The reset vector against the boot from reset on. On the elected hart the code ends, and apart from its scratch registers
its effects are the steps by which the prologue sets a hart up, in the same order; on every other hart it parks with no
effect but on its scratch registers (`resetVector_refines`).
-/
namespace HartBoot
namespace Machine

/-- Whether an effect concerns no more than the registers that code uses for itself. -/
def Effect.isScratch : Effect → Bool
  | .register .t0 _ => true
  | .register .t1 _ => true
  | _ => false

/-- The effects of a run that stay: those on other than the scratch registers. -/
def Departure.lasting (d : Departure) : List Effect := d.effects.filter fun effect => !effect.isScratch

/-- A step of the setup as the effect of an instruction. -/
def effectOf : Setup → Effect
  | .bareAddressing => .csr .satp 0
  | .globalPointer value => .register .gp value
  | .zeroWord addr => .store addr 0
  | .stackPointer value => .register .sp value

theorem lasting_scratch (d : Departure) {effect : Effect} (scratch : effect.isScratch = true) :
    (d.preceded effect).lasting = d.lasting := by
  simp [Departure.lasting, Departure.preceded, scratch]

theorem lasting_effect (d : Departure) {effect : Effect} (stays : effect.isScratch = false) :
    (d.preceded effect).lasting = effect :: d.lasting := by
  simp [Departure.lasting, Departure.preceded, stays]

theorem branch_taken {condition : Prop} [Decidable condition] (holds : condition) (label : Nat) :
    branch (decide condition) label = .jump label := by
  simp [branch, holds]

theorem branch_passed {condition : Prop} [Decidable condition] (fails : ¬ condition) (label : Nat) :
    branch (decide condition) label = .onward := by
  simp [branch, fails]

/-! ### The code behind each label -/

theorem setup_lines : linesFrom resetVector 1 = .label 1 :: .code (.csrw .satp .zero) ::
    .code (.la .gp .globalPointer) :: .code (.la .t0 .bssStart) :: .code (.la .t1 .bssEnd) ::
    .code (.bgeu .t0 .t1 3) :: linesFrom resetVector 2 :=
  rfl

theorem loop_lines : linesFrom resetVector 2 = .label 2 :: .code (.sd .zero .t0 0) ::
    .code (.addi .t0 .t0 (BitVec.ofNat 64 Platform.clearStep)) :: .code (.bltu .t0 .t1 2) ::
    linesFrom resetVector 3 :=
  rfl

theorem stack_lines : linesFrom resetVector 3 =
    [.label 3, .code (.la .sp .stackEnd), .code (.tail .bootDescend)] :=
  rfl

section
variable (symbols : Symbol → Word)

/-- What the code has left to do from the label of the stack on. -/
theorem stack_departs (c : Cpu) : ∃ d : Departure, Departs symbols resetVector 3 (linesFrom resetVector 3) c d ∧
    d.target = .bootDescend ∧ d.lasting = [.register .sp (symbols .stackEnd)] := by
  rw [stack_lines]
  exact ⟨_, departs_label 3 (departs_after rfl (departs_tail rfl)), rfl, rfl⟩

/-- One round of the loop up to its branch. -/
theorem body_departs {symbols : Symbol → Word} {k : Nat} {c : Cpu} {d : Departure} {start next : Word}
    (stores : Instruction.next symbols c (.sd .zero .t0 0) = .after (.store start 0))
    (steps : Instruction.next symbols c (.addi .t0 .t0 (BitVec.ofNat 64 Platform.clearStep)) =
      .after (.register .t0 next))
    (rest : Departs symbols resetVector k (.code (.bltu .t0 .t1 2) :: linesFrom resetVector 3)
      (c.apply (.register .t0 next)) d) :
    Departs symbols resetVector (k + 3) (linesFrom resetVector 2) c
      ((d.preceded (.register .t0 next)).preceded (.store start 0)) := by
  rw [loop_lines]
  exact departs_label 2 (departs_after stores (departs_after steps rest))

/-- The loop stores at every word that is left, and then the code goes on behind it. -/
theorem loop_departs (start stop : Word) (c : Cpu) (below : start < stop)
    (clearable : BssRegion.Clearable ⟨start, stop⟩) (zero : c.registers .zero = 0)
    (counter : c.registers .t0 = start) (limit : c.registers .t1 = stop) :
    ∃ d : Departure,
      Departs symbols resetVector (4 * BssRegion.count ⟨start, stop⟩ + 3) (linesFrom resetVector 2) c d ∧
        d.target = .bootDescend ∧
        d.lasting = (BssRegion.words ⟨start, stop⟩).map (.store · 0) ++ [.register .sp (symbols .stackEnd)] := by
  have inside : start.toNat < stop.toNat := below
  obtain ⟨aligned, room⟩ := clearable.resolve_left (Nat.not_le_of_lt inside)
  have later : (start + BitVec.ofNat 64 Platform.clearStep).toNat = start.toNat + Platform.clearStep := by
    simp only [Platform.clearStep, addressCount] at room ⊢
    rw [BitVec.toNat_add, BitVec.toNat_ofNat]
    omega
  have stores : Instruction.next symbols c (.sd .zero .t0 0) = .after (.store start 0) := by
    simp [Instruction.next, zero, counter]
  have steps : Instruction.next symbols c (.addi .t0 .t0 (BitVec.ofNat 64 Platform.clearStep)) =
      .after (.register .t0 (start + BitVec.ofNat 64 Platform.clearStep)) := by
    simp [Instruction.next, counter]
  rw [BssRegion.words_cons below later, BssRegion.count_succ below later]
  generalize start + BitVec.ofNat 64 Platform.clearStep = next at later steps ⊢
  have branches : Instruction.next symbols (c.apply (.register .t0 next)) (.bltu .t0 .t1 2) =
      branch (next < stop) 2 := by
    rw [← limit]
    rfl
  by_cases more : next < stop
  · have closer := BssRegion.less_left below later
    have still : Aligned Platform.clearStep next := by
      simp only [Aligned, Platform.clearStep] at aligned later ⊢
      omega
    obtain ⟨d, departs, target, lasting⟩ := loop_departs next stop (c.apply (.register .t0 next)) more
      (.inr ⟨still, room⟩) zero rfl limit
    rw [branch_taken more] at branches
    refine ⟨(d.preceded (.register .t0 next)).preceded (.store start 0), ?_, target, ?_⟩
    · exact departs_more (body_departs stores steps (departs_jump branches departs)) (by omega)
    · rw [lasting_effect _ rfl, lasting_scratch _ rfl, lasting]
      rfl
  · obtain ⟨d, departs, target, lasting⟩ := stack_departs symbols (c.apply (.register .t0 next))
    have empty : stop ≤ next := BitVec.not_lt.mp more
    rw [branch_passed more] at branches
    refine ⟨(d.preceded (.register .t0 next)).preceded (.store start 0), ?_, target, ?_⟩
    · exact departs_more (body_departs stores steps (departs_onward branches departs)) (by omega)
    · rw [lasting_effect _ rfl, lasting_scratch _ rfl, lasting, BssRegion.words_empty _ empty]
      rfl
termination_by stop.toNat - start.toNat

/-- The region that the symbols bound. -/
abbrev linkedBss : BssRegion := ⟨symbols .bssStart, symbols .bssEnd⟩

variable {symbols} {c : Cpu} (zero : c.registers .zero = 0) (clearable : (linkedBss symbols).Clearable)
include zero clearable

/-- With the bounds in its scratch registers, the code clears what is between them, if anything is. -/
theorem clearing_departs (counter : c.registers .t0 = symbols .bssStart) (limit : c.registers .t1 = symbols .bssEnd) :
    ∃ d : Departure,
      Departs symbols resetVector (4 * (linkedBss symbols).count + 4)
          (.code (.bgeu .t0 .t1 3) :: linesFrom resetVector 2) c d ∧
        d.target = .bootDescend ∧
        d.lasting = (linkedBss symbols).words.map (.store · 0) ++ [.register .sp (symbols .stackEnd)] := by
  have branches : Instruction.next symbols c (.bgeu .t0 .t1 3) = branch (symbols .bssEnd ≤ symbols .bssStart) 3 := by
    rw [← counter, ← limit]
    rfl
  by_cases empty : symbols .bssEnd ≤ symbols .bssStart
  · obtain ⟨d, departs, target, lasting⟩ := stack_departs symbols c
    rw [branch_taken empty] at branches
    refine ⟨d, departs_more (departs_jump branches departs) (by omega), target, ?_⟩
    rw [lasting, BssRegion.words_empty _ empty]
    rfl
  · obtain ⟨d, departs, target, lasting⟩ := loop_departs symbols _ _ c (BitVec.not_le.mp empty) clearable zero
      counter limit
    rw [branch_passed empty] at branches
    exact ⟨d, departs_onward branches departs, target, lasting⟩

/-- From its label on the setup is done, whether or not there is memory to clear. -/
theorem setup_departs : ∃ d : Departure,
    Departs symbols resetVector (4 * (linkedBss symbols).count + 9) (linesFrom resetVector 1) c d ∧
      d.target = .bootDescend ∧
      d.lasting = [.csr .satp 0, .register .gp (symbols .globalPointer)] ++
        (linkedBss symbols).words.map (.store · 0) ++ [.register .sp (symbols .stackEnd)] := by
  have bare : Instruction.next symbols c (.csrw .satp .zero) = .after (.csr .satp 0) := by
    simp [Instruction.next, zero]
  obtain ⟨d, departs, target, lasting⟩ := clearing_departs
    (c := (((c.apply (.csr .satp 0)).apply (.register .gp (symbols .globalPointer))).apply
      (.register .t0 (symbols .bssStart))).apply (.register .t1 (symbols .bssEnd))) zero clearable rfl rfl
  rw [setup_lines]
  refine ⟨_, departs_label 1 (departs_after bare (departs_after rfl (departs_after rfl (departs_after rfl departs)))),
    target, ?_⟩
  rw [lasting_effect _ rfl, lasting_effect _ rfl, lasting_scratch _ rfl, lasting_scratch _ rfl, lasting]
  rfl

theorem resetVector_elected (elected : IsBootHart (c.csr .mhartid)) : ∃ d : Departure,
    Departs symbols resetVector (4 * (linkedBss symbols).count + 12) resetVector c d ∧ d.target = .bootDescend ∧
      d.lasting = [.csr .satp 0, .register .gp (symbols .globalPointer)] ++
        (linkedBss symbols).words.map (.store · 0) ++ [.register .sp (symbols .stackEnd)] := by
  obtain ⟨d, departs, target, lasting⟩ :=
    setup_departs (c := (c.apply (.register .t0 (c.csr .mhartid))).apply (.register .t1 Platform.bootHart)) zero clearable
  have branches : Instruction.next symbols
      ((c.apply (.register .t0 (c.csr .mhartid))).apply (.register .t1 Platform.bootHart)) (.beq .t0 .t1 1) = .jump 1 := by
    rw [← branch_taken elected]
    rfl
  refine ⟨_, departs_after rfl (departs_after rfl (departs_jump branches departs)), target, ?_⟩
  rw [lasting_scratch _ rfl, lasting_scratch _ rfl, lasting]

omit zero clearable in
variable (symbols) in
theorem resetVector_lost (lost : ¬ IsBootHart (c.csr .mhartid)) : ∃ d : Departure,
    Departs symbols resetVector 4 resetVector c d ∧ d.target = .park ∧ d.lasting = [] := by
  have branches : Instruction.next symbols
      ((c.apply (.register .t0 (c.csr .mhartid))).apply (.register .t1 Platform.bootHart)) (.beq .t0 .t1 1) = .onward := by
    rw [← branch_passed lost]
    rfl
  refine ⟨_, departs_after rfl (departs_after rfl (departs_onward branches (departs_tail rfl))), rfl, ?_⟩
  rw [lasting_scratch _ rfl, lasting_scratch _ rfl]
  rfl

end

theorem resetLines_enough (image : Image) : 4 * image.layout.bss.count + 12 ≤ image.resetLines := by
  have lines : image.resetLines = 4 * image.layout.bss.count + 17 := rfl
  omega

/-- How a run of the reset vector on the hart numbered `id` compares with a reset. On the elected hart it reaches the
    descent, and what it did for good is what the prologue does, step by step; a reset is that prologue and the descent.
    On any other hart it parks and has done nothing for good; a reset is idling there. -/
def RefinesReset (image : Image) (id : Word) (d : Departure) : Prop :=
  ∀ (h : Sim.Hart) (depth : Nat), h.registers.hartId = id →
    if IsBootHart id then
      d.target = .bootDescend ∧ ∃ (steps : List Setup) (after : Sim.Hart),
        Boot.prologue (Sim.opsAt depth) image.layout h = .ok () after ∧
          after.events = h.events ++ steps.map .setup ∧ d.lasting = steps.map effectOf ∧
          (Boot.new image.layout).reset (Sim.opsAt depth) h =
            (Boot.afterPrologue image.layout).descend (Sim.opsAt depth).toHartOps after
    else
      d.target = .park ∧ d.lasting = [] ∧
        (Boot.new image.layout).reset (Sim.opsAt depth) h = (Sim.opsAt depth).idle h

/-- The reset vector leaves within the lines allowed, whatever the registers hold, and refines a reset. -/
theorem resetVector_refines (image : Image) {c : Cpu} (zero : c.registers .zero = 0)
    (clearable : image.layout.bss.Clearable) :
    ∃ d : Departure, (∀ n, image.resetLines ≤ n → execute image.symbols resetVector n resetVector c = some d) ∧
      RefinesReset image (c.csr .mhartid) d := by
  by_cases elected : IsBootHart (c.csr .mhartid)
  · obtain ⟨d, departs, target, lasting⟩ := resetVector_elected zero clearable elected
    refine ⟨d, departs_more departs (resetLines_enough image), ?_⟩
    intro h depth same
    have boot : IsBootHart ((Sim.opsAt depth).hartId h) := by
      rw [Sim.opsAt_hartId, same]
      exact elected
    have prologue := Sim.prologue_run clearable depth h
    rw [if_pos elected]
    refine ⟨target, image.layout.setup, h.setUp image.layout, prologue, (h.foldl_afterSetup _).1, ?_, ?_⟩
    · rw [lasting, Layout.setup, List.map_append, List.map_append, List.map_map]
      rfl
    · rw [Boot.reset_elected _ _ boot, bind_of_ok prologue]
  · obtain ⟨d, departs, target, lasting⟩ := resetVector_lost image.symbols elected
    have few : 4 ≤ image.resetLines := Nat.le_trans (by omega) (resetLines_enough image)
    refine ⟨d, departs_more departs few, ?_⟩
    intro h depth same
    have lost : ¬ IsBootHart ((Sim.opsAt depth).hartId h) := by
      rw [Sim.opsAt_hartId, same]
      exact elected
    rw [if_neg elected]
    exact ⟨target, lasting, Boot.reset_lost _ _ lost⟩

/-- An image with two words to clear. -/
def smallImage : Image where
  symbols
    | .globalPointer => 0x1800
    | .bssStart => 0x2000
    | .bssEnd => 0x2010
    | .stackEnd => 0x4000
  earlyInit := 0x100
  main := 0x200
  trapVector := 0x300
  filter := .off
  mainSteps := []

theorem resetVector_refines_small :
    RegisterFile.initial .zero = 0 ∧ smallImage.layout.bss.Clearable ∧
      ∃ d : Departure, (∀ n, smallImage.resetLines ≤ n →
          execute smallImage.symbols resetVector n resetVector ⟨fun _ => 0, .initial⟩ = some d) ∧
        RefinesReset smallImage 0 d := by
  have clearable : smallImage.layout.bss.Clearable := .inr ⟨by decide, by decide⟩
  exact ⟨rfl, clearable, resetVector_refines smallImage rfl clearable⟩

end Machine
end HartBoot
