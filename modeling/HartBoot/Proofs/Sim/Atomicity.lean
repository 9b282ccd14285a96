import HartBoot.Proofs.Sim.ResetTrace

/-!
Entering a routine is all or nothing. Below machine mode the first write is refused, so nothing of the entry is done
(`Untouched`). In machine mode the writes and the return all succeed, whatever the registers held and whatever bits the
status has, and the routine starts in the state that the transition describes (`AtEntry`); from there on only the
routine decides how the entry ends (`enter_all_or_nothing`).
-/
namespace HartBoot

/-- The status that is read after a return from machine mode whose status was written as `written`. -/
structure Status.Returned (written decoded : Status) : Prop where
  level : decoded.previous = .user
  enabled : decoded.flags.contains StatusFlags.mie = written.flags.contains StatusFlags.mpie
  saved : decoded.flags.contains StatusFlags.mpie = true
  supervisor : decoded.flags.contains StatusFlags.sie = written.flags.contains StatusFlags.sie
  supervisorSaved : decoded.flags.contains StatusFlags.spie = written.flags.contains StatusFlags.spie

namespace Status

/-- Truncation keeps the enables that have names. -/
theorem contains_truncate (bits : Word) {i : Nat} (named : i = 1 ∨ i = 3 ∨ i = 5 ∨ i = 7) :
    (FlagSet.truncate bits : StatusFlags).contains (.single i) = bits.getLsbD i := by
  have inside : i < 64 := by omega
  rw [FlagSet.contains_single _ inside, FlagSet.truncate, BitVec.getLsbD_and, getLsbD_known inside,
    decide_eq_true named, Bool.and_true]

/-- What is read back after a return is the written status with its saved enable made the current one. -/
theorem returned_truncate (s : Status) :
    Returned s ⟨.user, .truncate (⟨s.previous, .truncate s.flags.bits⟩ : Status).afterReturn.flags.bits⟩ := by
  have flag : ∀ i, i = 1 ∨ i = 3 ∨ i = 5 ∨ i = 7 →
      (FlagSet.truncate (⟨s.previous, .truncate s.flags.bits⟩ : Status).afterReturn.flags.bits : StatusFlags).contains
        (.single i) = (i = 7 || s.flags.contains (.single (if i = 3 then 7 else i))) := by
    intro i named
    have kept : ∀ j, j = 1 ∨ j = 3 ∨ j = 5 ∨ j = 7 →
        (FlagSet.truncate s.flags.bits : StatusFlags).bits.getLsbD j = s.flags.contains (.single j) := by
      intro j named
      have inside : j < 64 := by omega
      rw [← FlagSet.contains_single _ inside, contains_truncate _ named, FlagSet.contains_single _ inside]
    rw [contains_truncate _ named, getLsbD_afterReturn _ (by omega)]
    by_cases current : i = 3
    · rw [if_pos current, if_pos current, kept 7 (by omega)]
    · rw [if_neg current, if_neg current, kept i named]
  exact ⟨rfl, flag 3 (by omega), flag 7 (by omega), flag 1 (by omega), flag 5 (by omega)⟩

end Status

namespace Sim

/-- The registers, the memory, the trace, the routines and the budget of a hart are as they were. -/
structure Untouched (h after : Hart) : Prop where
  registers : after.registers = h.registers
  memory : after.memory = h.memory
  events : after.events = h.events
  routines : after.routines = h.routines
  budget : after.wfiBudget = h.wfiBudget

/-- The hart on which the routine of `t` starts that was entered on `h`, when `table` is registered meanwhile. -/
structure AtEntry (t : Transition) (h : Hart) (table : RoutineTable) (started : Hart) : Prop where
  mode : started.registers.mode = t.status.previous
  pc : started.registers.pc = some t.entry
  epc : started.registers.epc = some t.entry
  interruptEnable : started.registers.interruptEnable =
    some (if t.interruptsMasked then .empty else Transition.mainInterrupts)
  trapVector : started.registers.trapVector = t.trapVector.or h.registers.trapVector
  pmp : started.registers.pmp = t.pmp.or h.registers.pmp
  status : ∃ decoded, Status.ofBits? started.registers.status = some decoded ∧ t.status.Returned decoded
  satp : started.registers.satp = h.registers.satp
  globalPointer : started.registers.globalPointer = h.registers.globalPointer
  stackPointer : started.registers.stackPointer = h.registers.stackPointer
  memory : started.memory = h.memory
  budget : started.wfiBudget = h.wfiBudget
  routines : started.routines = table
  events : started.events = h.events ++ [.write (.status t.status), .write (.epc t.entry)] ++
    (t.trapVector.map fun v => Event.write (.trapVector v)).toList ++
    [.write (.interruptEnable (if t.interruptsMasked then .empty else Transition.mainInterrupts))] ++
    (t.pmp.map fun e => Event.write (.pmp e)).toList ++
    [.privilegeReturn t.status.previous t.entry t.interruptsMasked]

/-- How an entry ends whose routine ended with `outcome`. -/
def EntryEnds (t : Transition) (outcome : EStateM.Result Fault Hart Exit)
    (result : EStateM.Result Fault Hart (Flow HaltReason)) : Prop :=
  match outcome with
  | .error fault after => result = .error fault after
  | .ok .diverges after => result = .ok (.halted (.diverged t.entry)) after
  | .ok .returns back => ∃ after, result = .ok .onward after ∧
      after.events = back.events ++ [.routineReturned t.entry t.resume] ∧
      after.registers = { back.registers with pc := none } ∧ after.memory = back.memory ∧
      after.routines = back.routines ∧ after.wfiBudget = back.wfiBudget

/-- How the routine at the entry of `t` comes to `outcome` on `started`. Where none is registered it comes back at once;
    a registered one starts with its first step, and is not registered meanwhile. -/
def RoutineStarts (t : Transition) (h : Hart) (ops : ResetOps Fault Hart HaltReason) (started : Hart)
    (outcome : EStateM.Result Fault Hart Exit) : Prop :=
  match RoutineTable.lookup h.routines t.entry with
  | none => outcome = .ok .returns started
  | some routine => ∃ begun, AtEntry t h (RoutineTable.remove h.routines t.entry) begun ∧
      match performNoted ops routine.nextRun.steps begun with
      | .error fault after => outcome = .error fault after
      | .ok _ after => outcome = .ok routine.nextRun.exit (after.ended routine)

section
variable (t : Transition) (h : Hart)

theorem entryTrace_eq : entryTrace t = [.write (.status t.status), .write (.epc t.entry)] ++
    (t.trapVector.map fun v => Event.write (.trapVector v)).toList ++
    [.write (.interruptEnable (if t.interruptsMasked then .empty else Transition.mainInterrupts))] ++
    (t.pmp.map fun e => Event.write (.pmp e)).toList ++
    [.privilegeReturn t.status.previous t.entry t.interruptsMasked] := by
  have masked : t.interruptEnable.isEmpty = t.interruptsMasked := by
    rw [Transition.interruptEnable]
    cases t.interruptsMasked <;> decide
  rw [entryTrace, masked, Transition.writes, Transition.interruptEnable, Transition.mode]
  cases t.trapVector <;> cases t.pmp <;> rfl

theorem memory_foldl_written (values : List RegisterWrite) (h : Hart) :
    (values.foldl Hart.written h).memory = h.memory := by
  induction values generalizing h with
  | nil => rfl
  | cons value values ih => exact ih (h.written value)

theorem entered_atEntry : AtEntry t h h.routines (h.entered t) := by
  have registers : (h.entered t).registers =
      (h.prepared t).registers.privilegeReturn ⟨t.mode, .truncate t.status.flags.bits⟩ t.entry := rfl
  rw [h.registers_prepared t] at registers
  exact {
    mode := congrArg Registers.mode registers
    pc := congrArg Registers.pc registers
    epc := congrArg Registers.epc registers
    interruptEnable := congrArg Registers.interruptEnable registers
    trapVector := congrArg Registers.trapVector registers
    pmp := congrArg Registers.pmp registers
    status := by
      rw [registers]
      exact ⟨_, Status.ofBits?_bits _, Status.returned_truncate t.status⟩
    satp := (congrArg (·.satp) registers).trans rfl
    globalPointer := (congrArg (·.globalPointer) registers).trans rfl
    stackPointer := (congrArg (·.stackPointer) registers).trans rfl
    memory := memory_foldl_written t.writes _
    budget := (h.entered_keeps t).2
    routines := (h.entered_keeps t).1
    events := by
      rw [h.events_entered t, entryTrace_eq]
      simp only [List.append_assoc] }

variable {t h}

/-- Taking the routine out of the table changes nothing else that the transition describes. -/
theorem AtEntry.started {table : RoutineTable} {landed : Hart} (landedAt : AtEntry t h table landed)
    (routine : Routine) : AtEntry t h (table.remove routine.entry) (landed.started routine) :=
  { landedAt with
    routines := congrArg (RoutineTable.remove · routine.entry) landedAt.routines
    events := (Hart.events_started landed routine).trans landedAt.events }

theorem runAt_starts (ops : ResetOps Fault Hart HaltReason) {landed : Hart}
    (landedAt : AtEntry t h h.routines landed) : RoutineStarts t h ops landed (runAt ops t.entry landed) := by
  unfold RoutineStarts
  have same := landedAt.routines
  cases found : RoutineTable.lookup h.routines t.entry with
  | none =>
    rw [← same] at found
    exact runAt_unregistered ops found
  | some routine =>
    have entry := RoutineTable.entry_of_lookup found
    have runs : runAt ops t.entry landed = runRoutine ops routine landed := runAt_registered ops (same ▸ found)
    have begun := landedAt.started routine
    rw [entry] at begun
    refine ⟨landed.started routine, begun, ?_⟩
    rw [runs]
    cases ran : performNoted ops routine.nextRun.steps (landed.started routine) with
    | error fault after => exact runRoutine_faulted ran
    | ok a after => exact runRoutine_ended ran

theorem entry_ends (run : Word → HartM Exit) (machine : h.registers.mode = .machine) :
    EntryEnds t (run t.entry (h.entered t)) ((opsWith run).enter t h) := by
  cases ran : run t.entry (h.entered t) with
  | error fault after => exact enter_faulted machine ran
  | ok exit back =>
    cases exit with
    | diverges => exact enter_diverged machine ran
    | returns => exact ⟨_, enter_returned machine ran, Hart.events_cameBack .., rfl, rfl, rfl, rfl⟩

end

/-- Entering a routine is all or nothing, for every transition on every hart. In machine mode nothing fails before the
    routine starts, which finds the hart as the transition describes it, and the entry ends as the routine does. Below
    machine mode the entry is refused and the hart stays as it is. -/
theorem enter_all_or_nothing (t : Transition) (h : Hart) {depth : Nat} (deep : h.routines.length ≤ depth) :
    if h.registers.mode = .machine then
      ∃ started, AtEntry t h h.routines started ∧
        RoutineStarts t h (opsAt depth) started (runAt (opsAt depth) t.entry started) ∧
        EntryEnds t (runAt (opsAt depth) t.entry started) ((opsAt depth).enter t h)
    else ∃ after, (opsAt depth).enter t h =
        .error (.illegalAccess h.registers.hartId "mstatus write" h.registers.mode) after ∧ Untouched h after := by
  rw [opsAt_eq]
  by_cases machine : h.registers.mode = .machine
  · rw [if_pos machine]
    have landed := entered_atEntry t h
    have ends := entry_ends (t := t) (routineAt depth) machine
    have room : (h.entered t).routines.length ≤ depth := by
      rw [landed.routines]
      exact deep
    rw [routineAt_depth room, opsAt_eq] at ends
    exact ⟨_, landed, runAt_starts _ landed, ends⟩
  · rw [if_neg machine]
    exact ⟨_, enter_refused _ h t machine, rfl, rfl, Hart.events_reported h _ _, rfl, rfl⟩

theorem enter_all_or_nothing_small :
    smallHart.routines.length ≤ 2 ∧
      ∃ started, AtEntry (.earlyInit smallLayout) smallHart smallHart.routines started ∧
        RoutineStarts (.earlyInit smallLayout) smallHart (opsAt 2) started (runAt (opsAt 2) 0x100 started) ∧
        EntryEnds (.earlyInit smallLayout) (runAt (opsAt 2) 0x100 started)
          ((opsAt 2).enter (.earlyInit smallLayout) smallHart) :=
  ⟨Nat.le_refl 2, enter_all_or_nothing (.earlyInit smallLayout) smallHart (Nat.le_refl 2)⟩

end Sim
end HartBoot
