import HartBoot.Proofs.Sim.Depth
import HartBoot.Proofs.Sim.Entry
import HartBoot.Proofs.Sim.Replay

/-!
A hart that is not elected. Its reset is the idle loop, whatever layout it is given, and the idle loop waits for
interrupts as often as the hart may, and at least once, and does nothing else (`waitedFor_onlyWaits`). So the hart parks
with everything but its waits as it was, and no layout can make a difference to that (`lost_hart_parks`).
-/
namespace HartBoot.Sim

/-- `after` is `h` after `n` waits for interrupts and nothing else. -/
structure OnlyWaits (n : Nat) (h after : Hart) : Prop where
  registers : after.registers = h.registers
  memory : after.memory = h.memory
  routines : after.routines = h.routines
  wfiBudget : after.wfiBudget = h.wfiBudget - n
  history : after.history = h.history ++ (List.replicate n (Hart.trail h.registers.hartId .waitForInterrupt)).flatten

section
variable {n : Nat} {h after : Hart}

theorem OnlyWaits.refl (h : Hart) : OnlyWaits 0 h h := ⟨rfl, rfl, rfl, rfl, by simp⟩

/-- A wait before other waits. -/
theorem OnlyWaits.waited (later : OnlyWaits n h.waited after) : OnlyWaits (n + 1) h after where
  registers := later.registers
  memory := later.memory
  routines := later.routines
  wfiBudget := by
    have spent : h.waited.wfiBudget = h.wfiBudget - 1 := rfl
    rw [later.wfiBudget, spent]
    omega
  history := by
    have same : h.waited.registers.hartId = h.registers.hartId := rfl
    rw [later.history, Hart.history_waited, same, List.append_assoc, List.replicate_succ, List.flatten_cons]

theorem waitedFor_onlyWaits (n : Nat) (h : Hart) : OnlyWaits n h (h.waitedFor n) := by
  induction n generalizing h with
  | zero => exact .refl h
  | succ n ih => exact (ih h.waited).waited

end

/-- A single call on a boot in progress. -/
theorem perform_call {ops : ResetOps Fault Hart HaltReason} {boot : Boot} {call : Call} {answer : CallAnswer}
    {h after : Hart} (called : performCall ops boot call h = .ok answer after) :
    perform ops (.boot boot [call]) h = .ok (.calls [answer]) after := by
  refine map_of_ok ?_
  rw [List.mapM_cons, bind_of_ok called]
  rfl

section
variable (run : Word → HartM Exit) {h : Hart} (lost : ¬ IsBootHart h.registers.hartId)
include lost

/-- The layout of a boot is never looked at on a hart that is not elected. -/
theorem reset_lost_run (l : Layout) : (Boot.new l).reset (opsWith run) h =
    .ok (.halted .parked) (h.waitedFor (max 1 h.wfiBudget)) := by
  have other : ¬ IsBootHart ((opsWith run).hartId h) := lost
  rw [Boot.reset_lost (opsWith run) l other]
  exact idle_run run h

theorem step_lost_run (l : Layout) : h.step (.boot (.new l) [.reset]) =
    .ok (.calls [.flow (.halted .parked)]) (h.waitedFor (max 1 h.wfiBudget)) := by
  have ran := reset_lost_run (routineAt h.routines.length) lost l
  rw [← opsAt_eq] at ran
  have called : performCall (opsAt h.routines.length) (.new l) .reset h = _ := map_of_ok ran
  exact perform_call called

end

/-- A hart that is not elected parks. It waits for interrupts as often as it may, and at least once, however long the
    idle loop could go on, and everything else stays as it was, down to the last entry of its history. Nothing of that
    depends on its level, on its routines or on the layout. -/
theorem lost_hart_parks {h : Hart} (lost : ¬ IsBootHart h.registers.hartId) :
    ∃ parked, OnlyWaits (max 1 h.wfiBudget) h parked ∧
      parked.events = h.events ++ List.replicate (max 1 h.wfiBudget) .waitForInterrupt ∧
      (∀ l : Layout, h.step (.boot (.new l) [.reset]) = .ok (.calls [.flow (.halted .parked)]) parked) ∧
      ∀ run : Word → HartM Exit,
        (∀ l : Layout, (Boot.new l).reset (opsWith run) h = .ok (.halted .parked) parked) ∧
        ∀ patience, max 1 h.wfiBudget ≤ patience → (opsWith run).idleFor patience h = .ok (.halted .parked) parked := by
  have waits := waitedFor_onlyWaits (max 1 h.wfiBudget) h
  refine ⟨_, waits, h.events_waitedFor _, step_lost_run lost, fun run => ⟨reset_lost_run run lost, ?_⟩⟩
  intro patience enough
  exact idleFor_run run h patience enough

/-- A layout that nothing is right with: misaligned, with a region to clear that runs over the last address. -/
def brokenLayout : Layout := ⟨0x1, ⟨0x2001, BitVec.allOnes 64⟩, 0x2003, 0x100, 0x200, .direct 0x301⟩

/-- A hart that is not elected and has gone to supervisor mode, where the reset of the elected one would fault. -/
def straggler : Hart :=
  (Hart.new 3 [⟨0x500, [⟨[.setup (.zeroWord 0x2000)], .returns⟩], 0⟩] 2).after
    [.write (.status ⟨.supervisor, StatusFlags.mpie⟩), .write (.epc 0x500), .privilegeReturn .caller]

theorem lost_hart_parks_straggler :
    ¬ IsBootHart straggler.registers.hartId ∧ straggler.registers.mode = .supervisor ∧
      ∃ parked, OnlyWaits 2 straggler parked ∧
        straggler.step (.boot (.new brokenLayout) [.reset]) = .ok (.calls [.flow (.halted .parked)]) parked ∧
        straggler.step (.boot (.new ⟨0, ⟨0, 0⟩, 0, 0, 0, .direct 0⟩) [.reset]) =
          .ok (.calls [.flow (.halted .parked)]) parked := by
  have lost : ¬ IsBootHart straggler.registers.hartId := by decide
  obtain ⟨parked, waits, _, steps, _⟩ := lost_hart_parks lost
  exact ⟨lost, rfl, parked, waits, steps brokenLayout, steps _⟩

end HartBoot.Sim
