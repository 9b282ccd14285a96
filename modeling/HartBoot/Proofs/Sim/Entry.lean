import HartBoot.Proofs.Register.Status
import HartBoot.Proofs.Sim.Effects

/-!
What the two parts of every boot do on a simulated hart. Entering a routine from machine mode writes the registers of
the transition and lands on the routine, which then decides how it ends (`enter_returned`, `enter_diverged`,
`enter_faulted`); below machine mode it fails at the first write (`enter_refused`). Idling waits for interrupts as often
as the hart may, and at least once (`idle_run`).
-/
namespace HartBoot.Sim

/-- What a hart traces when it enters the routine of a transition. -/
def entryTrace (t : Transition) : List Event :=
  t.writes.map .write ++ [.privilegeReturn t.mode t.entry t.interruptEnable.isEmpty]

namespace Hart
variable (h : Hart)

def reported (level : Log.Level) (message : String) : Hart :=
  h.logged level ("hart " ++ decimal h.registers.hartId ++ ": " ++ message)

/-- A hart on which the register writes of a transition are done. -/
def prepared (t : Transition) : Hart :=
  t.writes.foldl written (h.reported .trace ("mret to " ++ hex t.entry ++ " in " ++ inspect t.mode ++ " mode"))

/-- A hart on which the routine of a transition starts. -/
def entered (t : Transition) : Hart :=
  (h.prepared t).landed t.resume ⟨t.mode, .truncate t.status.flags.bits⟩ t.entry

def waitedFor (h : Hart) : Nat → Hart
  | 0 => h
  | n + 1 => h.waited.waitedFor n

@[simp] theorem events_reported (level : Log.Level) (message : String) : (h.reported level message).events = h.events :=
  events_logged h level _

theorem registers_foldl_written (values : List RegisterWrite) (h : Hart) :
    (values.foldl written h).registers = values.foldl Registers.write h.registers := by
  induction values generalizing h with
  | nil => rfl
  | cons value values ih => exact ih (h.written value)

theorem events_foldl_written (values : List RegisterWrite) (h : Hart) :
    (values.foldl written h).events = h.events ++ values.map .write := by
  induction values generalizing h with
  | nil => simp
  | cons value values ih => simp [ih]

theorem history_foldl_written (values : List RegisterWrite) (h : Hart) : (values.foldl written h).history =
    h.history ++ (values.map fun value => trail h.registers.hartId (.write value)).flatten := by
  induction values generalizing h with
  | nil => simp
  | cons value values ih =>
    have same : (h.written value).registers.hartId = h.registers.hartId := by cases value <;> rfl
    rw [List.foldl_cons, ih, history_written, same, List.map_cons, List.flatten_cons, List.append_assoc]

theorem foldl_written_keeps (values : List RegisterWrite) (h : Hart) :
    (values.foldl written h).routines = h.routines ∧ (values.foldl written h).wfiBudget = h.wfiBudget := by
  induction values generalizing h with
  | nil => exact ⟨rfl, rfl⟩
  | cons value values ih => exact ih (h.written value)

theorem entered_keeps (t : Transition) :
    (h.entered t).routines = h.routines ∧ (h.entered t).wfiBudget = h.wfiBudget :=
  foldl_written_keeps t.writes _

theorem registers_prepared (t : Transition) : (h.prepared t).registers =
    { h.registers with
      status := t.status.bits
      epc := some t.entry
      trapVector := t.trapVector.or h.registers.trapVector
      interruptEnable := some t.interruptEnable
      pmp := t.pmp.or h.registers.pmp } := by
  rw [prepared, registers_foldl_written, Transition.writes]
  cases t.trapVector <;> cases t.pmp <;> rfl

theorem events_entered (t : Transition) : (h.entered t).events = h.events ++ entryTrace t := by
  rw [entered, events_landed, registers_prepared, prepared, events_foldl_written, events_reported, List.append_assoc]
  rfl

@[simp] theorem events_waitedFor (n : Nat) : (h.waitedFor n).events = h.events ++ List.replicate n .waitForInterrupt := by
  induction n generalizing h with
  | zero => simp [waitedFor]
  | succ n ih => simp [waitedFor, ih, List.replicate_succ]

end Hart

/-- What a hart does when the routine at `entry` has ended. -/
def leave (entry : Word) (resume : Resume) : Exit → HartM (Flow HaltReason)
  | .returns => do
    record (.routineReturned entry resume)
    setRegisters fun r => { r with pc := none }
    return .onward
  | .diverges => return .halted (.diverged entry)

section
variable (run : Word → HartM Exit) (h : Hart)

theorem privilegeReturn_eq (resume : Resume) :
    privilegeReturn run resume = land resume >>= fun entry => run entry >>= leave entry resume := by
  refine bind_congr fun entry => bind_congr fun exit => ?_
  cases exit <;> rfl

theorem report_run (level : Log.Level) (message : String) :
    (opsWith run).report level message h = .ok () (h.reported level message) :=
  rfl

theorem writes_machine (values : List RegisterWrite) (machine : h.registers.mode = .machine) :
    values.forM writeRegister h = .ok () (values.foldl Hart.written h) := by
  have step : ∀ value ∈ values, ∀ h : Hart, h.registers.mode = .machine →
      writeRegister value h = .ok () (h.written value) ∧ (h.written value).registers.mode = .machine := by
    intro value _ h machine
    refine ⟨write_machine h value machine, ?_⟩
    rw [← machine]
    cases value <;> rfl
  exact (forM_of_ok (fun h => h.registers.mode = .machine) machine step).1

theorem enter_machine (t : Transition) (machine : h.registers.mode = .machine) :
    (opsWith run).enter t h = (run t.entry >>= leave t.entry t.resume) (h.entered t) := by
  have registers := h.registers_prepared t
  have landed : land t.resume (h.prepared t) = .ok t.entry (h.entered t) := by
    refine land_machine _ t.resume ?_ ?_ ?_
    · rw [registers]
      exact machine
    · rw [registers]
      exact Status.ofBits?_bits t.status
    · rw [registers]
  unfold HartOps.enter
  have written : t.writes.forM (opsWith run).write (h.reported .trace _) = .ok () (h.prepared t) :=
    writes_machine _ t.writes machine
  have returned : (opsWith run).privilegeReturn t.resume = _ := privilegeReturn_eq run t.resume
  rw [bind_of_ok (report_run run h _ _), bind_of_ok written, returned, bind_of_ok landed]

section
variable {run h} {t : Transition} {after : Hart} (machine : h.registers.mode = .machine)
include machine

theorem enter_faulted {e : Fault} (faulted : run t.entry (h.entered t) = .error e after) :
    (opsWith run).enter t h = .error e after := by
  rw [enter_machine run h t machine]
  exact bind_of_error faulted

theorem enter_diverged (diverged : run t.entry (h.entered t) = .ok .diverges after) :
    (opsWith run).enter t h = .ok (.halted (.diverged t.entry)) after := by
  rw [enter_machine run h t machine]
  exact bind_of_ok diverged

theorem enter_returned (returned : run t.entry (h.entered t) = .ok .returns after) :
    (opsWith run).enter t h = .ok .onward (after.cameBack t.entry t.resume) := by
  rw [enter_machine run h t machine]
  exact bind_of_ok returned

end

/-- Below machine mode nothing can be entered; the first write is refused. -/
theorem enter_refused (t : Transition) (below : h.registers.mode ≠ .machine) :
    (opsWith run).enter t h = .error (.illegalAccess h.registers.hartId "mstatus write" h.registers.mode)
      (h.reported .trace ("mret to " ++ hex t.entry ++ " in " ++ inspect t.mode ++ " mode")) := by
  unfold HartOps.enter
  rw [bind_of_ok (report_run run h _ _)]
  refine bind_of_error ?_
  exact bind_of_error (write_refused _ (.status t.status) below)

theorem idleFor_run (n : Nat) (enough : max 1 h.wfiBudget ≤ n) :
    (opsWith run).idleFor n h = .ok (.halted .parked) (h.waitedFor (max 1 h.wfiBudget)) := by
  induction n generalizing h with
  | zero => omega
  | succ n ih =>
    have left : h.waited.wfiBudget = h.wfiBudget - 1 := rfl
    have waits : (opsWith run).waitForInterrupt h = _ := waitForInterrupt_run h
    rw [left] at waits
    by_cases last : h.wfiBudget - 1 = 0
    · have once : max 1 h.wfiBudget = 1 := by omega
      rw [if_pos last] at waits
      rw [once]
      exact bind_of_ok waits
    · have more : max 1 h.wfiBudget = max 1 h.waited.wfiBudget + 1 := by omega
      rw [if_neg last] at waits
      rw [more]
      exact (bind_of_ok waits).trans (ih h.waited (by omega))

theorem idle_run : (opsWith run).idle h = .ok (.halted .parked) (h.waitedFor (max 1 h.wfiBudget)) := by
  unfold HartOps.idle
  rw [bind_of_ok (get_run h)]
  exact idleFor_run run h _ (Nat.le_refl _)

end

end HartBoot.Sim
