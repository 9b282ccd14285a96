import HartBoot.Proofs.Runs
import HartBoot.Sim.Run

/-!
The primitive operations of a simulated hart as functions from a hart to the hart afterwards. A machine-level
operation is its function in machine mode (`write_machine`, `land_machine`), and below machine mode it is refused and
the hart stays as it is (`write_refused`, `land_refused`).
-/
namespace HartBoot

/-- What a step of the setup asks of its address, if it has one. -/
def Setup.Fits : Setup → Prop
  | .zeroWord addr => Aligned Platform.clearStep addr
  | _ => True

namespace Sim
namespace Hart

def logged (h : Hart) (level : Log.Level) (message : String) : Hart :=
  h.remember (.logged ⟨level, message, ⟨none, none⟩⟩)

/-- A hart that has logged an event and recorded it. -/
def traced (h : Hart) (e : Event) : Hart :=
  (h.logged .trace ("sim hart " ++ decimal h.registers.hartId ++ ": " ++ inspect e)).remember (.event e)

/-- What a traced event adds to the history of the hart numbered `id`. -/
def trail (id : Word) (e : Event) : History :=
  [.logged ⟨.trace, "sim hart " ++ decimal id ++ ": " ++ inspect e, ⟨none, none⟩⟩, .event e]

def noted (h : Hart) (n : Note) : Hart := h.remember (.noted n h.snapshot)

def written (h : Hart) (value : RegisterWrite) : Hart :=
  { h with registers := h.registers.write value }.traced (.write value)

/-- The memory after a step of the setup. -/
def setupMemory (m : Memory) : Setup → Memory
  | .zeroWord addr => m.store addr 0
  | _ => m

def afterSetup (h : Hart) (step : Setup) : Hart :=
  { h with memory := setupMemory h.memory step, registers := h.registers.setup step }.traced (.setup step)

def filled (h : Hart) (addr value : Word) : Hart :=
  { h with memory := h.memory.store addr value }.remember (.filled addr value)

/-- A hart that a return from machine mode has taken to `entry`. -/
def landed (h : Hart) (resume : Resume) (status : Status) (entry : Word) : Hart :=
  { h.remember (.mret entry resume) with registers := h.registers.privilegeReturn status entry }.traced
    (.privilegeReturn status.previous entry h.registers.interruptsMasked)

/-- A hart whose routine at `entry` has returned. -/
def cameBack (h : Hart) (entry : Word) (resume : Resume) : Hart :=
  let back := h.traced (.routineReturned entry resume)
  { back with registers := { back.registers with pc := none } }

def waited (h : Hart) : Hart :=
  let after := h.traced .waitForInterrupt
  { after with wfiBudget := after.wfiBudget - 1 }

/-- A hart on which a routine starts, which is not registered meanwhile. -/
def started (h : Hart) (routine : Routine) : Hart :=
  { h with routines := RoutineTable.remove h.routines routine.entry }.noted
    (.entered routine.entry (routine.entered + 1))

/-- A hart on which a run of a routine has ended. -/
def ended (h : Hart) (routine : Routine) : Hart :=
  let counted : Routine := { routine with entered := routine.entered + 1 }
  { h with routines := RoutineTable.register h.routines counted }.noted (.left routine.entry routine.nextRun.exit)

/-! ### What each effect adds to the history -/

section
variable (h : Hart)

@[simp] theorem history_logged (level : Log.Level) (message : String) :
    (h.logged level message).history = h.history ++ [.logged ⟨level, message, ⟨none, none⟩⟩] :=
  history_remember h _

@[simp] theorem history_traced (e : Event) : (h.traced e).history = h.history ++ trail h.registers.hartId e := by
  simp [traced, trail]

@[simp] theorem history_noted (n : Note) : (h.noted n).history = h.history ++ [.noted n h.snapshot] :=
  history_remember h _

@[simp] theorem history_filled (addr value : Word) :
    (h.filled addr value).history = h.history ++ [.filled addr value] :=
  history_remember _ _

@[simp] theorem history_written (value : RegisterWrite) :
    (h.written value).history = h.history ++ trail h.registers.hartId (.write value) := by
  refine (history_traced _ _).trans ?_
  cases value <;> rfl

@[simp] theorem history_afterSetup (step : Setup) :
    (h.afterSetup step).history = h.history ++ trail h.registers.hartId (.setup step) := by
  refine (history_traced _ _).trans ?_
  cases step <;> rfl

@[simp] theorem history_landed (resume : Resume) (status : Status) (entry : Word) :
    (h.landed resume status entry).history = h.history ++ .mret entry resume ::
      trail h.registers.hartId (.privilegeReturn status.previous entry h.registers.interruptsMasked) := by
  refine (history_traced _ _).trans ?_
  change (h.remember (.mret entry resume)).history ++ _ = _
  rw [history_remember, List.append_assoc]
  rfl

@[simp] theorem history_cameBack (entry : Word) (resume : Resume) :
    (h.cameBack entry resume).history = h.history ++ trail h.registers.hartId (.routineReturned entry resume) :=
  history_traced _ _

@[simp] theorem history_waited : h.waited.history = h.history ++ trail h.registers.hartId .waitForInterrupt :=
  history_traced _ _

@[simp] theorem history_started (routine : Routine) : (h.started routine).history =
    h.history ++ [.noted (.entered routine.entry (routine.entered + 1)) h.snapshot] :=
  history_noted _ _

@[simp] theorem history_ended (routine : Routine) : (h.ended routine).history =
    h.history ++ [.noted (.left routine.entry routine.nextRun.exit) h.snapshot] :=
  history_noted _ _

@[simp] theorem events_trail (id : Word) (e : Event) : History.events (trail id e) = [e] := rfl

/-- What holds of everything logged and of the event holds of all that the event adds to a history. -/
theorem trail_all {p : Happening → Prop} (id : Word) {e : Event} (log : ∀ record, p (.logged record))
    (event : p (.event e)) : ∀ what ∈ trail id e, p what :=
  List.forall_mem_cons.mpr ⟨log _, List.forall_mem_singleton.mpr event⟩

@[simp] theorem events_logged (level : Log.Level) (message : String) : (h.logged level message).events = h.events := by
  simp [events, History.events]

@[simp] theorem events_traced (e : Event) : (h.traced e).events = h.events ++ [e] := by
  simp [events]

@[simp] theorem events_noted (n : Note) : (h.noted n).events = h.events := by
  simp [events, History.events]

@[simp] theorem events_filled (addr value : Word) : (h.filled addr value).events = h.events := by
  simp [events, History.events]

@[simp] theorem events_written (value : RegisterWrite) : (h.written value).events = h.events ++ [.write value] := by
  simp [events]

@[simp] theorem events_afterSetup (step : Setup) : (h.afterSetup step).events = h.events ++ [.setup step] := by
  simp [events]

@[simp] theorem events_landed (resume : Resume) (status : Status) (entry : Word) :
    (h.landed resume status entry).events =
      h.events ++ [.privilegeReturn status.previous entry h.registers.interruptsMasked] := by
  simp [events, History.events, trail]

@[simp] theorem events_cameBack (entry : Word) (resume : Resume) :
    (h.cameBack entry resume).events = h.events ++ [.routineReturned entry resume] := by
  simp [events]

@[simp] theorem events_waited : h.waited.events = h.events ++ [.waitForInterrupt] := by
  simp [events]

@[simp] theorem events_started (routine : Routine) : (h.started routine).events = h.events := by
  simp [events, History.events]

@[simp] theorem events_ended (routine : Routine) : (h.ended routine).events = h.events := by
  simp [events, History.events]

end

end Hart

section
variable (h : Hart)

@[simp] theorem note_run (n : Note) : note n h = .ok () (h.noted n) := rfl

@[simp] theorem setRoutines_run (f : RoutineTable → RoutineTable) :
    setRoutines f h = .ok () { h with routines := f h.routines } := rfl

theorem requireMachine_machine (what : String) (machine : h.registers.mode = .machine) :
    requireMachine what h = .ok () h := by
  simp [requireMachine, bind_run, machine]

theorem requireMachine_refused (what : String) (below : h.registers.mode ≠ .machine) :
    requireMachine what h = .error (.illegalAccess h.registers.hartId what h.registers.mode) h := by
  simp [requireMachine, bind_run, below]

theorem write_machine (value : RegisterWrite) (machine : h.registers.mode = .machine) :
    writeRegister value h = .ok () (h.written value) := by
  unfold writeRegister
  rw [bind_of_ok (requireMachine_machine h _ machine)]
  rfl

theorem write_refused (value : RegisterWrite) (below : h.registers.mode ≠ .machine) :
    writeRegister value h = .error (.illegalAccess h.registers.hartId value.text h.registers.mode) h := by
  unfold writeRegister
  exact bind_of_error (requireMachine_refused h _ below)

/-- A write is refused and the hart stays as it is, or it is made in machine mode. -/
theorem write_cases (value : RegisterWrite) : (∃ fault, writeRegister value h = .error fault h) ∨
    h.registers.mode = .machine ∧ writeRegister value h = .ok () (h.written value) := by
  by_cases machine : h.registers.mode = .machine
  · exact .inr ⟨machine, write_machine h value machine⟩
  · exact .inl ⟨_, write_refused h value machine⟩

theorem zeroWord_aligned {addr : Word} (aligned : Aligned Platform.clearStep addr) :
    zeroWord addr h = .ok () { h with memory := h.memory.store addr 0 } := by
  unfold zeroWord
  rw [if_neg (not_not_intro aligned)]
  rfl

theorem zeroWord_misaligned {addr : Word} (misaligned : ¬ Aligned Platform.clearStep addr) :
    zeroWord addr h = .error (.misalignedStore h.registers.hartId addr) h := by
  unfold zeroWord
  rw [if_pos misaligned]
  rfl

theorem setup_fits {step : Setup} (fits : step.Fits) : performSetup step h = .ok () (h.afterSetup step) := by
  unfold performSetup
  cases step with
  | zeroWord addr => exact bind_of_ok (zeroWord_aligned h fits)
  | bareAddressing => rfl
  | globalPointer value => rfl
  | stackPointer value => rfl

theorem setup_misaligned {addr : Word} (misaligned : ¬ Aligned Platform.clearStep addr) :
    performSetup (.zeroWord addr) h = .error (.misalignedStore h.registers.hartId addr) h := by
  unfold performSetup
  exact bind_of_error (zeroWord_misaligned h misaligned)

/-- A step of the setup faults and the hart stays as it is, or it is made. -/
theorem setup_cases (step : Setup) : (∃ fault, performSetup step h = .error fault h) ∨
    step.Fits ∧ performSetup step h = .ok () (h.afterSetup step) := by
  by_cases fits : step.Fits
  · exact .inr ⟨fits, setup_fits h fits⟩
  · cases step with
    | zeroWord addr => exact .inl ⟨_, setup_misaligned h fits⟩
    | _ => exact absurd trivial fits

theorem fillFrom_next {start addr : Word} (value : Word) {i : Nat} (words : Nat)
    (next : Word.add? start (i * Platform.clearStep) = some addr) :
    fillFrom start value i (words + 1) h = fillFrom start value (i + 1) words (h.filled addr value) := by
  rw [fillFrom, next]
  rfl

theorem fillFrom_overflow {start : Word} (value : Word) {i : Nat} (words : Nat)
    (past : Word.add? start (i * Platform.clearStep) = none) :
    fillFrom start value i (words + 1) h = .error .addressOverflow h := by
  rw [fillFrom, past]
  rfl

/-- What a fill does is what the words that it puts into memory do. -/
theorem fillFrom_relates {R : Hart → Hart → Prop} (start value : Word) (same : ∀ h, R h h)
    (further : ∀ {h after : Hart} (addr : Word), R (h.filled addr value) after → R h after) (i words : Nat) (h : Hart) :
    R h (stateAfter (fillFrom start value i words h)) := by
  induction words generalizing i h with
  | zero => exact same h
  | succ words ih =>
    cases next : Word.add? start (i * Platform.clearStep) with
    | none =>
      rw [fillFrom_overflow h value words next]
      exact same h
    | some addr =>
      rw [fillFrom_next h value words next]
      exact further addr (ih (i + 1) (h.filled addr value))

@[simp] theorem waitForInterrupt_run :
    waitForInterrupt h = .ok (if h.waited.wfiBudget = 0 then .halted .parked else .onward) h.waited := rfl

theorem land_machine (resume : Resume) {status : Status} {entry : Word} (machine : h.registers.mode = .machine)
    (decoded : Status.ofBits? h.registers.status = some status) (target : h.registers.epc = some entry) :
    land resume h = .ok entry (h.landed resume status entry) := by
  unfold land
  rw [bind_of_ok (requireMachine_machine h _ machine), bind_of_ok (get_run h)]
  simp only [decoded, target]
  rfl

theorem land_reserved (resume : Resume) (machine : h.registers.mode = .machine)
    (reserved : Status.ofBits? h.registers.status = none) :
    land resume h = .error (.reservedLevel h.registers.hartId) h := by
  unfold land
  rw [bind_of_ok (requireMachine_machine h _ machine), bind_of_ok (get_run h)]
  simp only [reserved]
  rfl

theorem land_untargeted (resume : Resume) {status : Status} (machine : h.registers.mode = .machine)
    (decoded : Status.ofBits? h.registers.status = some status) (unset : h.registers.epc = none) :
    land resume h = .error (.noReturnAddress h.registers.hartId) h := by
  unfold land
  rw [bind_of_ok (requireMachine_machine h _ machine), bind_of_ok (get_run h)]
  simp only [decoded, unset]
  rfl

theorem land_refused (resume : Resume) (below : h.registers.mode ≠ .machine) :
    land resume h = .error (.illegalAccess h.registers.hartId "mret" h.registers.mode) h := by
  unfold land
  exact bind_of_error (requireMachine_refused h _ below)

/-- A return from machine mode is refused and the hart stays as it is, or it lands. -/
theorem land_cases (resume : Resume) : (∃ fault, land resume h = .error fault h) ∨
    ∃ status entry, h.registers.mode = .machine ∧ Status.ofBits? h.registers.status = some status ∧
      h.registers.epc = some entry ∧ land resume h = .ok entry (h.landed resume status entry) := by
  by_cases machine : h.registers.mode = .machine
  · cases decoded : Status.ofBits? h.registers.status with
    | none => exact .inl ⟨_, land_reserved h resume machine decoded⟩
    | some status =>
      cases target : h.registers.epc with
      | none => exact .inl ⟨_, land_untargeted h resume machine decoded target⟩
      | some entry => exact .inr ⟨status, entry, machine, rfl, rfl, land_machine h resume machine decoded target⟩
  · exact .inl ⟨_, land_refused h resume machine⟩

end

section
variable {ops : ResetOps Fault Hart HaltReason} {routine : Routine} {h after : Hart}

/-- A run of a routine that faults half way leaves the routine unregistered. -/
theorem runRoutine_faulted {fault : Fault}
    (faulted : performNoted ops routine.nextRun.steps (h.started routine) = .error fault after) :
    runRoutine ops routine h = .error fault after := by
  unfold runRoutine
  rw [bind_of_ok (setRoutines_run h _), bind_of_ok (note_run _ _)]
  exact bind_of_error faulted

theorem runRoutine_ended {a : Unit}
    (ended : performNoted ops routine.nextRun.steps (h.started routine) = .ok a after) :
    runRoutine ops routine h = .ok routine.nextRun.exit (after.ended routine) := by
  unfold runRoutine
  rw [bind_of_ok (setRoutines_run h _), bind_of_ok (note_run _ _)]
  exact bind_of_ok ended

end

end Sim
end HartBoot
