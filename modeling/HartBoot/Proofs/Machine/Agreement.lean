import HartBoot.Machine.Script
import HartBoot.Proofs.Machine.Entry
import HartBoot.Proofs.Sim.ResetTrace

/-!
The simulated hart against the hart on the board. Both enter a routine by the same writes in the same order, each event
of the one being encoded by what the other does (`Encodes`), and no encoding loses a bit. Where the routines act alike,
so does a whole descent: its traces correspond and it ends in the same way (`harts_agree`).
-/
namespace HartBoot.Machine

/-- What the board does for an event of the simulated hart. A return from machine mode goes by a status that names the
    level of the event, and by a mask that is empty if no source is enabled. -/
inductive Encodes : Sim.Event → List Event → Prop
  | write (value : RegisterWrite) : Encodes (.write value) ((registerImage value).map fun w => .csr w.1 w.2)
  | privilegeReturn (status : Status) (entry : Word) (mask : InterruptMask) :
      Encodes (.privilegeReturn status.previous entry mask.isEmpty) [.mret entry status.bits mask.bits]
  | routineReturned (entry : Word) (resume : Resume) : Encodes (.routineReturned entry resume) [.returned entry]
  | waitForInterrupt : Encodes .waitForInterrupt [.waitForInterrupt]

/-- What the board does for a trace: what it does for each event, in order. -/
inductive EncodesTrace : List Sim.Event → List Event → Prop
  | nil : EncodesTrace [] []
  | cons {e : Sim.Event} {trace : List Sim.Event} {image rest : List Event} (first : Encodes e image)
      (others : EncodesTrace trace rest) : EncodesTrace (e :: trace) (image ++ rest)

/-- What a hart and a board have done since `h` and `b` corresponds. -/
def InStep (h : Sim.Hart) (b : Board) (h' : Sim.Hart) (b' : Board) : Prop :=
  ∃ trace image, h'.events = h.events ++ trace ∧ b'.events = b.events ++ image ∧ EncodesTrace trace image

/-- A hart and a board between which a boot sees no difference: they may wait equally often, and nobody holds the
    console. -/
structure Alike (h : Sim.Hart) (b : Board) : Prop where
  budget : h.wfiBudget = b.wfiBudget
  free : b.console.locked = false

/-- How entering `t` on the one and on the other compares, when its routine starts on `started` and `entered`. -/
structure EntersAlike (t : Transition) (h : Sim.Hart) (b : Board) (started : Sim.Hart) (entered : Board) : Prop where
  events : started.events = h.events ++
    (t.writes.map .write ++ [.privilegeReturn t.mode t.entry t.interruptEnable.isEmpty])
  registers : entered.events = b.events ++ (((t.writes.flatMap registerImage).map fun w => .csr w.1 w.2) ++
    [.mret t.entry t.status.bits t.interruptEnable.bits])
  encodes : EncodesTrace (t.writes.map .write ++ [.privilegeReturn t.mode t.entry t.interruptEnable.isEmpty])
    (((t.writes.flatMap registerImage).map fun w => .csr w.1 w.2) ++
      [.mret t.entry t.status.bits t.interruptEnable.bits])
  /-- The registers take every bit that is written. -/
  whole : ∀ value ∈ t.writes, encode value = .ok (registerImage value)
  /-- The protection entries that share the configuration register stay off. -/
  others : ∀ e, t.pmp = some e → e.configBits >>> 8 = 0
  simulated : ∀ run, (Sim.opsWith run).enter t h = (run t.entry >>= Sim.leave t.entry t.resume) started
  real : ∀ run, (opsWith run).enter t b = (run t.entry >>= fun _ => leave t.entry t.resume) entered

/-- Runs of a routine from `h` and from `b` that end alike, `kept` holding of a hart and a board that come back. -/
inductive RoutineRuns (h : Sim.Hart) (b : Board) (kept : Sim.Hart → Board → Prop) :
    EStateM.Result Fault Sim.Hart Sim.Exit → EStateM.Result Stop Board Unit → Prop
  | returned {h' : Sim.Hart} {b' : Board} (step : InStep h b h' b') (holds : kept h' b') :
      RoutineRuns h b kept (.ok .returns h') (.ok () b')
  | diverged {h' : Sim.Hart} {b' : Board} (step : InStep h b h' b') :
      RoutineRuns h b kept (.ok .diverges h') (.error (.ended .diverged) b')
  | faulted {e f : Fault} {h' : Sim.Hart} {b' : Board} (step : InStep h b h' b') :
      RoutineRuns h b kept (.error e h') (.error (.fault f) b')

/-- A routine that acts alike at a level on every hart and board that are alike, the hart with a table of routines as
    `before` says; a hart that comes back is at its level still, with a table as `after` says. -/
def RoutinesAlike (mode : PrivilegeMode) (before after : Sim.RoutineTable → Prop) (x : Sim.HartM Sim.Exit)
    (y : BoardM Unit) : Prop :=
  ∀ h b, h.registers.mode = mode → before h.routines → Alike h b →
    RoutineRuns h b (fun h' b' => h'.registers.mode = mode ∧ after h'.routines ∧ Alike h' b') (x h) (y b)

/-- Boots from `h` and from `b` that end alike: parked, in a routine that does not come back, or at a fault. -/
inductive BootRuns (h : Sim.Hart) (b : Board) :
    EStateM.Result Fault Sim.Hart (Flow Sim.HaltReason) → EStateM.Result Stop Board (Flow Empty) → Prop
  | parked {h' : Sim.Hart} {b' : Board} (step : InStep h b h' b') :
      BootRuns h b (.ok (.halted .parked) h') (.error (.ended .parked) b')
  | diverged {entry : Word} {h' : Sim.Hart} {b' : Board} (step : InStep h b h' b') :
      BootRuns h b (.ok (.halted (.diverged entry)) h') (.error (.ended .diverged) b')
  | faulted {e f : Fault} {h' : Sim.Hart} {b' : Board} (step : InStep h b h' b') :
      BootRuns h b (.error e h') (.error (.fault f) b')

/-! ### Traces that correspond -/

theorem EncodesTrace.single {e : Sim.Event} {image : List Event} (first : Encodes e image) : EncodesTrace [e] image := by
  rw [← List.append_nil image]
  exact .cons first .nil

theorem EncodesTrace.append {trace more : List Sim.Event} {image rest : List Event}
    (first : EncodesTrace trace image) (others : EncodesTrace more rest) :
    EncodesTrace (trace ++ more) (image ++ rest) := by
  induction first with
  | nil => exact others
  | cons head _ ih =>
    rw [List.cons_append, List.append_assoc]
    exact .cons head ih

theorem encodes_writes (values : List RegisterWrite) :
    EncodesTrace (values.map .write) ((values.flatMap registerImage).map fun w => .csr w.1 w.2) := by
  induction values with
  | nil => exact .nil
  | cons value values ih =>
    rw [List.flatMap_cons, List.map_append]
    exact .cons (.write value) ih

theorem encodes_waits (n : Nat) :
    EncodesTrace (List.replicate n .waitForInterrupt) (List.replicate n .waitForInterrupt) := by
  induction n with
  | zero => exact .nil
  | succ n ih => exact .cons .waitForInterrupt ih

section
variable {h h' h'' : Sim.Hart} {b b' b'' : Board}

theorem inStep_same (events : h'.events = h.events) (registers : b'.events = b.events) : InStep h b h' b' :=
  ⟨[], [], by rw [events, List.append_nil], by rw [registers, List.append_nil], .nil⟩

theorem InStep.trans (first : InStep h b h' b') (second : InStep h' b' h'' b'') : InStep h b h'' b'' := by
  obtain ⟨trace, image, events, registers, encodes⟩ := first
  obtain ⟨more, rest, moreEvents, moreRegisters, others⟩ := second
  refine ⟨trace ++ more, image ++ rest, ?_, ?_, encodes.append others⟩
  · rw [moreEvents, events, List.append_assoc]
  · rw [moreRegisters, registers, List.append_assoc]

end

theorem InStep.before {h h' : Sim.Hart} {b b' : Board} (first : InStep h b h' b')
    {result : EStateM.Result Fault Sim.Hart (Flow Sim.HaltReason)} {outcome : EStateM.Result Stop Board (Flow Empty)}
    (rest : BootRuns h' b' result outcome) : BootRuns h b result outcome := by
  cases rest with
  | parked step => exact .parked (first.trans step)
  | diverged step => exact .diverged (first.trans step)
  | faulted step => exact .faulted (first.trans step)

theorem cameBack_inStep (h : Sim.Hart) (b : Board) (entry : Word) (resume : Resume) :
    InStep h b (h.cameBack entry resume) (b.trace (.returned entry)) :=
  ⟨_, _, h.events_cameBack entry resume, b.events_trace _, .single (.routineReturned entry resume)⟩

theorem waited_inStep (h : Sim.Hart) (b : Board) (n : Nat) : InStep h b (h.waitedFor n) (b.waitedFor n) :=
  ⟨_, _, h.events_waitedFor n, b.events_waitedFor n, encodes_waits n⟩

theorem encodes_entry (t : Transition) :
    EncodesTrace (t.writes.map .write ++ [.privilegeReturn t.mode t.entry t.interruptEnable.isEmpty])
      (((t.writes.flatMap registerImage).map fun w => .csr w.1 w.2) ++
        [.mret t.entry t.status.bits t.interruptEnable.bits]) := by
  have landed : Encodes (.privilegeReturn t.mode t.entry t.interruptEnable.isEmpty)
      [.mret t.entry t.status.bits t.interruptEnable.bits] := .privilegeReturn t.status t.entry t.interruptEnable
  exact (encodes_writes t.writes).append (.single landed)

theorem EntersAlike.inStep {t : Transition} {h started : Sim.Hart} {b entered : Board}
    (enters : EntersAlike t h b started entered) : InStep h b started entered :=
  ⟨_, _, enters.events, enters.registers, enters.encodes⟩

theorem entered_alike {h : Sim.Hart} {b : Board} (alike : Alike h b) {c : Console} (unlocked : c.locked = false)
    (t : Transition) : Alike (h.entered t) ((b.said c).entered t) := by
  obtain ⟨_, _, _, console, budget⟩ := (b.said c).prepared_state t
  constructor
  · exact (h.entered_keeps t).2.trans (alike.budget.trans budget.symm)
  · exact (congrArg Console.locked console).trans unlocked

/-- Entering a transition of named bits and an aligned trap vector compares on every hart and board. -/
theorem enters_alike {t : Transition} (known : t.status.flags.unnamed = 0)
    (aligned : ∀ v, t.trapVector = some v → v.IsAligned) {h : Sim.Hart} {b : Board}
    (machine : h.registers.mode = .machine) (free : b.console.locked = false) :
    ∃ c : Console, c.locked = false ∧ EntersAlike t h b (h.entered t) ((b.said c).entered t) := by
  have fits := writes_fit known aligned
  obtain ⟨c, unlocked, told⟩ := report_free free .trace ("mret to " ++ hex t.entry ++ " in " ++ inspect t.mode ++ " mode")
  refine ⟨c, unlocked, h.events_entered t, ?_, encodes_entry t, ?_, ?_, ?_, ?_⟩
  · rw [(b.said c).events_entered t, List.append_assoc]
    rfl
  · exact fun value member => encode_fits (fits value member)
  · exact fun e _ => configBits_others e
  · exact fun run => Sim.enter_machine run h t machine
  · exact fun run => enter_fits run fits (told run)

section
variable {simRun : Word → Sim.HartM Sim.Exit} {run : Word → BoardM Unit} {before after : Sim.RoutineTable → Prop}

/-- Entering `t` from `h` and from `b`, up to where the routine has come back or to an end that is alike. -/
inductive EnterRuns (t : Transition) (h : Sim.Hart) (b : Board) (kept : Sim.Hart → Board → Prop) :
    EStateM.Result Fault Sim.Hart (Flow Sim.HaltReason) → EStateM.Result Stop Board (Flow Empty) → Prop
  | onward {h' : Sim.Hart} {b' : Board} (step : InStep h b h' b') (holds : kept h' b') :
      EnterRuns t h b kept (.ok .onward (h'.cameBack t.entry t.resume)) (leave t.entry t.resume b')
  | diverged {h' : Sim.Hart} {b' : Board} (step : InStep h b h' b') :
      EnterRuns t h b kept (.ok (.halted (.diverged t.entry)) h') (.error (.ended .diverged) b')
  | faulted {e f : Fault} {h' : Sim.Hart} {b' : Board} (step : InStep h b h' b') :
      EnterRuns t h b kept (.error e h') (.error (.fault f) b')

theorem enter_runs {t : Transition} (known : t.status.flags.unnamed = 0)
    (aligned : ∀ v, t.trapVector = some v → v.IsAligned)
    (routine : RoutinesAlike t.mode before after (simRun t.entry) (run t.entry)) {h : Sim.Hart} {b : Board}
    (machine : h.registers.mode = .machine) (table : before h.routines) (alike : Alike h b) :
    EnterRuns t h b (fun h' b' => h'.registers.mode = t.mode ∧ after h'.routines ∧ Alike h' b')
      ((Sim.opsWith simRun).enter t h) ((opsWith run).enter t b) := by
  obtain ⟨c, unlocked, enters⟩ := enters_alike known aligned machine alike.free
  have registered : before (h.entered t).routines := by
    rw [(h.entered_keeps t).1]
    exact table
  have runs := routine _ _ rfl registered (entered_alike alike unlocked t)
  rw [enters.simulated simRun, enters.real run]
  generalize ranSim : simRun t.entry (h.entered t) = result at runs
  generalize ran : run t.entry ((b.said c).entered t) = outcome at runs
  cases runs with
  | returned step holds =>
    rw [bind_of_ok ranSim, bind_of_ok ran]
    exact .onward (enters.inStep.trans step) holds
  | diverged step =>
    rw [bind_of_ok ranSim, bind_of_error ran]
    exact .diverged (enters.inStep.trans step)
  | faulted step =>
    rw [bind_of_error ranSim, bind_of_error ran]
    exact .faulted (enters.inStep.trans step)

variable {h : Sim.Hart} {b : Board} (machine : h.registers.mode = .machine) (table : before h.routines)
  (alike : Alike h b)
include machine table alike

/-- Going through a routine that acts alike, when what follows its return is alike. -/
theorem through_runs {t : Transition} (known : t.status.flags.unnamed = 0)
    (aligned : ∀ v, t.trapVector = some v → v.IsAligned)
    (routine : RoutinesAlike t.mode before after (simRun t.entry) (run t.entry)) (announcement : String)
    {next : Sim.HartM (Flow Sim.HaltReason)} {nextReal : BoardM (Flow Empty)}
    (rest : ∀ h' b', h'.registers.mode = t.mode → after h'.routines → Alike h' b' →
      BootRuns h' b' (next (h'.cameBack t.entry t.resume)) ((leave t.entry t.resume >>= Boot.proceed nextReal) b')) :
    BootRuns h b (Boot.runThrough (Sim.opsWith simRun).toHartOps announcement t next h)
      (Boot.runThrough (opsWith run) announcement t nextReal b) := by
  obtain ⟨c, free, said⟩ := report_free alike.free .debug announcement
  have told := Sim.report_run simRun h .debug announcement
  have start : InStep h b (h.reported .debug announcement) (b.said c) := inStep_same (h.events_reported _ _) rfl
  have ready : (h.reported .debug announcement).registers.mode = .machine := machine
  have runs := enter_runs known aligned routine ready table (b := b.said c) ⟨alike.budget, free⟩
  generalize ranSim : (Sim.opsWith simRun).enter t _ = result at runs
  generalize ran : (opsWith run).enter t _ = outcome at runs
  cases runs with
  | faulted step =>
    rw [Boot.runThrough_faulted told ranSim, Boot.runThrough_faulted (said run) ran]
    exact .faulted (start.trans step)
  | diverged step =>
    rw [Boot.runThrough_entered told ranSim, Boot.runThrough_faulted (said run) ran]
    exact .diverged (start.trans step)
  | @onward h' b' step holds =>
    obtain ⟨level, registered, still⟩ := holds
    have goes : Boot.runThrough (opsWith run) announcement t nextReal b =
        (leave t.entry t.resume >>= Boot.proceed nextReal) b' :=
      (bind_of_ok (said run)).trans (bind_of_same ran)
    rw [Boot.runThrough_entered told ranSim, goes]
    exact (start.trans step).before (rest h' b' level registered still)

variable {l : Layout} {later : Sim.RoutineTable → Prop}

theorem runMain_runs (main : RoutinesAlike .supervisor before after (simRun l.main) (run l.main)) :
    BootRuns h b (Boot.runMain (Sim.opsWith simRun).toHartOps l h) (Boot.runMain (opsWith run) l b) := by
  have known : Transition.mainStatus.flags.unnamed = 0 := by decide
  refine through_runs (t := .main l) machine table alike known (fun _ none => nomatch none) main _ ?_
  intro h' b' _ _ still
  have parks : (leave l.main .idle >>= Boot.proceed (opsWith run).idle) b' = .error (.ended .parked)
      ((b'.trace (.returned l.main)).waitedFor (max 1 (h'.cameBack l.main .idle).wfiBudget)) := by
    have budget : (h'.cameBack l.main .idle).wfiBudget = b'.wfiBudget := still.budget
    rw [bind_of_error (leave_idle l.main b'), budget]
  have idles := Sim.idle_run simRun (h'.cameBack l.main .idle)
  have back := cameBack_inStep h' b' l.main .idle
  have ends := BootRuns.parked (back.trans (waited_inStep _ _ (max 1 (h'.cameBack l.main .idle).wfiBudget)))
  rw [← idles, ← parks] at ends
  exact ends

theorem runRoutines_runs (aligned : l.trapVector.IsAligned)
    (earlyInit : RoutinesAlike .machine before later (simRun l.earlyInit) (run l.earlyInit))
    (main : RoutinesAlike .supervisor later after (simRun l.main) (run l.main)) :
    BootRuns h b (Boot.runRoutines (Sim.opsWith simRun).toHartOps l h) (Boot.runRoutines (opsWith run) l b) := by
  have known : Transition.earlyInitStatus.flags.unnamed = 0 := by decide
  have vector : ∀ v, (Transition.earlyInit l).trapVector = some v → v.IsAligned := by
    intro v installed
    cases installed
    exact aligned
  refine through_runs (t := .earlyInit l) machine table alike known vector earlyInit _ ?_
  intro h' b' level registered still
  have rest := runMain_runs (h := h'.cameBack l.earlyInit .caller) (b := b'.trace (.returned l.earlyInit)) level
    registered ⟨still.budget, still.free⟩ main
  exact (cameBack_inStep h' b' l.earlyInit .caller).before rest

end

/-- The two harts agree. A transition whose status has no bits without a name and whose trap vector, if it has one, is
    aligned is entered on both by the same writes in the same order, without the loss of a bit. A descent through
    routines that act alike does what corresponds on both and ends alike, if the trap vector is aligned. -/
theorem harts_agree :
    (∀ t : Transition, t.status.flags.unnamed = 0 → (∀ v, t.trapVector = some v → v.IsAligned) →
      ∀ (h : Sim.Hart) (b : Board), h.registers.mode = .machine → b.console.locked = false →
        ∃ started entered, EntersAlike t h b started entered) ∧
    ∀ l : Layout, l.trapVector.IsAligned → ∀ (simRun : Word → Sim.HartM Sim.Exit) (run : Word → BoardM Unit)
      (before later after : Sim.RoutineTable → Prop),
      RoutinesAlike .machine before later (simRun l.earlyInit) (run l.earlyInit) →
      RoutinesAlike .supervisor later after (simRun l.main) (run l.main) →
      ∀ (h : Sim.Hart) (b : Board), h.registers.mode = .machine → before h.routines → Alike h b →
        BootRuns h b ((Boot.afterPrologue l).descend (Sim.opsWith simRun).toHartOps h)
          ((Boot.afterPrologue l).descend (opsWith run) b) := by
  constructor
  · intro t known aligned h b machine free
    obtain ⟨c, _, enters⟩ := enters_alike known aligned machine free
    exact ⟨_, _, enters⟩
  · intro l aligned simRun run before later after earlyInit main h b machine table alike
    rw [Boot.descend_awaiting, Boot.descend_awaiting]
    exact runRoutines_runs machine table alike aligned earlyInit main

/-- A scripted routine without steps is registered again and changes nothing else that a boot can tell. -/
theorem runRoutine_still {routine : Sim.Routine} (still : routine.nextRun.steps = [])
    (ops : ResetOps Fault Sim.Hart Sim.HaltReason) (h : Sim.Hart) :
    ∃ after : Sim.Hart, Sim.runRoutine ops routine h = .ok routine.nextRun.exit after ∧ after.events = h.events ∧
      after.registers = h.registers ∧ after.wfiBudget = h.wfiBudget ∧ after.routines =
        (Sim.RoutineTable.remove h.routines routine.entry).register { routine with entered := routine.entered + 1 } := by
  have nothing : ∀ h, Sim.performNoted ops routine.nextRun.steps h = .ok () h := by
    intro h
    rw [still]
    rfl
  refine ⟨_, Sim.runRoutine_ended (nothing _), ?_, rfl, rfl, rfl⟩
  rw [Sim.Hart.events_ended, Sim.Hart.events_started]

/-- A scripted routine without steps acts like one on the board that comes back at once, or does not come back. -/
theorem simple_alike {table : Sim.RoutineTable} {entry : Word} {routine : Sim.Routine}
    (found : Sim.RoutineTable.lookup table entry = some routine) (still : routine.nextRun.steps = [])
    {divergent : List Word} (exits : routine.nextRun.exit = if entry ∈ divergent then .diverges else .returns)
    (n : Nat) (mode : PrivilegeMode) :
    RoutinesAlike mode (· = table)
      (· = (table.remove routine.entry).register { routine with entered := routine.entered + 1 })
      (Sim.routineAt (n + 1) entry) (simpleRoutine divergent entry) := by
  intro h b level registered alike
  obtain ⟨after, ran, events, registers, budget, routines⟩ := runRoutine_still still (Sim.opsAt n) h
  have run : Sim.routineAt (n + 1) entry h = .ok routine.nextRun.exit after := by
    change Sim.runAt (Sim.opsAt n) entry h = _
    unfold Sim.runAt
    rw [bind_of_ok (get_run h), registered, found]
    exact ran
  rw [run, exits, simpleRoutine]
  by_cases lost : entry ∈ divergent
  · rw [if_pos lost, if_pos lost]
    exact .diverged (inStep_same events rfl)
  · rw [if_neg lost, if_neg lost]
    refine .returned (inStep_same events rfl) ⟨?_, ?_, ?_, alike.free⟩
    · rw [registers]
      exact level
    · rw [routines, registered]
    · exact budget.trans alike.budget

/-- A hart whose early initialisation comes back at once and whose main routine does not come back. -/
def simpleHart : Sim.Hart :=
  .new Platform.bootHart [⟨0x100, [⟨[], .returns⟩], 0⟩, ⟨0x200, [⟨[], .diverges⟩], 0⟩] 3

def simpleBoard : Board := .atReset Platform.bootHart 3 ⟨none, none⟩

theorem harts_agree_simple :
    (∃ started entered, EntersAlike (.main Sim.smallLayout) simpleHart simpleBoard started entered) ∧
      Sim.smallLayout.trapVector.IsAligned ∧
      BootRuns simpleHart simpleBoard
        ((Boot.afterPrologue Sim.smallLayout).descend (Sim.opsWith (Sim.routineAt 2)).toHartOps simpleHart)
        ((Boot.afterPrologue Sim.smallLayout).descend (opsWith (simpleRoutine [0x200])) simpleBoard) := by
  refine ⟨?_, by decide, ?_⟩
  · exact harts_agree.1 (.main Sim.smallLayout) (by decide) (fun _ none => nomatch none) simpleHart simpleBoard rfl rfl
  · exact harts_agree.2 Sim.smallLayout (by decide) _ _ _ _ _ (simple_alike rfl rfl rfl 1 .machine)
      (simple_alike rfl rfl rfl 1 .supervisor) simpleHart simpleBoard rfl rfl ⟨rfl, rfl⟩

end HartBoot.Machine
