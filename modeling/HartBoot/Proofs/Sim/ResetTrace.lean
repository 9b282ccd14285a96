import HartBoot.Proofs.Boot.Clearing
import HartBoot.Proofs.Sim.Changes
import HartBoot.Proofs.Sim.Depth
import HartBoot.Proofs.Sim.Entry

/-!
The trace of a whole boot. On the elected hart it is the setup, the entry of early initialisation and what that routine
does itself, the entry of the main routine and what that does itself, and the waits in which the hart parks; it is cut
short where a routine faults, does not come back or leaves machine mode (`reset_trace`).
-/
namespace HartBoot.Sim

/-- The events of setting a hart up. -/
def setupTrace (l : Layout) : List Event :=
  [.setup .bareAddressing, .setup (.globalPointer l.globalPointer)] ++
    l.bss.words.map (fun addr => .setup (.zeroWord addr)) ++ [.setup (.stackPointer l.stackEnd)]

/-- The events of entering early initialisation. -/
def earlyInitTrace (l : Layout) : List Event :=
  [.write (.status Transition.earlyInitStatus), .write (.epc l.earlyInit), .write (.trapVector l.trapVector),
    .write (.interruptEnable .empty), .privilegeReturn .machine l.earlyInit true]

/-- The events of entering the main routine. -/
def mainTrace (l : Layout) : List Event :=
  [.write (.status Transition.mainStatus), .write (.epc l.main), .write (.interruptEnable Transition.mainInterrupts),
    .write (.pmp Transition.openPmp), .privilegeReturn .supervisor l.main false]

namespace Hart
variable (h : Hart) (l : Layout)

def setUp : Hart := l.setup.foldl afterSetup h

/-- A hart on which early initialisation starts after the setup. -/
def atEarlyInit : Hart :=
  ((h.setUp l).reported .debug ("entering early init at " ++ hex l.earlyInit)).entered (.earlyInit l)

/-- A hart that goes on to the main routine when early initialisation has returned. -/
def pastEarlyInit : Hart :=
  (h.cameBack l.earlyInit .caller).reported .debug ("early init done, entering main at " ++ hex l.main)

/-- A hart that has parked when the main routine has returned. -/
def pastMain : Hart := (h.cameBack l.main .idle).waitedFor (max 1 h.wfiBudget)

/-- What steps of the setup do not touch. -/
theorem foldl_afterSetup (steps : List Setup) (h : Hart) :
    (steps.foldl afterSetup h).events = h.events ++ steps.map .setup ∧
      (steps.foldl afterSetup h).registers.mode = h.registers.mode ∧
      (steps.foldl afterSetup h).routines = h.routines := by
  induction steps generalizing h with
  | nil => simp
  | cons step steps ih =>
    obtain ⟨events, mode, routines⟩ := ih (h.afterSetup step)
    refine ⟨?_, mode.trans ?_, routines⟩
    · rw [List.foldl_cons, events, events_afterSetup, List.append_assoc]
      rfl
    · cases step <;> rfl

theorem events_atEarlyInit : (h.atEarlyInit l).events = h.events ++ setupTrace l ++ earlyInitTrace l := by
  obtain ⟨events, _, _⟩ := foldl_afterSetup l.setup h
  rw [atEarlyInit, events_entered, events_reported, setUp, events, Layout.setup, setupTrace]
  simp
  rfl

theorem events_pastEarlyInit : (h.pastEarlyInit l).events = h.events ++ [.routineReturned l.earlyInit .caller] := by
  rw [pastEarlyInit, events_reported, events_cameBack]

theorem events_main :
    ((h.pastEarlyInit l).entered (.main l)).events =
      h.events ++ .routineReturned l.earlyInit .caller :: mainTrace l := by
  rw [events_entered, events_pastEarlyInit, List.append_assoc]
  rfl

theorem events_pastMain : (h.pastMain l).events = h.events ++ .routineReturned l.main .idle ::
    List.replicate (max 1 h.wfiBudget) .waitForInterrupt := by
  rw [pastMain, events_waitedFor, events_cameBack, List.append_assoc]
  rfl

end Hart

/-- How a boot ends that has entered the main routine on `started`. -/
def MainEnds (n : Nat) (l : Layout) (started : Hart) (result : EStateM.Result Fault Hart (Flow HaltReason)) : Prop :=
  started.events <+: (stateAfter (runAt (opsAt n) l.main started)).events ∧
    match runAt (opsAt n) l.main started with
    | .error fault after => result = .error fault after
    | .ok .diverges after => result = .ok (.halted (.diverged l.main)) after
    | .ok .returns back =>
      result = .ok (.halted .parked) (back.pastMain l) ∧
        (back.pastMain l).events = back.events ++ .routineReturned l.main .idle ::
          List.replicate (max 1 back.wfiBudget) .waitForInterrupt

/-- How a boot goes on that has entered early initialisation on `started`. -/
def EarlyInitEnds (n : Nat) (l : Layout) (started : Hart) (result : EStateM.Result Fault Hart (Flow HaltReason)) :
    Prop :=
  started.events <+: (stateAfter (runAt (opsAt n) l.earlyInit started)).events ∧
    match runAt (opsAt n) l.earlyInit started with
    | .error fault after => result = .error fault after
    | .ok .diverges after => result = .ok (.halted (.diverged l.earlyInit)) after
    | .ok .returns back =>
      if back.registers.mode = .machine then
        ((back.pastEarlyInit l).entered (.main l)).events =
            back.events ++ .routineReturned l.earlyInit .caller :: mainTrace l ∧
          MainEnds n l ((back.pastEarlyInit l).entered (.main l)) result
      else ∃ refused, result = .error (.illegalAccess back.registers.hartId "mstatus write" back.registers.mode) refused ∧
        refused.events = back.events ++ [.routineReturned l.earlyInit .caller]

theorem setup_run (steps : List Setup) (fits : ∀ step ∈ steps, step.Fits) (h : Hart) :
    steps.forM performSetup h = .ok () (steps.foldl Hart.afterSetup h) :=
  (forM_of_ok (fun _ => True) trivial fun step member h _ => ⟨setup_fits h (fits step member), trivial⟩).1

theorem setup_fits_clearable {l : Layout} (clearable : l.bss.Clearable) : ∀ step ∈ l.setup, step.Fits := by
  intro step member
  simp only [Layout.setup, List.mem_append, List.mem_cons, List.mem_map, List.not_mem_nil, or_false] at member
  rcases member with ((rfl | rfl) | ⟨addr, inside, rfl⟩) | rfl
  · exact trivial
  · exact trivial
  · exact BssRegion.clearable_words clearable inside
  · exact trivial

theorem prologue_run {l : Layout} (clearable : l.bss.Clearable) (n : Nat) (h : Hart) :
    Boot.prologue (opsAt n) l h = .ok () (h.setUp l) := by
  rw [Boot.prologue_eq (opsAt n) clearable, opsAt_eq]
  exact setup_run l.setup (setup_fits_clearable clearable) h

section
variable {n : Nat} {announcement : String} {t : Transition} {next : HartM (Flow HaltReason)} {h after : Hart}
  (machine : h.registers.mode = .machine) (deep : h.routines.length ≤ n)
include machine deep

omit machine in
theorem entered_routines (announcement : String) (t : Transition) :
    ((h.reported .debug announcement).entered t).routines.length ≤ n := by
  rw [(Hart.entered_keeps _ t).1]
  exact deep

omit machine in
theorem routineAt_entered (announcement : String) (t : Transition) :
    routineAt n t.entry ((h.reported .debug announcement).entered t) =
      runAt (opsAt n) t.entry ((h.reported .debug announcement).entered t) :=
  routineAt_depth (entered_routines deep announcement t) t.entry

omit machine in
theorem returned_routines {exit : Exit}
    (ran : runAt (opsAt n) t.entry ((h.reported .debug announcement).entered t) = .ok exit after) :
    after.routines.length ≤ n := by
  have fits := entered_routines deep announcement t
  have left := runAt_routines (Nat.le_succ_of_le fits) t.entry
  rw [ran] at left
  exact Nat.le_trans left fits

theorem through_faulted {fault : Fault}
    (ran : runAt (opsAt n) t.entry ((h.reported .debug announcement).entered t) = .error fault after) :
    Boot.runThrough (opsWith (routineAt n)).toHartOps announcement t next h = .error fault after := by
  have ready : (h.reported .debug announcement).registers.mode = .machine := machine
  have entry := enter_faulted ready ((routineAt_entered deep announcement t).trans ran)
  exact Boot.runThrough_faulted (report_run _ h .debug announcement) entry

theorem through_diverged
    (ran : runAt (opsAt n) t.entry ((h.reported .debug announcement).entered t) = .ok .diverges after) :
    Boot.runThrough (opsWith (routineAt n)).toHartOps announcement t next h =
      .ok (.halted (.diverged t.entry)) after := by
  have ready : (h.reported .debug announcement).registers.mode = .machine := machine
  have entry := enter_diverged ready ((routineAt_entered deep announcement t).trans ran)
  exact Boot.runThrough_entered (report_run _ h .debug announcement) entry

theorem through_returned
    (ran : runAt (opsAt n) t.entry ((h.reported .debug announcement).entered t) = .ok .returns after) :
    Boot.runThrough (opsWith (routineAt n)).toHartOps announcement t next h =
      next (after.cameBack t.entry t.resume) := by
  have ready : (h.reported .debug announcement).registers.mode = .machine := machine
  have entry := enter_returned ready ((routineAt_entered deep announcement t).trans ran)
  exact Boot.runThrough_entered (report_run _ h .debug announcement) entry

end

section
variable {n : Nat} (l : Layout) {h : Hart} (machine : h.registers.mode = .machine) (deep : h.routines.length ≤ n)
include machine deep

theorem runMain_ends : MainEnds n l ((h.pastEarlyInit l).entered (.main l))
    (Boot.runMain (opsWith (routineAt n)).toHartOps l (h.cameBack l.earlyInit .caller)) := by
  have ready : (h.cameBack l.earlyInit .caller).registers.mode = .machine := machine
  have small : (h.cameBack l.earlyInit .caller).routines.length ≤ n := deep
  refine ⟨runAt_events n l.main _, ?_⟩
  cases ran : runAt (opsAt n) l.main ((h.pastEarlyInit l).entered (.main l)) with
  | error fault after => exact through_faulted ready small ran
  | ok exit back =>
    cases exit with
    | diverges => exact through_diverged ready small ran
    | returns =>
      have past := (through_returned ready small ran).trans (idle_run (routineAt n) (back.cameBack l.main .idle))
      exact ⟨past, back.events_pastMain l⟩

theorem runRoutines_ends :
    EarlyInitEnds n l ((h.reported .debug ("entering early init at " ++ hex l.earlyInit)).entered (.earlyInit l))
      (Boot.runRoutines (opsWith (routineAt n)).toHartOps l h) := by
  refine ⟨runAt_events n l.earlyInit _, ?_⟩
  cases ran : runAt (opsAt n) l.earlyInit
    ((h.reported .debug ("entering early init at " ++ hex l.earlyInit)).entered (.earlyInit l)) with
  | error fault after => exact through_faulted machine deep ran
  | ok exit back =>
    cases exit with
    | diverges => exact through_diverged machine deep ran
    | returns =>
      have onward : Boot.runRoutines (opsWith (routineAt n)).toHartOps l h =
          Boot.runMain (opsWith (routineAt n)).toHartOps l (back.cameBack l.earlyInit .caller) :=
        through_returned machine deep ran
      have left : back.routines.length ≤ n := returned_routines (t := .earlyInit l) deep ran
      dsimp only
      rw [onward]
      by_cases kept : back.registers.mode = .machine
      · rw [if_pos kept]
        exact ⟨back.events_main l, runMain_ends l kept left⟩
      · have refused := enter_refused (routineAt n) (back.pastEarlyInit l) (.main l) kept
        -- The refused write is the first of the main routine's entry, so nothing of it is traced.
        rw [if_neg kept]
        refine ⟨_, Boot.runThrough_faulted (report_run _ _ .debug _) refused, ?_⟩
        rw [Hart.events_reported, Hart.events_pastEarlyInit]

end

/-- On the elected hart a reset is the setup and then the routines. -/
theorem reset_run (n : Nat) {l : Layout} {h : Hart} (elected : IsBootHart h.registers.hartId)
    (clearable : l.bss.Clearable) :
    (Boot.new l).reset (opsAt n) h = Boot.runRoutines (opsWith (routineAt n)).toHartOps l (h.setUp l) := by
  have boot : IsBootHart ((opsAt n).hartId h) := by
    rw [opsAt_hartId]
    exact elected
  rw [Boot.reset_elected (opsAt n) l boot, bind_of_ok (prologue_run clearable n h), Boot.descend_awaiting, opsAt_eq]

/-- The trace of a boot from reset on. After the setup and the entry of early initialisation come that routine's own
    events. A fault of it or its not coming back ends the trace; so does a return below machine mode, with the boot
    refused the first write. Otherwise the main routine is entered, with the same endings, and the hart parks when that
    has returned. -/
theorem reset_trace (l : Layout) {h : Hart} (elected : IsBootHart h.registers.hartId)
    (machine : h.registers.mode = .machine) (clearable : l.bss.Clearable) :
    (h.atEarlyInit l).events = h.events ++ setupTrace l ++ earlyInitTrace l ∧
      EarlyInitEnds h.routines.length l (h.atEarlyInit l) ((Boot.new l).reset (opsAt h.routines.length) h) := by
  obtain ⟨_, mode, routines⟩ := Hart.foldl_afterSetup l.setup h
  have ready : (h.setUp l).registers.mode = .machine := mode.trans machine
  have small : (h.setUp l).routines.length ≤ h.routines.length := Nat.le_of_eq (congrArg List.length routines)
  rw [reset_run _ elected clearable]
  exact ⟨h.events_atEarlyInit l, runRoutines_ends l ready small⟩

/-- A layout with two words to clear. -/
def smallLayout : Layout := ⟨0x1800, ⟨0x2000, 0x2010⟩, 0x4000, 0x100, 0x200, .direct 0x300⟩

/-- A hart whose early initialisation writes a register and whose main routine does not come back. -/
def smallHart : Hart := .new Platform.bootHart
  [⟨0x100, [⟨[.write (.epc 0x500)], .returns⟩], 0⟩, ⟨0x200, [⟨[.waitForInterrupt], .diverges⟩], 0⟩] 3

theorem reset_trace_small :
    (IsBootHart smallHart.registers.hartId ∧ smallHart.registers.mode = .machine ∧ smallLayout.bss.Clearable) ∧
      (smallHart.atEarlyInit smallLayout).events =
        smallHart.events ++ setupTrace smallLayout ++ earlyInitTrace smallLayout ∧
      EarlyInitEnds smallHart.routines.length smallLayout (smallHart.atEarlyInit smallLayout)
        ((Boot.new smallLayout).reset (opsAt smallHart.routines.length) smallHart) := by
  have clearable : smallLayout.bss.Clearable := .inr ⟨by decide, by decide⟩
  exact ⟨⟨rfl, rfl, clearable⟩, reset_trace smallLayout rfl rfl clearable⟩

end HartBoot.Sim
