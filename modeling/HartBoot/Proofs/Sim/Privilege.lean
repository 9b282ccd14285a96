import HartBoot.Proofs.Sim.Depth
import HartBoot.Proofs.Sim.Entry
import HartBoot.Proofs.Sim.Replay

/-!
What only machine mode can do. Once a hart is below machine mode, no operation changes its machine-level registers or
starts a routine, whether it succeeds or faults (`perform_freezes`), and every try at a machine-level write or at a
return from machine mode faults (`below_refuses`). Along a trace machine-level events therefore come about in machine
mode only (`reaches_sealed`), and a hart that has left machine mode is never in it again (`machine_mode_left`).
-/
namespace HartBoot.Sim

/-- Whether only machine mode can bring the event about. -/
def Event.isMachineLevel : Event → Bool
  | .write _ => true
  | .privilegeReturn _ _ _ => true
  | _ => false

/-- Whether only machine mode can do this; a routine is started by a return from machine mode alone. -/
def Happening.isMachineLevel : Happening → Bool
  | .event e => e.isMachineLevel
  | .mret _ _ => true
  | .noted (.entered _ _) _ => true
  | _ => false

/-- The level of a hart and the registers that only machine mode can change. -/
structure MachineState where
  mode : PrivilegeMode
  status : Word
  epc : Option Word
  trapVector : Option TrapVector
  interruptEnable : Option InterruptMask
  pmp : Option PmpEntry
deriving DecidableEq

def Registers.machineState (r : Registers) : MachineState :=
  ⟨r.mode, r.status, r.epc, r.trapVector, r.interruptEnable, r.pmp⟩

theorem machineState_setup (r : Registers) (step : Setup) : (r.setup step).machineState = r.machineState := by
  cases step <;> rfl

/-! ### Operations below machine mode -/

/-- `after` has the machine-level state and the routines of `h`, and nothing on the way needed machine mode. -/
structure Frozen (h after : Hart) : Prop where
  machineState : after.registers.machineState = h.registers.machineState
  routines : after.routines = h.routines
  history : ∃ more, after.history = h.history ++ more ∧ ∀ what ∈ more, what.isMachineLevel = false

section
variable {h after : Hart}

theorem Frozen.refl (h : Hart) : Frozen h h := ⟨rfl, rfl, [], by simp, by simp⟩

theorem Frozen.trans {last : Hart} (first : Frozen h after) (second : Frozen after last) : Frozen h last := by
  obtain ⟨done, grown, plain⟩ := first.history
  obtain ⟨more, further, others⟩ := second.history
  refine ⟨second.machineState.trans first.machineState, second.routines.trans first.routines, done ++ more, ?_, ?_⟩
  · rw [further, grown, List.append_assoc]
  · intro what member
    rcases List.mem_append.mp member with before | later
    · exact plain what before
    · exact others what later

theorem Frozen.mode (frozen : Frozen h after) : after.registers.mode = h.registers.mode :=
  congrArg MachineState.mode frozen.machineState

theorem logged_frozen (level : Log.Level) (message : String) : Frozen h (h.logged level message) :=
  ⟨rfl, rfl, _, h.history_logged level message, by simp [Happening.isMachineLevel]⟩

theorem performed_frozen (step : Step) (answer : Answer) : Frozen h (h.noted (.performed step answer)) :=
  ⟨rfl, rfl, _, h.history_noted _, by simp [Happening.isMachineLevel]⟩

theorem filled_frozen (addr value : Word) : Frozen h (h.filled addr value) :=
  ⟨rfl, rfl, _, h.history_filled addr value, by simp [Happening.isMachineLevel]⟩

theorem afterSetup_frozen (step : Setup) : Frozen h (h.afterSetup step) :=
  ⟨machineState_setup h.registers step, rfl, _, h.history_afterSetup step, Hart.trail_all _ (fun _ => rfl) rfl⟩

theorem waited_frozen : Frozen h h.waited := ⟨rfl, rfl, _, h.history_waited, Hart.trail_all _ (fun _ => rfl) rfl⟩

end

/-- An operation that leaves a hart below machine mode frozen, also when it faults. -/
def Freezes {α : Type} (x : HartM α) : Prop := ∀ h : Hart, h.registers.mode ≠ .machine → Frozen h (stateAfter (x h))

section
variable {α β : Type}

theorem freezes_bind {x : HartM α} {f : α → HartM β} (first : Freezes x) (rest : ∀ a, Freezes (f a)) :
    Freezes (x >>= f) := by
  intro h below
  have start := first h below
  rw [bind_run]
  cases run : x h with
  | ok a after =>
    rw [run] at start
    have still : after.registers.mode ≠ .machine := fun machine => below (start.mode.symm.trans machine)
    exact start.trans (rest a after still)
  | error e after =>
    rw [run] at start
    exact start

theorem freezes_compositional : Compositional (ε := Fault) (σ := Hart) (fun {α} x _ => Freezes (α := α) x) where
  same_pure _ h _ := .refl h
  same_throw _ h _ := .refl h
  same_get h _ := .refl h
  bind first rest := freezes_bind first rest

end

theorem write_freezes (value : RegisterWrite) : Freezes (writeRegister value) := by
  intro h below
  rw [write_refused h value below]
  exact .refl h

theorem setup_freezes (step : Setup) : Freezes (performSetup step) := by
  intro h _
  rcases setup_cases h step with ⟨fault, refused⟩ | ⟨_, done⟩
  · rw [refused]
    exact .refl h
  · rw [done]
    exact afterSetup_frozen step

theorem fillFrom_freezes (start value : Word) (i words : Nat) : Freezes (fillFrom start value i words) := fun h _ =>
  fillFrom_relates (R := Frozen) start value .refl (fun addr frozen => (filled_frozen addr value).trans frozen) i words
    h

theorem script_freezes : ScriptRelated (fun {α} x _ => Freezes (α := α) x) where
  toCompositional := freezes_compositional
  fill start words value := fillFrom_freezes start value 0 words
  note step answer := fun _ _ => performed_frozen step answer

theorem privilegeReturn_refused (run : Word → HartM Exit) (resume : Resume) {h : Hart}
    (below : h.registers.mode ≠ .machine) :
    privilegeReturn run resume h = .error (.illegalAccess h.registers.hartId "mret" h.registers.mode) h := by
  unfold privilegeReturn
  exact bind_of_error (land_refused h resume below)

/-- Whatever routines would do, they are never entered. -/
theorem opsWith_freezes (run : Word → HartM Exit) :
    ResetOps.Related (fun {α} x _ => Freezes (α := α) x) (opsWith run) (opsWith run) where
  hartId := rfl
  patience := rfl
  fault := rfl
  report _ _ := fun _ _ => logged_frozen _ _
  write := write_freezes
  privilegeReturn resume := by
    intro h below
    change Frozen h (stateAfter (privilegeReturn run resume h))
    rw [privilegeReturn_refused run resume below]
    exact .refl h
  waitForInterrupt := fun _ _ => waited_frozen
  setup := setup_freezes

theorem perform_freezes (run : Word → HartM Exit) (step : Step) : Freezes (perform (opsWith run) step) :=
  perform_related script_freezes (opsWith_freezes run) step

theorem step_frozen {h : Hart} (below : h.registers.mode ≠ .machine) (step : Step) :
    Frozen h (stateAfter (h.step step)) := by
  unfold Hart.step
  rw [opsAt_eq]
  exact perform_freezes _ step h below

theorem after_frozen {h : Hart} (below : h.registers.mode ≠ .machine) (script : List Step) :
    Frozen h (h.after script) := by
  induction script generalizing h with
  | nil => exact .refl h
  | cons step script ih =>
    have first : Frozen h (h.account step).2 := by
      rw [account_state]
      exact step_frozen below step
    have still : (h.account step).2.registers.mode ≠ .machine := fun machine => below (first.mode.symm.trans machine)
    exact first.trans (ih still)

/-! ### Refusals -/

/-- Every try at what only machine mode can do faults. A single operation leaves the hart as it is; those that are made
    of several may do something before they fault. -/
structure Refuses (ops : ResetOps Fault Hart HaltReason) (h : Hart) : Prop where
  write : ∀ value, perform ops (.write value) h =
    .error (.illegalAccess h.registers.hartId value.text h.registers.mode) h
  privilegeReturn : ∀ resume, perform ops (.privilegeReturn resume) h =
    .error (.illegalAccess h.registers.hartId "mret" h.registers.mode) h
  enter : ∀ t, ∃ after, perform ops (.enter t) h =
    .error (.illegalAccess h.registers.hartId "mstatus write" h.registers.mode) after
  descend : ∀ boot : Boot, Faults (boot.descend ops.toHartOps h)
  reset : ∀ boot : Boot, IsBootHart h.registers.hartId → Faults (boot.reset ops h)

section
variable (run : Word → HartM Exit) {h : Hart} (below : h.registers.mode ≠ .machine)
include below

theorem descend_refused (boot : Boot) : Faults (boot.descend (opsWith run).toHartOps h) := by
  by_cases awaiting : boot.stage = .awaitingEarlyInit
  · have start : boot = .afterPrologue boot.layout := by
      cases boot
      cases awaiting
      rfl
    have refused := enter_refused run (h.reported .debug ("entering early init at " ++ hex boot.layout.earlyInit))
      (.earlyInit boot.layout) below
    rw [start, Boot.descend_awaiting]
    exact ⟨_, _, Boot.runThrough_faulted (report_run run h .debug _) refused⟩
  · rw [Boot.descend_misplaced _ awaiting]
    exact ⟨_, _, rfl⟩

theorem reset_refused (boot : Boot) (elected : IsBootHart h.registers.hartId) :
    Faults (boot.reset (opsWith run) h) := by
  have kept : ∀ {α : Type} {x : HartM α} {a : α} {start after : Hart}, Freezes x → start.registers.mode ≠ .machine →
      x start = .ok a after → after.registers.mode ≠ .machine := by
    intro α x a start after freezes lower ran machine
    have frozen := freezes start lower
    rw [ran] at frozen
    exact lower (frozen.mode.symm.trans machine)
  have moves := advance_related freezes_compositional (opsWith_freezes run).toRelated
  have chosen : IsBootHart ((opsWith run).hartId h) := elected
  unfold Boot.reset
  rw [bind_of_ok (get_run h), if_pos chosen]
  -- The setup may go through, but nothing in it leads back to machine mode, which the first write after it needs.
  refine faults_bind fun clearing first moved => faults_bind fun _ second cleared => ?_
  have lower := kept (moves boot .clearingBss) below moved
  have still := kept (prologue_related freezes_compositional (opsWith_freezes run) clearing.layout) lower cleared
  refine faults_bind fun awaiting last again => ?_
  exact descend_refused run (kept (moves clearing .awaitingEarlyInit) still again) awaiting

theorem below_refuses : Refuses (opsWith run) h where
  write value := bind_of_error (write_refused h value below)
  privilegeReturn resume := by
    have refused := privilegeReturn_refused run resume below
    simp only [perform, map_eq_pure_bind]
    exact bind_of_error refused
  enter t := by
    refine ⟨h.reported .trace ("mret to " ++ hex t.entry ++ " in " ++ inspect t.mode ++ " mode"), ?_⟩
    simp only [perform, map_eq_pure_bind]
    exact bind_of_error (enter_refused run h t below)
  descend := descend_refused run below
  reset := reset_refused run below

end

/-! ### Traces -/

/-- The level of a hart after a trace that starts at `mode`. -/
def modeAfter (mode : PrivilegeMode) (events : List Event) : PrivilegeMode := (latest Event.mode? events).getD mode

/-- Every machine-level event of a trace that starts at `mode` comes about in machine mode. -/
def Sealed : PrivilegeMode → List Event → Prop
  | _, [] => True
  | mode, e :: events => (e.isMachineLevel = true → mode = .machine) ∧ Sealed (modeAfter mode [e]) events

theorem modeAfter_append (mode : PrivilegeMode) (events more : List Event) :
    modeAfter mode (events ++ more) = modeAfter (modeAfter mode events) more := by
  unfold modeAfter latest
  rw [List.filterMap_append, List.getLast?_append]
  cases (more.filterMap Event.mode?).getLast? <;> rfl

theorem modeAfter_plain (mode : PrivilegeMode) {events : List Event} (plain : ∀ e ∈ events, e.mode? = none) :
    modeAfter mode events = mode := by
  unfold modeAfter latest
  rw [List.filterMap_eq_nil_iff.mpr plain]
  rfl

theorem mode?_plain {e : Event} (plain : e.isMachineLevel = false) : e.mode? = none := by
  cases e <;> first | rfl | cases plain

theorem sealed_append {mode : PrivilegeMode} {events more : List Event} (first : Sealed mode events)
    (second : Sealed (modeAfter mode events) more) : Sealed mode (events ++ more) := by
  induction events generalizing mode with
  | nil => exact second
  | cons e events ih =>
    refine ⟨first.1, ih first.2 ?_⟩
    rw [← modeAfter_append]
    exact second

theorem sealed_later {mode : PrivilegeMode} {events more : List Event} (closed : Sealed mode (events ++ more)) :
    Sealed (modeAfter mode events) more := by
  induction events generalizing mode with
  | nil => exact closed
  | cons e events ih =>
    have rest := ih closed.2
    rw [← modeAfter_append] at rest
    exact rest

/-- Below machine mode there are no more machine-level events, as there is no way back. -/
theorem sealed_below {mode : PrivilegeMode} {events : List Event} (closed : Sealed mode events)
    (below : mode ≠ .machine) : ∀ e ∈ events, e.isMachineLevel = false := by
  induction events with
  | nil => simp
  | cons e events ih =>
    have plain : e.isMachineLevel = false := Bool.eq_false_iff.mpr fun level => below (closed.1 level)
    have same : modeAfter mode [e] = mode := modeAfter_plain mode (by simp [mode?_plain plain])
    have rest := closed.2
    rw [same] at rest
    intro other member
    rcases List.mem_cons.mp member with rfl | later
    · exact plain
    · exact ih rest other later

section
variable {h after : Hart}

/-- A change traces one event at most, which sets the level if it is a return from machine mode. -/
theorem change_sealed (change : Change h after) : ∃ added, after.events = h.events ++ added ∧
    after.registers.mode = modeAfter h.registers.mode added ∧ Sealed h.registers.mode added := by
  cases change with
  | logged quiet message => exact ⟨[], by simp, rfl, trivial⟩
  | noted n => exact ⟨[], by simp, rfl, trivial⟩
  | filled addr value => exact ⟨[], by simp, rfl, trivial⟩
  | unregistered entry => exact ⟨[], by simp [Hart.events, Hart.history], rfl, trivial⟩
  | registered routine => exact ⟨[], by simp [Hart.events, Hart.history], rfl, trivial⟩
  | written value machine =>
    refine ⟨_, h.events_written value, ?_, fun _ => machine, trivial⟩
    cases value <;> rfl
  | @setup step fits =>
    refine ⟨_, h.events_afterSetup step, ?_, by simp [Event.isMachineLevel], trivial⟩
    cases step <;> rfl
  | landed resume machine decoded target =>
    exact ⟨_, h.events_landed resume _ _, rfl, fun _ => machine, trivial⟩
  | cameBack entry resume =>
    exact ⟨_, h.events_cameBack entry resume, rfl, by simp [Event.isMachineLevel], trivial⟩
  | waited => exact ⟨_, h.events_waited, rfl, by simp [Event.isMachineLevel], trivial⟩

theorem reaches_sealed (path : Reaches h after) : ∃ traced, after.events = h.events ++ traced ∧
    after.registers.mode = modeAfter h.registers.mode traced ∧ Sealed h.registers.mode traced := by
  induction path with
  | refl => exact ⟨[], by simp, rfl, trivial⟩
  | tail _ change ih =>
    obtain ⟨traced, events, mode, closed⟩ := ih
    obtain ⟨added, more, next, further⟩ := change_sealed change
    rw [mode] at next further
    refine ⟨traced ++ added, ?_, ?_, sealed_append closed further⟩
    · rw [more, events, List.append_assoc]
    · rw [next, modeAfter_append]

theorem reaches_plain (path : Reaches h after) (below : h.registers.mode ≠ .machine) :
    ∃ traced, after.events = h.events ++ traced ∧ ∀ e ∈ traced, e.isMachineLevel = false := by
  obtain ⟨traced, events, _, closed⟩ := reaches_sealed path
  exact ⟨traced, events, sealed_below closed below⟩

end

/-- How a run from `start` to `last` goes through the levels: at every point of its trace the level is the one that the
    last return from machine mode gave, and after a point below machine mode it stays what it is. -/
def LevelsFall (start last : Hart) : Prop :=
  ∃ traced, last.events = start.events ++ traced ∧ ∀ earlier later, traced = earlier ++ later →
    last.registers.mode = modeAfter (modeAfter start.registers.mode earlier) later ∧
      (modeAfter start.registers.mode earlier ≠ .machine →
        last.registers.mode = modeAfter start.registers.mode earlier ∧ ∀ e ∈ later, e.isMachineLevel = false)

theorem reaches_levels {start last : Hart} (path : Reaches start last) : LevelsFall start last := by
  obtain ⟨traced, events, mode, closed⟩ := reaches_sealed path
  refine ⟨traced, events, ?_⟩
  rintro earlier later rfl
  have split : last.registers.mode = modeAfter (modeAfter start.registers.mode earlier) later := by
    rw [mode, modeAfter_append]
  refine ⟨split, ?_⟩
  intro below
  have plain := sealed_below (sealed_later closed) below
  refine ⟨?_, plain⟩
  rw [split, modeAfter_plain _ fun e member => mode?_plain (plain e member)]

/-- A hart below machine mode stays as machine mode left it under every script, and refuses whatever needs machine mode
    then. So on the way of any hart the level changes at returns from machine mode only and never becomes machine mode
    again. -/
theorem machine_mode_left {h : Hart} (below : h.registers.mode ≠ .machine) (script : List Step) :
    (Frozen h (h.after script) ∧
      ∀ depth, Refuses (opsAt depth) (h.after script) ∧
        ∀ step, Frozen (h.after script) (stateAfter (perform (opsAt depth) step (h.after script)))) ∧
      ∀ start path, LevelsFall start (start.after path) := by
  have frozen := after_frozen below script
  have still : (h.after script).registers.mode ≠ .machine := fun machine => below (frozen.mode.symm.trans machine)
  refine ⟨⟨frozen, fun depth => ?_⟩, fun start path => reaches_levels (after_reaches start path)⟩
  rw [opsAt_eq]
  exact ⟨below_refuses _ still, fun step => perform_freezes _ step _ still⟩

/-- A hart that has returned from machine mode to supervisor mode. -/
def lowered : Hart :=
  (Hart.new Platform.bootHart [] 3).after
    [.write (.status ⟨.supervisor, StatusFlags.mpie⟩), .write (.epc 0x500), .privilegeReturn .caller]

/-- A second boot, which clears two words before it is refused. -/
def secondBoot : List Step :=
  [.waitForInterrupt, .boot (.new ⟨0x1800, ⟨0x2000, 0x2010⟩, 0x4000, 0x100, 0x200, .direct 0x300⟩) [.reset]]

theorem machine_mode_left_lowered :
    lowered.registers.mode = .supervisor ∧
      (Frozen lowered (lowered.after secondBoot) ∧
        ∀ depth, Refuses (opsAt depth) (lowered.after secondBoot) ∧
          ∀ step,
            Frozen (lowered.after secondBoot) (stateAfter (perform (opsAt depth) step (lowered.after secondBoot)))) ∧
        ∀ start path, LevelsFall start (start.after path) :=
  ⟨rfl, machine_mode_left (by decide) secondBoot⟩

end HartBoot.Sim
