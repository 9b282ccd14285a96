import HartBoot.Proofs.Sim.Privilege
import HartBoot.Proofs.Sim.ResetTrace

/-!
When a boot lets interrupts in. A property of the machine-level registers is followed along a trace (`Along`): events
that need no machine mode cannot change it, and the two entries of a boot are walked event by event. Whenever an
interrupt can be delivered the trap vector of the layout is installed and memory is open (`interrupts_wait`): early
initialisation runs with interrupts enabled and every source masked, and the sources are unmasked for the main routine
only while interrupts are disabled.
-/
namespace HartBoot.Sim
namespace Registers

/-- Machine interrupts are not held off by the level and the status. -/
def InterruptsOpen (r : Registers) : Prop :=
  r.mode ≠ .machine ∨ (FlagSet.mk r.status : StatusFlags).contains StatusFlags.mie = true

/-- An interrupt can be delivered: a source is enabled and interrupts are open. -/
def Deliverable (r : Registers) : Prop := r.interruptsMasked = false ∧ r.InterruptsOpen

/-- Traps lead to the vector of the layout, and all of memory is open to lower levels. -/
def Prepared (l : Layout) (r : Registers) : Prop := r.trapVector = some l.trapVector ∧ r.pmp = some Transition.openPmp

/-- Interrupts are delivered only to a hart that is prepared for them. -/
def Guarded (l : Layout) (r : Registers) : Prop := r.Deliverable → r.Prepared l

/-- Between the unmasking of the sources for the main routine and the opening of memory interrupts are not open. -/
def ClosedUntilOpen (r : Registers) : Prop :=
  r.interruptEnable = some Transition.mainInterrupts → r.pmp ≠ some Transition.openPmp → ¬ r.InterruptsOpen

/-- How early initialisation finds the registers and keeps them: in machine mode with interrupts enabled, every source
    masked and the trap vector installed. -/
structure EarlyInit (l : Layout) (r : Registers) : Prop where
  mode : r.mode = .machine
  enabled : (FlagSet.mk r.status : StatusFlags).contains StatusFlags.mie = true
  masked : r.interruptsMasked = true
  trapVector : r.trapVector = some l.trapVector

/-- A property of registers that looks at the machine-level ones alone. -/
def IsMachineLevel (P : Registers → Prop) : Prop := ∀ r s : Registers, r.machineState = s.machineState → P r → P s

theorem guarded_machineLevel (l : Layout) : IsMachineLevel (Guarded l) := by
  rintro ⟨_, mode, _, _, _, _, status, epc, vector, mask, pmp⟩ ⟨_, _, _, _, _, _, _, _, _, _, _⟩ same guarded
  cases same
  exact guarded

theorem earlyInit_machineLevel (l : Layout) : IsMachineLevel (EarlyInit l) := by
  rintro ⟨_, mode, _, _, _, _, status, epc, vector, mask, pmp⟩ ⟨_, _, _, _, _, _, _, _, _, _, _⟩ same started
  cases same
  exact ⟨started.mode, started.enabled, started.masked, started.trapVector⟩

theorem unwritten_machineLevel : IsMachineLevel fun r => r.interruptEnable = none := fun _ _ same unwritten =>
  (congrArg MachineState.interruptEnable same).symm.trans unwritten

theorem guarded_of_masked {l : Layout} {r : Registers} (masked : r.interruptsMasked = true) : Guarded l r := by
  rintro ⟨unmasked, _⟩
  rw [masked] at unmasked
  cases unmasked

theorem closedUntilOpen_of_guarded {l : Layout} {r : Registers} (guarded : Guarded l r) : r.ClosedUntilOpen := by
  intro unmasked closed isOpen
  have enabled : r.interruptsMasked = false := by
    unfold interruptsMasked
    rw [unmasked]
    decide
  exact closed (guarded ⟨enabled, isOpen⟩).2

theorem trace_plain (r : Registers) {e : Event} (plain : e.isMachineLevel = false) :
    r.machineState = (r.trace e).machineState := by
  cases e with
  | setup step => exact (machineState_setup r step).symm
  | write value => cases plain
  | privilegeReturn mode pc masked => cases plain
  | routineReturned entry resume => rfl
  | waitForInterrupt => rfl

end Registers

/-- `P` holds of the registers at every point of a trace that starts at `r`. -/
def Along (P : Registers → Prop) (r : Registers) (events : List Event) : Prop :=
  ∀ moment, moment <+: events → P (moment.foldl Registers.trace r)

section
variable {P : Registers → Prop} {r : Registers} {events more : List Event}

theorem along_cons {e : Event} : Along P r (e :: events) ↔ P r ∧ Along P (r.trace e) events := by
  constructor
  · intro along
    refine ⟨along [] List.nil_prefix, fun moment inside => ?_⟩
    exact along (e :: moment) (List.cons_prefix_cons.mpr ⟨rfl, inside⟩)
  · rintro ⟨here, along⟩ moment inside
    rcases List.prefix_cons_iff.mp inside with rfl | ⟨rest, rfl, later⟩
    · exact here
    · exact along rest later

theorem along_nil : Along P r [] ↔ P r := by
  constructor
  · intro along
    exact along [] List.nil_prefix
  · intro here moment inside
    rw [List.prefix_nil.mp inside]
    exact here

theorem along_append (first : Along P r events) (second : Along P (events.foldl Registers.trace r) more) :
    Along P r (events ++ more) := by
  induction events generalizing r with
  | nil => exact second
  | cons e events ih =>
    obtain ⟨here, rest⟩ := along_cons.mp first
    exact along_cons.mpr ⟨here, ih rest second⟩

theorem along_last (along : Along P r events) : P (events.foldl Registers.trace r) :=
  along events (List.prefix_refl _)

/-- Events that need no machine mode keep what the machine-level registers say. -/
theorem along_plain (level : Registers.IsMachineLevel P) (plain : ∀ e ∈ events, e.isMachineLevel = false)
    (start : P r) : Along P r events := by
  induction events generalizing r with
  | nil => exact along_nil.mpr start
  | cons e events ih =>
    have next : P (r.trace e) := level _ _ (Registers.trace_plain r (plain e List.mem_cons_self)) start
    exact along_cons.mpr ⟨start, ih (fun other later => plain other (List.mem_cons_of_mem e later)) next⟩

end

/-! ### The two entries -/

section
variable {l : Layout} {r : Registers}

/-- No source has been enabled before, and none is while early initialisation is entered. -/
theorem earlyInit_guarded (unwritten : r.interruptEnable = none) :
    Along (Registers.Guarded l) r (earlyInitTrace l) := by
  have masked : ∀ s : Registers, s.interruptEnable = none ∨ s.interruptEnable = some .empty → s.Guarded l := by
    intro s off
    refine Registers.guarded_of_masked ?_
    unfold Registers.interruptsMasked
    rcases off with none | empty
    · rw [none]
      rfl
    · rw [empty]
      rfl
  simp only [earlyInitTrace, along_cons, along_nil]
  exact ⟨masked _ (.inl unwritten), masked _ (.inl unwritten), masked _ (.inl unwritten), masked _ (.inl unwritten),
    masked _ (.inr rfl), masked _ (.inr rfl)⟩

theorem earlyInit_entered (r : Registers) : ((earlyInitTrace l).foldl Registers.trace r).EarlyInit l where
  mode := rfl
  enabled := by
    change (FlagSet.mk (Status.returnedBits Transition.earlyInitStatus.bits) : StatusFlags).contains _ = true
    decide
  masked := rfl
  trapVector := rfl

/-- Interrupts are disabled before a source is enabled, and stay so until memory is open too. -/
theorem main_guarded (started : r.EarlyInit l) : Along (Registers.Guarded l) r (mainTrace l) := by
  have masked : ∀ s : Registers, s.interruptEnable = r.interruptEnable → s.Guarded l := by
    intro s same
    refine Registers.guarded_of_masked ?_
    unfold Registers.interruptsMasked
    rw [same]
    exact started.masked
  have disabled : ∀ s : Registers, s.mode = r.mode → s.status = Transition.mainStatus.bits → s.Guarded l := by
    rintro s mode status ⟨_, low | enabled⟩
    · exact absurd (mode.trans started.mode) low
    · rw [status] at enabled
      exact absurd enabled (by decide)
  simp only [mainTrace, along_cons, along_nil]
  -- The sources are unmasked by the third write only, after the status; the return that enables interrupts comes last.
  exact ⟨masked _ rfl, masked _ rfl, masked _ rfl, disabled _ rfl rfl, disabled _ rfl rfl,
    fun _ => ⟨started.trapVector, rfl⟩⟩

end

/-! ### The trace of a boot, whatever its layout -/

/-- An operation that performs steps of the setup and nothing else, also when it faults. -/
def SetsUp {α : Type} (x : HartM α) : Prop := ∀ h : Hart, ∃ steps : List Setup,
  stateAfter (x h) = steps.foldl Hart.afterSetup h

section
variable {α β : Type}

theorem setsUp_pure (a : α) : SetsUp (pure a : HartM α) := fun _ => ⟨[], rfl⟩

theorem setsUp_bind {x : HartM α} {f : α → HartM β} (first : SetsUp x) (rest : ∀ a, SetsUp (f a)) :
    SetsUp (x >>= f) := by
  intro h
  obtain ⟨steps, start⟩ := first h
  rw [bind_run]
  cases run : x h with
  | ok a after =>
    rw [run, stateAfter_ok] at start
    obtain ⟨more, later⟩ := rest a after
    exact ⟨steps ++ more, by rw [List.foldl_append, ← start, ← later]⟩
  | error e after =>
    rw [run] at start
    exact ⟨steps, start⟩

end

theorem setup_setsUp (step : Setup) : SetsUp (performSetup step) := by
  intro h
  rcases setup_cases h step with ⟨fault, refused⟩ | ⟨_, done⟩
  · exact ⟨[], by rw [refused]; rfl⟩
  · exact ⟨[step], by rw [done]; rfl⟩

theorem zeroWords_setsUp (addrs : List Word) : SetsUp (addrs.forM fun a => performSetup (.zeroWord a)) := by
  induction addrs with
  | nil => exact setsUp_pure _
  | cons addr addrs ih => exact setsUp_bind (setup_setsUp _) fun _ => ih

theorem prologue_setsUp (run : Word → HartM Exit) (l : Layout) : SetsUp (Boot.prologue (opsWith run) l) := by
  have clears : SetsUp (Boot.clearBss (opsWith run) l.bss) := by
    rw [Boot.clearBss, Boot.clearFrom_eq]
    refine setsUp_bind (zeroWords_setsUp _) fun _ => ?_
    split
    · exact fun _ => ⟨[], rfl⟩
    · exact setsUp_pure _
  have step : ∀ step, SetsUp ((opsWith run).setup step) := setup_setsUp
  exact setsUp_bind (step _) fun _ => setsUp_bind (step _) fun _ => setsUp_bind clears fun _ => step _

/-- A hart on which early initialisation starts once the setup is done. -/
def Hart.startEarlyInit (ready : Hart) (l : Layout) : Hart :=
  (ready.reported .debug ("entering early init at " ++ hex l.earlyInit)).entered (.earlyInit l)

/-- The operation traces nothing that needs machine mode: it writes no machine-level register and returns nowhere. -/
def Abstains {α : Type} (x : HartM α) (h : Hart) : Prop :=
  ∃ own, (stateAfter (x h)).events = h.events ++ own ∧ ∀ e ∈ own, e.isMachineLevel = false

/-- What follows early initialisation in a trace: nothing that needs machine mode, or the entry of the main routine when
    early initialisation has returned and nothing of that kind after it. -/
def Follows (l : Layout) (tail : List Event) : Prop :=
  (∀ e ∈ tail, e.isMachineLevel = false) ∨
    ∃ rest, tail = .routineReturned l.earlyInit .caller :: mainTrace l ++ rest ∧ ∀ e ∈ rest, e.isMachineLevel = false

section
variable {n : Nat} {l : Layout} {h : Hart} {result : EStateM.Result Fault Hart (Flow HaltReason)}

/-- The main routine runs below machine mode, and so does all that comes after it. -/
theorem mainEnds_plain (below : h.registers.mode ≠ .machine) (ends : MainEnds n l h result) :
    ∃ rest, (stateAfter result).events = h.events ++ rest ∧ ∀ e ∈ rest, e.isMachineLevel = false := by
  obtain ⟨own, events, plain⟩ := reaches_plain (runAt_reaches n l.main h) below
  have outcome := ends.2
  cases run : runAt (opsAt n) l.main h with
  | error fault after =>
    simp only [run] at outcome events
    rw [outcome]
    exact ⟨own, events, plain⟩
  | ok exit back =>
    simp only [run] at outcome events
    cases exit with
    | diverges =>
      rw [outcome]
      exact ⟨own, events, plain⟩
    | returns =>
      rw [outcome.1, stateAfter_ok, outcome.2]
      refine ⟨own ++ .routineReturned l.main .idle :: List.replicate (max 1 back.wfiBudget) .waitForInterrupt, ?_, ?_⟩
      · rw [← List.append_assoc, ← events]
        rfl
      · intro e member
        rcases List.mem_append.mp member with inside | past
        · exact plain e inside
        · rcases List.mem_cons.mp past with rfl | waits
          · rfl
          · rw [List.eq_of_mem_replicate waits]
            rfl

theorem earlyInitEnds_follows (ends : EarlyInitEnds n l h result) : ∃ tail,
    (stateAfter result).events = (stateAfter (runAt (opsAt n) l.earlyInit h)).events ++ tail ∧ Follows l tail := by
  have outcome := ends.2
  cases run : runAt (opsAt n) l.earlyInit h with
  | error fault after =>
    simp only [run] at outcome
    rw [outcome]
    exact ⟨[], by simp, .inl (by simp)⟩
  | ok exit back =>
    simp only [run] at outcome
    cases exit with
    | diverges =>
      rw [outcome]
      exact ⟨[], by simp, .inl (by simp)⟩
    | returns =>
      dsimp only at outcome
      by_cases kept : back.registers.mode = .machine
      · rw [if_pos kept] at outcome
        have low : ((back.pastEarlyInit l).entered (.main l)).registers.mode = .supervisor := rfl
        obtain ⟨rest, events, plain⟩ := mainEnds_plain (by rw [low]; decide) outcome.2
        rw [outcome.1] at events
        refine ⟨.routineReturned l.earlyInit .caller :: mainTrace l ++ rest, ?_, .inr ⟨rest, rfl, plain⟩⟩
        rw [events, List.append_assoc]
        rfl
      · rw [if_neg kept] at outcome
        obtain ⟨refused, ended, events⟩ := outcome
        rw [ended]
        exact ⟨_, events, .inl (by simp [Event.isMachineLevel])⟩

end

/-- A hart after a boot from reset on, however that ends. -/
def Hart.booted (h : Hart) (l : Layout) : Hart := stateAfter ((Boot.new l).reset (opsAt h.routines.length) h)

section
variable (l : Layout) {h : Hart}

theorem booted_reaches (h : Hart) : Reaches h (h.booted l) :=
  reset_related reaches_steady.moves_compositional (reaches_steady.opsAt_moves _) (Boot.new l) h

/-- The trace of a boot is that of its setup as far as that gets. If it gets to its end, early initialisation is
    entered, and what follows comes after that routine's own events. -/
theorem booted_events (elected : IsBootHart h.registers.hartId) (machine : h.registers.mode = .machine) :
    (∃ fault, ∃ steps : List Setup,
        Boot.prologue (opsAt h.routines.length) l h = .error fault (steps.foldl Hart.afterSetup h) ∧
        (h.booted l).events = h.events ++ steps.map .setup) ∨
      ∃ (ready : Hart) (steps : List Setup) (tail : List Event),
        Boot.prologue (opsAt h.routines.length) l h = .ok () ready ∧
        (ready.startEarlyInit l).events = h.events ++ steps.map .setup ++ earlyInitTrace l ∧
        (h.booted l).events =
          (stateAfter (runAt (opsAt h.routines.length) l.earlyInit (ready.startEarlyInit l))).events ++ tail ∧
        Follows l tail := by
  have chosen : IsBootHart ((opsAt h.routines.length).hartId h) := by
    rw [opsAt_hartId]
    exact elected
  have setsUp := prologue_setsUp (routineAt h.routines.length) l h
  rw [← opsAt_eq] at setsUp
  obtain ⟨steps, state⟩ := setsUp
  obtain ⟨events, mode, routines⟩ := Hart.foldl_afterSetup steps h
  unfold Hart.booted
  cases prologue : Boot.prologue (opsAt h.routines.length) l h with
  | error fault after =>
    rw [prologue, stateAfter_error] at state
    refine .inl ⟨fault, steps, by rw [state], ?_⟩
    rw [Boot.reset_elected _ l chosen, bind_of_error prologue, stateAfter_error, state]
    exact events
  | ok _ ready =>
    rw [prologue, stateAfter_ok] at state
    subst state
    have small : (steps.foldl Hart.afterSetup h).routines.length ≤ h.routines.length :=
      Nat.le_of_eq (congrArg List.length routines)
    have ends := runRoutines_ends l (mode.trans machine) small
    obtain ⟨tail, more, follows⟩ := earlyInitEnds_follows ends
    refine .inr ⟨_, steps, tail, rfl, ?_, ?_, follows⟩
    · rw [Hart.startEarlyInit, Hart.events_entered, Hart.events_reported, events]
      rfl
    · have run : (Boot.new l).reset (opsAt h.routines.length) h =
          Boot.runRoutines (opsWith (routineAt h.routines.length)).toHartOps l (steps.foldl Hart.afterSetup h) := by
        rw [Boot.reset_elected _ l chosen, bind_of_ok prologue, Boot.descend_awaiting, opsAt_eq]
      rw [run]
      exact more

end

theorem setups_plain (steps : List Setup) : ∀ e ∈ steps.map Event.setup, e.isMachineLevel = false := by
  intro e member
  obtain ⟨step, _, rfl⟩ := List.mem_map.mp member
  rfl

section
variable {l : Layout} {r : Registers} {steps : List Setup} {own tail : List Event}

theorem setups_guarded (unwritten : r.interruptEnable = none) :
    Along (Registers.Guarded l) r (steps.map .setup) := by
  refine along_plain (Registers.guarded_machineLevel l) (setups_plain steps) (Registers.guarded_of_masked ?_)
  unfold Registers.interruptsMasked
  rw [unwritten]
  rfl

/-- From its entry to its end early initialisation that abstains keeps the registers as it found them. -/
theorem own_kept (plain : ∀ e ∈ own, e.isMachineLevel = false) :
    Along (Registers.EarlyInit l) ((earlyInitTrace l).foldl Registers.trace r) own :=
  along_plain (Registers.earlyInit_machineLevel l) plain (earlyInit_entered r)

theorem follows_guarded (started : r.EarlyInit l) (follows : Follows l tail) :
    Along (Registers.Guarded l) r tail := by
  have level := Registers.guarded_machineLevel l
  rcases follows with plain | ⟨rest, rfl, plain⟩
  · exact along_plain level plain (Registers.guarded_of_masked started.masked)
  · have back : (r.trace (.routineReturned l.earlyInit .caller)).EarlyInit l :=
      Registers.earlyInit_machineLevel l _ _ (Registers.trace_plain r rfl) started
    have entry := main_guarded back
    rw [List.cons_append]
    exact along_cons.mpr ⟨Registers.guarded_of_masked started.masked,
      along_append entry (along_plain level plain (along_last entry))⟩

theorem boot_guarded (unwritten : r.interruptEnable = none) (plain : ∀ e ∈ own, e.isMachineLevel = false)
    (follows : Follows l tail) :
    Along (Registers.Guarded l) r (steps.map .setup ++ earlyInitTrace l ++ own ++ tail) := by
  have still : ((steps.map Event.setup).foldl Registers.trace r).interruptEnable = none :=
    along_last (along_plain Registers.unwritten_machineLevel (setups_plain steps) unwritten)
  have kept := own_kept (r := (steps.map Event.setup).foldl Registers.trace r) (l := l) plain
  refine along_append (along_append (along_append (setups_guarded unwritten) (earlyInit_guarded still)) ?_) ?_
  · rw [List.foldl_append]
    exact fun moment inside => Registers.guarded_of_masked (kept moment inside).masked
  · rw [List.foldl_append, List.foldl_append]
    exact follows_guarded (along_last kept) follows

end

/-- A boot lets no interrupt in before the machine is ready for it. The registers are what the trace says, and at every
    point of it an interrupt can be delivered only where the trap vector of the layout is installed and memory is open;
    in particular interrupts are not open between the unmasking of the sources and the opening of memory. Early
    initialisation, if it abstains from machine-level writes and returns, runs with interrupts enabled and every source
    masked from its start to its end. -/
theorem interrupts_wait (l : Layout) {h : Hart} (fresh : h.registers = .atReset Platform.bootHart)
    (silent : h.events = [])
    (abstains : ∀ ready, Boot.prologue (opsAt h.routines.length) l h = .ok () ready →
      Abstains (runAt (opsAt h.routines.length) l.earlyInit) (ready.startEarlyInit l)) :
    (h.booted l).registers = (h.booted l).events.foldl Registers.trace (.atReset Platform.bootHart) ∧
      Along (fun r => r.Guarded l ∧ r.ClosedUntilOpen) (.atReset Platform.bootHart) (h.booted l).events ∧
      ∀ ready, Boot.prologue (opsAt h.routines.length) l h = .ok () ready → ∃ own,
        (stateAfter (runAt (opsAt h.routines.length) l.earlyInit (ready.startEarlyInit l))).events =
            (ready.startEarlyInit l).events ++ own ∧
          (ready.startEarlyInit l).events ++ own <+: (h.booted l).events ∧
          Along (Registers.EarlyInit l)
            ((ready.startEarlyInit l).events.foldl Registers.trace (.atReset Platform.bootHart)) own := by
  have elected : IsBootHart h.registers.hartId := by rw [fresh]; rfl
  have machine : h.registers.mode = .machine := by rw [fresh]; rfl
  have replayed : h.registers = .replay Platform.bootHart h.events := by
    rw [fresh, silent]
    rfl
  refine ⟨?_, ?_, ?_⟩
  · have kept := (booted_reaches l h).preserves change_registers replayed
    rw [kept]
    exact Registers.replay_append Platform.bootHart [] _
  · have guarded : Along (Registers.Guarded l) (.atReset Platform.bootHart) (h.booted l).events := by
      rcases booted_events l elected machine with
        ⟨_, steps, _, events⟩ | ⟨ready, steps, tail, done, entered, events, follows⟩
      · rw [events, silent]
        exact setups_guarded rfl
      · obtain ⟨own, ran, plain⟩ := abstains ready done
        rw [events, ran, entered, silent]
        exact boot_guarded rfl plain follows
    exact fun moment inside => ⟨guarded moment inside, Registers.closedUntilOpen_of_guarded (guarded moment inside)⟩
  · intro ready done
    rcases booted_events l elected machine with ⟨_, _, failed, _⟩ | ⟨other, steps, tail, again, entered, events, _⟩
    · rw [done] at failed
      cases failed
    · rw [done] at again
      cases again
      obtain ⟨own, ran, plain⟩ := abstains ready done
      refine ⟨own, ran, ?_, ?_⟩
      · rw [events, ran]
        exact List.prefix_append _ _
      · rw [entered, silent, List.foldl_append]
        exact own_kept plain

/-- A hart whose early initialisation clears a word and waits, and whose main routine does not come back. -/
def waitingHart : Hart := .new Platform.bootHart
  [⟨0x100, [⟨[.setup (.zeroWord 0x3000), .waitForInterrupt], .returns⟩], 0⟩, ⟨0x200, [⟨[], .diverges⟩], 0⟩] 3

theorem waitingHart_abstains (ready : Hart)
    (done : Boot.prologue (opsAt waitingHart.routines.length) smallLayout waitingHart = .ok () ready) :
    Abstains (runAt (opsAt waitingHart.routines.length) smallLayout.earlyInit) (ready.startEarlyInit smallLayout) := by
  have clearable : smallLayout.bss.Clearable := .inr ⟨by decide, by decide⟩
  rw [prologue_run clearable] at done
  cases done
  exact ⟨[.setup (.zeroWord 0x3000), .waitForInterrupt], rfl, by decide⟩

theorem interrupts_wait_waitingHart :
    (waitingHart.registers = .atReset Platform.bootHart ∧ waitingHart.events = [] ∧
      ∃ ready, Boot.prologue (opsAt waitingHart.routines.length) smallLayout waitingHart = .ok () ready ∧
        Abstains (runAt (opsAt waitingHart.routines.length) smallLayout.earlyInit) (ready.startEarlyInit smallLayout)) ∧
      (waitingHart.booted smallLayout).registers =
        (waitingHart.booted smallLayout).events.foldl Registers.trace (.atReset Platform.bootHart) ∧
      Along (fun r => r.Guarded smallLayout ∧ r.ClosedUntilOpen) (.atReset Platform.bootHart)
        (waitingHart.booted smallLayout).events := by
  have clearable : smallLayout.bss.Clearable := .inr ⟨by decide, by decide⟩
  have done := prologue_run clearable waitingHart.routines.length waitingHart
  have waits := interrupts_wait smallLayout (h := waitingHart) rfl rfl waitingHart_abstains
  exact ⟨⟨rfl, rfl, _, done, waitingHart_abstains _ done⟩, waits.1, waits.2.1⟩

end HartBoot.Sim
