import HartBoot.Proofs.Register.Status
import HartBoot.Proofs.Sim.Changes

/-!
Replaying the trace of a simulated hart. Every register holds what the last event that concerns it says
(`Registers.replay`), and memory is what the fills and stores of the history make of an empty one (`History.memory`).
Both hold of a hart after any script, and of every moment that a routine of it has noted (`after_faithful`).
-/
namespace HartBoot.Sim

/-- The last value that an event of a trace gives, if one does. -/
def latest {α : Type} (value? : Event → Option α) (events : List Event) : Option α :=
  (events.filterMap value?).getLast?

namespace Event

def satp? : Event → Option Word
  | .setup .bareAddressing => some 0
  | _ => none

def globalPointer? : Event → Option Word
  | .setup (.globalPointer value) => some value
  | _ => none

def stackPointer? : Event → Option Word
  | .setup (.stackPointer value) => some value
  | _ => none

def epc? : Event → Option Word
  | .write (.epc entry) => some entry
  | _ => none

def trapVector? : Event → Option TrapVector
  | .write (.trapVector vector) => some vector
  | _ => none

def interruptEnable? : Event → Option InterruptMask
  | .write (.interruptEnable mask) => some mask
  | _ => none

def pmp? : Event → Option PmpEntry
  | .write (.pmp entry) => some entry
  | _ => none

def mode? : Event → Option PrivilegeMode
  | .privilegeReturn mode _ _ => some mode
  | _ => none

/-- Where a return from machine mode lands the hart is known until the routine there returns. -/
def pc? : Event → Option (Option Word)
  | .privilegeReturn _ pc _ => some (some pc)
  | .routineReturned _ _ => some none
  | _ => none

/-- What an event makes of the status register. -/
def status (bits : Word) : Event → Word
  | .write (.status value) => value.bits
  | .privilegeReturn _ _ _ => Status.returnedBits bits
  | _ => bits

end Event

/-- The registers of a hart, out of reset, after a trace. -/
def Registers.replay (id : Word) (events : List Event) : Registers where
  hartId := id
  mode := (latest Event.mode? events).getD .machine
  pc := (latest Event.pc? events).join
  satp := latest Event.satp? events
  globalPointer := latest Event.globalPointer? events
  stackPointer := latest Event.stackPointer? events
  status := events.foldl Event.status 0
  epc := latest Event.epc? events
  trapVector := latest Event.trapVector? events
  interruptEnable := latest Event.interruptEnable? events
  pmp := latest Event.pmp? events

/-- What a happening makes of memory. -/
def Happening.memory (m : Memory) : Happening → Memory
  | .filled addr value => m.store addr value
  | .event (.setup (.zeroWord addr)) => m.store addr 0
  | _ => m

/-- What the fills and stores of a history make of an empty memory, in order. -/
def History.memory (history : History) : Memory := history.foldl Happening.memory .empty

/-- A trace and a history that tell how a hart came to be as it is. -/
structure Faithful (id : Word) (budget : Nat) (h : Hart) : Prop where
  registers : h.registers = .replay id h.events
  memory : h.memory = History.memory h.history
  budget : h.wfiBudget = budget - h.events.count .waitForInterrupt
  noted : ∀ note seen, (note, seen) ∈ History.notes h.history →
    seen.registers = .replay id (h.events.take seen.eventCount) ∧ seen.eventCount ≤ h.events.length

theorem latest_concat {α : Type} (value? : Event → Option α) (events : List Event) (e : Event) :
    latest value? (events ++ [e]) = (value? e).or (latest value? events) := by
  unfold latest
  cases found : value? e <;> simp [List.filterMap_append, found]

namespace Registers
variable (id : Word) (events : List Event)

/-- The registers after an event. -/
def trace (r : Registers) : Event → Registers
  | .setup step => r.setup step
  | .write value => r.write value
  | .privilegeReturn mode pc _ => { r with mode := mode, pc := some pc, status := Status.returnedBits r.status }
  | .routineReturned _ _ => { r with pc := none }
  | .waitForInterrupt => r

theorem replay_concat (e : Event) : replay id (events ++ [e]) = (replay id events).trace e := by
  simp only [replay, latest_concat, List.foldl_append, List.foldl_cons, List.foldl_nil]
  cases e with
  | setup step => cases step <;> rfl
  | write value => cases value <;> rfl
  | privilegeReturn mode pc masked => rfl
  | routineReturned entry resume => rfl
  | waitForInterrupt => rfl

theorem trace_privilegeReturn {r : Registers} {status : Status} (entry : Word) (masked : Bool)
    (decoded : Status.ofBits? r.status = some status) :
    r.trace (.privilegeReturn status.previous entry masked) = r.privilegeReturn status entry := by
  rw [privilegeReturn, Status.bits_afterReturn decoded]
  rfl

theorem replay_append (more : List Event) : replay id (events ++ more) = more.foldl trace (replay id events) := by
  induction more generalizing events with
  | nil => rw [List.append_nil, List.foldl_nil]
  | cons e more ih => rw [List.append_cons, ih, replay_concat, List.foldl_cons]

end Registers

section
variable {id : Word} {budget : Nat} {h after : Hart}

theorem change_registers (change : Change h after) (faithful : h.registers = .replay id h.events) :
    after.registers = .replay id after.events := by
  cases change with
  | logged quiet message =>
    rw [Hart.events_logged]
    exact faithful
  | noted n =>
    rw [Hart.events_noted]
    exact faithful
  | written value machine =>
    rw [Hart.events_written, Registers.replay_concat, ← faithful]
    rfl
  | @setup step fits =>
    rw [Hart.events_afterSetup, Registers.replay_concat, ← faithful]
    rfl
  | filled addr value =>
    rw [Hart.events_filled]
    exact faithful
  | landed resume machine decoded target =>
    rw [Hart.events_landed, Registers.replay_concat, ← faithful, Registers.trace_privilegeReturn _ _ decoded]
    rfl
  | cameBack entry resume =>
    rw [Hart.events_cameBack, Registers.replay_concat, ← faithful]
    rfl
  | waited =>
    rw [Hart.events_waited, Registers.replay_concat, ← faithful]
    rfl
  | unregistered entry => exact faithful
  | registered routine => exact faithful

theorem memory_append (old new : History) : (old ++ new).memory = new.foldl Happening.memory old.memory :=
  List.foldl_append

theorem change_memory (change : Change h after) (faithful : h.memory = History.memory h.history) :
    after.memory = History.memory after.history := by
  cases change with
  | logged quiet message =>
    rw [Hart.history_logged, memory_append, ← faithful]
    rfl
  | noted n =>
    rw [Hart.history_noted, memory_append, ← faithful]
    rfl
  | written value machine =>
    rw [Hart.history_written, memory_append, ← faithful]
    rfl
  | @setup step fits =>
    rw [Hart.history_afterSetup, memory_append, ← faithful]
    cases step <;> rfl
  | filled addr value =>
    rw [Hart.history_filled, memory_append, ← faithful]
    rfl
  | landed resume machine decoded target =>
    rw [Hart.history_landed, memory_append, ← faithful]
    rfl
  | cameBack entry resume =>
    rw [Hart.history_cameBack, memory_append, ← faithful]
    rfl
  | waited =>
    rw [Hart.history_waited, memory_append, ← faithful]
    rfl
  | unregistered entry => exact faithful
  | registered routine => exact faithful

theorem change_budget (change : Change h after)
    (faithful : h.wfiBudget = budget - h.events.count .waitForInterrupt) :
    after.wfiBudget = budget - after.events.count .waitForInterrupt := by
  cases change with
  | waited =>
    have spent : h.waited.wfiBudget = h.wfiBudget - 1 := rfl
    rw [Hart.events_waited, List.count_append, spent, faithful]
    simp
    omega
  | unregistered entry => exact faithful
  | registered routine => exact faithful
  | _ =>
    change h.wfiBudget = _
    simpa using faithful

/-- A note is either an old one or takes down the hart as it is. -/
theorem change_notes (change : Change h after) :
    after.history.notes = h.history.notes ∨
      ∃ n, after.history.notes = h.history.notes ++ [(n, h.snapshot)] := by
  cases change with
  | noted n =>
    refine .inr ⟨n, ?_⟩
    rw [Hart.history_noted, History.notes_append]
    rfl
  | unregistered entry => exact .inl rfl
  | registered routine => exact .inl rfl
  | _ =>
    left
    simp [History.notes, Hart.trail]

theorem change_faithful (change : Change h after) (faithful : Faithful id budget h) : Faithful id budget after where
  registers := change_registers change faithful.registers
  memory := change_memory change faithful.memory
  budget := change_budget change faithful.budget
  noted := by
    obtain ⟨added, grown⟩ := reaches_events (.single change)
    -- What was noted before speaks of events that are still there.
    have old : ∀ note seen, (note, seen) ∈ h.history.notes →
        seen.registers = .replay id (after.events.take seen.eventCount) ∧
          seen.eventCount ≤ after.events.length := by
      intro note seen member
      obtain ⟨same, inside⟩ := faithful.noted note seen member
      rw [← grown, List.take_append_of_le_length inside, List.length_append]
      exact ⟨same, by omega⟩
    rcases change_notes change with same | ⟨n, more⟩
    · rw [same]
      exact old
    · intro note seen member
      rw [more, List.mem_append, List.mem_singleton] at member
      rcases member with earlier | now
      · exact old note seen earlier
      · cases now
        have count : h.snapshot.eventCount = h.events.length := rfl
        rw [← grown, count, List.take_left, List.length_append]
        exact ⟨faithful.registers, by omega⟩

end

/-- A hart after a script. A step that faults keeps what it did until then. -/
def Hart.after (h : Hart) (script : List Step) : Hart := script.foldl (fun h step => (h.account step).2) h

theorem account_state (h : Hart) (step : Step) : (h.account step).2 = stateAfter (h.step step) := by
  unfold Hart.account
  cases h.step step <;> rfl

/-- A script takes a hart where a relation allows that allows for every single change. -/
theorem Steady.after {R : Hart → Hart → Prop} (s : Steady R) (h : Hart) (script : List Step) : R h (h.after script) := by
  induction script generalizing h with
  | nil => exact s.refl h
  | cons step script ih =>
    have first : R h (h.account step).2 := by
      rw [account_state]
      exact s.perform_moves _ step h
    exact s.trans first (ih _)

theorem after_reaches (h : Hart) (script : List Step) : Reaches h (h.after script) := reaches_steady.after h script

theorem new_faithful (id : Word) (routines : RoutineTable) (budget : Nat) :
    Faithful id budget (.new id routines budget) where
  registers := rfl
  memory := rfl
  budget := rfl
  noted := by
    intro note seen member
    exact absurd member List.not_mem_nil

/-- The words that a fill writes: up to the first whose address does not exist. -/
def fillAddresses (start : Word) (words : Nat) : List Word :=
  (((List.range words).map fun i => start.toNat + i * Platform.clearStep).takeWhile (· < addressCount)).map
    (BitVec.ofNat 64)

theorem fillFrom_history (start value : Word) (i words : Nat) (h : Hart) :
    (stateAfter (fillFrom start value i words h)).history = h.history ++
      ((((List.range' i words).map fun i => start.toNat + i * Platform.clearStep).takeWhile (· < addressCount)).map
        (BitVec.ofNat 64)).map (.filled · value) := by
  induction words generalizing i h with
  | zero => simp [fillFrom]
  | succ words ih =>
    rw [List.range'_succ, List.map_cons]
    cases next : Word.add? start (i * Platform.clearStep) with
    | none =>
      have past := Word.add?_eq_none_iff.mp next
      rw [fillFrom_overflow h value words next, List.takeWhile_cons_of_neg (by simpa using past)]
      simp
    | some addr =>
      obtain ⟨inside, here⟩ := Word.add?_eq_some_iff.mp next
      rw [fillFrom_next h value words next, ih, List.takeWhile_cons_of_pos (by simpa using inside),
        Hart.history_filled, here, List.append_assoc]
      rfl

theorem fill_history (start value : Word) (words : Nat) (h : Hart) :
    (stateAfter (fill start words value h)).history =
      h.history ++ (fillAddresses start words).map (.filled · value) := by
  rw [fillAddresses, List.range_eq_range']
  exact fillFrom_history start value 0 words h

theorem reachable_faithful {id : Word} {routines : RoutineTable} {budget : Nat} {h : Hart}
    (path : Reaches (.new id routines budget) h) : Faithful id budget h :=
  path.preserves change_faithful (new_faithful id routines budget)

/-- A hart out of reset is what its trace and history tell, after any script and at every moment that a routine has
    noted on the way. Traces and histories only grow, and a fill adds the words that it wrote before it ran out of
    addresses. -/
theorem after_faithful (id : Word) (routines : RoutineTable) (budget : Nat) (script : List Step) :
    Faithful id budget ((Hart.new id routines budget).after script) ∧
      (∀ more, ((Hart.new id routines budget).after script).history <+:
          ((Hart.new id routines budget).after (script ++ more)).history ∧
        ((Hart.new id routines budget).after script).events <+:
          ((Hart.new id routines budget).after (script ++ more)).events) ∧
      ∀ (ops : ResetOps Fault Hart HaltReason) (h : Hart) (start : Word) (words : Nat) (value : Word),
        (stateAfter (perform ops (.fill start words value) h)).history =
          h.history ++ (fillAddresses start words).map (.filled · value) := by
  refine ⟨reachable_faithful (after_reaches _ script), ?_, ?_⟩
  · intro more
    rw [Hart.after, Hart.after, List.foldl_append]
    have path := after_reaches ((Hart.new id routines budget).after script) more
    exact ⟨reaches_history path, reaches_events path⟩
  · intro ops h start words value
    have same : stateAfter (perform ops (.fill start words value) h) = stateAfter (fill start words value h) := by
      simp only [perform, bind_run]
      cases fill start words value h <;> rfl
    rw [same]
    exact fill_history start value words h

end HartBoot.Sim
