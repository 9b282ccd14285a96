import HartBoot.Boot.Sequence

/-!
Scripted routines. A simulated hart runs a routine when a return from machine mode lands on its address; what
the routine does is a list of operations (`Step`), which may differ from run to run. The table of the
registered routines has at most one routine at an address.
-/
namespace HartBoot.Sim

/-- Why a simulated hart has halted. -/
inductive HaltReason
  /-- It waited for interrupts as often as it may. -/
  | parked
  /-- The routine at `entry` did not come back. -/
  | diverged (entry : Word)
deriving DecidableEq

/-- An operation on a boot in progress. -/
inductive Call
  | stage
  | prologue
  | clearBss (region : BssRegion)
  | idle
  | reset
  | descend

inductive CallAnswer
  | stage (stage : Stage)
  | done
  | flow (flow : Flow HaltReason)

inductive Step
  | write (value : RegisterWrite)
  | setup (step : Setup)
  /-- Puts a value into `words` consecutive words of memory, without a trace. -/
  | fill (start : Word) (words : Nat) (value : Word)
  | privilegeReturn (resume : Resume)
  | waitForInterrupt
  | enter (transition : Transition)
  | read (addrs : List Word)
  | stores
  /-- Operations on a boot in progress. -/
  | boot (start : Boot) (calls : List Call)

inductive Answer
  | done
  | flow (flow : Flow HaltReason)
  | words (values : List (Option Word))
  | stores (stores : List (Word × Word))
  | calls (answers : List CallAnswer)

/-- How a run of a routine ends. -/
inductive Exit
  | returns
  | diverges
deriving DecidableEq

structure Run where
  steps : List Step
  exit : Exit

structure Routine where
  entry : Word
  /-- What the routine does the first time, the second time and so on. -/
  runs : List Run
  entered : Nat

namespace Routine

/-- What the routine does when it is next entered; the last run is repeated. -/
def nextRun (r : Routine) : Run :=
  match r.runs[r.entered]? with
  | some run => run
  | none => r.runs.getLast?.getD ⟨[], .returns⟩

end Routine

abbrev RoutineTable := List Routine

namespace RoutineTable

def lookup (table : RoutineTable) (entry : Word) : Option Routine := table.find? (·.entry == entry)

def remove (table : RoutineTable) (entry : Word) : RoutineTable := table.filter (·.entry != entry)

/-- Registers a routine, in place of the one at its address. -/
def register (table : RoutineTable) (r : Routine) : RoutineTable := r :: RoutineTable.remove table r.entry

theorem entry_of_lookup {table : RoutineTable} {entry : Word} {r : Routine} (found : lookup table entry = some r) :
    r.entry = entry := by
  simpa using List.find?_some found

/-- A table shrinks when a registered routine is removed. -/
theorem length_remove_lt {table : RoutineTable} {entry : Word} {r : Routine} (found : lookup table entry = some r) :
    (remove table entry).length < table.length := by
  refine List.length_filter_lt_length_iff_exists.mpr ⟨r, List.mem_of_find?_eq_some found, ?_⟩
  simp [entry_of_lookup found]

end RoutineTable
end HartBoot.Sim
