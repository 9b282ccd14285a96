import HartBoot.Sim.Hart

/-!
Running operations on a simulated hart. A return from machine mode runs the routine registered at the address
it lands on. While a routine runs it is not registered, so it cannot be entered again; it is registered again
when its run has ended, and is lost when a fault ends the run. Routines therefore nest at most as deep as
there are routines, and `opsAt` is defined by recursion on that depth.
-/
namespace HartBoot.Sim

/-- The operations of a simulated hart, when `run` runs the routine at an address. -/
def opsWith (run : Word → HartM Exit) : ResetOps Fault Hart HaltReason where
  hartId h := h.registers.hartId
  patience h := max 1 h.wfiBudget
  fault := id
  emit := emit
  write := writeRegister
  privilegeReturn := privilegeReturn run
  waitForInterrupt := waitForInterrupt
  setup := performSetup

section
variable (ops : ResetOps Fault Hart HaltReason)

def performCall (boot : Boot) : Call → HartM CallAnswer
  | .stage => pure (.stage boot.stage)
  | .prologue => do
    Boot.prologue ops boot.layout
    return .done
  | .clearBss region => do
    Boot.clearBss ops region
    return .done
  | .idle => CallAnswer.flow <$> ops.idle
  | .reset => CallAnswer.flow <$> boot.reset ops
  | .descend => CallAnswer.flow <$> boot.descend ops.toHartOps

def perform : Step → HartM Answer
  | .write value => do
    ops.write value
    return .done
  | .setup step => do
    ops.setup step
    return .done
  | .fill start words value => do
    fill start words value
    return .done
  | .privilegeReturn resume => Answer.flow <$> ops.privilegeReturn resume
  | .waitForInterrupt => Answer.flow <$> ops.waitForInterrupt
  | .enter transition => Answer.flow <$> ops.enter transition
  | .read addrs => do
    return .words (addrs.map (← get).memory.read)
  | .stores => do
    return .stores (← get).stores
  | .boot start calls => Answer.calls <$> calls.mapM (performCall ops start)

def setRoutines (f : RoutineTable → RoutineTable) : HartM Unit :=
  modify fun h => { h with routines := f h.routines }

/-- Performs the steps of a routine, each noted with its answer. -/
def performNoted (steps : List Step) : HartM Unit :=
  steps.forM fun step => do
    let answer ← perform ops step
    note (.performed step answer)

/-- Runs a routine. It is not registered until it ends. -/
def runRoutine (routine : Routine) : HartM Exit := do
  setRoutines fun table => RoutineTable.remove table routine.entry
  let run := routine.nextRun
  let routine := { routine with entered := routine.entered + 1 }
  note (.entered routine.entry routine.entered)
  performNoted ops run.steps
  setRoutines fun table => RoutineTable.register table routine
  note (.left routine.entry run.exit)
  return run.exit

/-- Runs the routine at an address. Where none is registered the hart comes back at once. -/
def runAt (entry : Word) : HartM Exit := do
  match RoutineTable.lookup (← get).routines entry with
  | none => return .returns
  | some routine => runRoutine ops routine

end

/-- The operations of a simulated hart whose routines nest at most `depth` deep. -/
def opsAt : Nat → ResetOps Fault Hart HaltReason
  | 0 => opsWith fun _ => pure .returns
  | depth + 1 => opsWith (runAt (opsAt depth))

/-- The account of one operation: its answer or the fault that ended it, the state afterwards, and what was
    traced, noted and logged meanwhile. -/
structure Account where
  step : Step
  answer : Except Fault Answer
  state : Snapshot
  events : List Event
  notes : List (Note × Snapshot)
  log : List Log.Record

namespace Hart

/-- Performs an operation; no more routines can be running at once than are registered. -/
def step (h : Hart) (op : Step) : EStateM.Result Fault Hart Answer :=
  perform (opsAt h.routines.length) op h

/-- Performs an operation and gives its account. A fault ends the operation and no more. -/
def account (h : Hart) (op : Step) : Account × Hart :=
  match h.step op with
  | .ok answer after => (about (.ok answer) after, after)
  | .error fault after => (about (.error fault) after, after)
where
  about (answer : Except Fault Answer) (after : Hart) : Account :=
    let done := after.history.drop h.history.length
    { step := op
      answer := answer
      state := after.snapshot
      events := History.events done
      notes := History.notes done
      log := History.log done }

def accounts (h : Hart) : List Step → List Account
  | [] => []
  | op :: ops =>
    let (done, after) := h.account op
    done :: after.accounts ops

end Hart
end HartBoot.Sim
