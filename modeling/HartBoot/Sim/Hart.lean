import HartBoot.Memory
import HartBoot.Sim.History

/-!
A simulated hart: its registers, a sparse memory, the routines registered with it and its history. Each
primitive operation changes the state and records its event (`record`), and those on machine-level registers
are refused below machine mode (`requireMachine`).
-/
namespace HartBoot.Sim

structure Hart where
  registers : Registers
  memory : Memory
  routines : RoutineTable
  /-- How often the hart may still wait for interrupts. -/
  wfiBudget : Nat
  /-- All that was done by it and to it so far. -/
  happenings : Array Happening

namespace Hart

/-- A hart out of reset that may wait for interrupts `budget` times. -/
def new (id : Word) (routines : RoutineTable) (budget : Nat) : Hart where
  registers := .atReset id
  memory := .empty
  routines := routines
  wfiBudget := budget
  happenings := #[]

def defaultWfiBudget : Nat := 4

def history (h : Hart) : History := h.happenings.toList

/-- The trace: every event, in order. -/
def events (h : Hart) : List Event := History.events h.history

def stores (h : Hart) : List (Word × Word) := h.events.filterMap Event.store?

def snapshot (h : Hart) : Snapshot := ⟨h.registers, h.events.length⟩

def remember (h : Hart) (what : Happening) : Hart := { h with happenings := h.happenings.push what }

@[simp] theorem history_remember (h : Hart) (what : Happening) : (h.remember what).history = h.history ++ [what] := by
  simp [history, remember]

end Hart

/-- An operation on a simulated hart. A fault keeps what was done until then. -/
abbrev HartM := EStateM Fault Hart

def setRegisters (f : Registers → Registers) : HartM Unit :=
  modify fun h => { h with registers := f h.registers }

def store (addr value : Word) : HartM Unit :=
  modify fun h => { h with memory := h.memory.store addr value }

/-- Logs a record of no known source position. -/
def emit (level : Log.Level) (message : String) : HartM Unit :=
  modify (·.remember (.logged ⟨level, message, ⟨none, none⟩⟩))

/-- Logs an event and records it. -/
def record (e : Event) : HartM Unit := do
  emit .trace ("sim hart " ++ decimal (← get).registers.hartId ++ ": " ++ inspect e)
  modify (·.remember (.event e))

def note (n : Note) : HartM Unit :=
  modify fun h => h.remember (.noted n h.snapshot)

/-- Refuses an operation below machine mode. -/
def requireMachine (what : String) : HartM Unit := do
  let r := (← get).registers
  if r.mode ≠ .machine then
    throw (.illegalAccess r.hartId what r.mode)

def writeRegister (value : RegisterWrite) : HartM Unit := do
  requireMachine value.text
  setRegisters (·.write value)
  record (.write value)

def zeroWord (addr : Word) : HartM Unit := do
  if ¬ Aligned Platform.clearStep addr then
    throw (.misalignedStore (← get).registers.hartId addr)
  store addr 0

def performSetup (step : Setup) : HartM Unit := do
  if let .zeroWord addr := step then
    zeroWord addr
  setRegisters (·.setup step)
  record (.setup step)

/-- Puts a value into `words` consecutive words of memory, the first of them `i` words after `start`. -/
def fillFrom (start value : Word) (i : Nat) : (words : Nat) → HartM Unit
  | 0 => pure ()
  | words + 1 => do
    match Word.add? start (i * Platform.clearStep) with
    | none => throw .addressOverflow
    | some addr =>
      store addr value
      modify (·.remember (.filled addr value))
      fillFrom start value (i + 1) words

/-- Puts a value into `words` consecutive words of memory, without a trace. -/
def fill (start : Word) (words : Nat) (value : Word) : HartM Unit := fillFrom start value 0 words

/-- The hart's own part of a return from machine mode, which gives the address it lands on. -/
def land (resume : Resume) : HartM Word := do
  requireMachine "mret"
  let r := (← get).registers
  match Status.ofBits? r.status, r.epc with
  | none, _ => throw (.reservedLevel r.hartId)
  | some _, none => throw (.noReturnAddress r.hartId)
  | some status, some entry =>
    modify (·.remember (.mret entry resume))
    setRegisters (·.privilegeReturn status entry)
    record (.privilegeReturn status.previous entry r.interruptsMasked)
    return entry

/-- A return from machine mode, when `run` runs the routine at an address. -/
def privilegeReturn (run : Word → HartM Exit) (resume : Resume) : HartM (Flow HaltReason) := do
  let entry ← land resume
  match ← run entry with
  | .returns =>
    record (.routineReturned entry resume)
    setRegisters fun r => { r with pc := none }
    return .onward
  | .diverges => return .halted (.diverged entry)

/-- Waits for interrupts; the hart halts when it may wait no longer. -/
def waitForInterrupt : HartM (Flow HaltReason) := do
  record .waitForInterrupt
  modify fun h => { h with wfiBudget := h.wfiBudget - 1 }
  return if (← get).wfiBudget = 0 then .halted .parked else .onward

end HartBoot.Sim
