import HartBoot.Console.Basic
import HartBoot.Log.Record
import HartBoot.Memory
import HartBoot.Boot.Sequence

/-!
A hart on its board: control registers that keep what is written, memory, a console on the UART and the timer
comparator. `encode` says which control registers a machine-level write goes to and with which
value, and `opsWith` gives the boot its hart. The board models no privilege levels: nothing is
refused, and a return from machine mode changes no register.
-/
namespace HartBoot.Machine

inductive Csr
  | mhartid
  | mstatus
  | mepc
  | mtvec
  | mie
  | pmpaddr0
  | pmpcfg0
  | satp
  | mcause
  | mtval
deriving DecidableEq

def Csr.name : Csr → String
  | .mhartid => "mhartid"
  | .mstatus => "mstatus"
  | .mepc => "mepc"
  | .mtvec => "mtvec"
  | .mie => "mie"
  | .pmpaddr0 => "pmpaddr0"
  | .pmpcfg0 => "pmpcfg0"
  | .satp => "satp"
  | .mcause => "mcause"
  | .mtval => "mtval"

inductive Register
  | zero
  | gp
  | sp
  | t0
  | t1
  | a0
  | a1
  | a2
deriving DecidableEq

def Register.name : Register → String
  | .zero => "zero"
  | .gp => "gp"
  | .sp => "sp"
  | .t0 => "t0"
  | .t1 => "t1"
  | .a0 => "a0"
  | .a1 => "a1"
  | .a2 => "a2"

inductive Target
  | park
  | bootDescend
  | handler
deriving DecidableEq

def Target.name : Target → String
  | .park => "park"
  | .bootDescend => "boot_descend"
  | .handler => "handler"

inductive Event
  | csr (register : Csr) (value : Word)
  | store (addr value : Word)
  /-- A return from machine mode, with the registers it goes by. -/
  | mret (epc status interrupts : Word)
  /-- The routine at an address came back. -/
  | returned (entry : Word)
  /-- Assembly code left for other code, with these registers set. -/
  | tail (target : Target) (registers : List (Register × Word))
  | waitForInterrupt
deriving DecidableEq

inductive Ending
  /-- It waited for interrupts as often as it may. -/
  | parked
  | diverged
  /-- It goes round for ever: in a loop without an end, or waiting for a lock that nobody frees. -/
  | endless
deriving DecidableEq

/-- Why an operation did not come to its end. -/
inductive Stop
  | fault (cause : Fault)
  | ended (how : Ending)
deriving DecidableEq

structure Board where
  csr : Csr → Word
  memory : Memory
  /-- How often the hart may still wait for interrupts. -/
  wfiBudget : Nat
  traced : Array Event
  console : Console
  /-- The UARTs that were initialised, by base address. -/
  uarts : List Word
  filter : Log.Filter
  /-- The source position of every record that the image logs. -/
  position : Log.Position
  comparator : Word

/-- An operation of the hart. What stops it keeps what was done until then. -/
abbrev BoardM := EStateM Stop Board

namespace Board

/-- The board at reset: registers zero but for the hart's number, a console with a sink, logging off. -/
def atReset (id : Word) (budget : Nat) (position : Log.Position) : Board where
  csr := fun r => if r = .mhartid then id else 0
  memory := .empty
  wfiBudget := budget
  traced := #[]
  console := ⟨false, [⟨none, ""⟩]⟩
  uarts := []
  filter := .off
  position := position
  comparator := 0

def defaultWfiBudget : Nat := 4

def setCsr (b : Board) (register : Csr) (value : Word) : Board :=
  { b with csr := fun r => if r = register then value else b.csr r }

def events (b : Board) : List Event := b.traced.toList

def trace (b : Board) (e : Event) : Board := { b with traced := b.traced.push e }

@[simp] theorem events_trace (b : Board) (e : Event) : (b.trace e).events = b.events ++ [e] := by
  simp [events, trace]

end Board

def record (e : Event) : BoardM Unit := modify (·.trace e)

def writeCsr (register : Csr) (value : Word) : BoardM Unit := do
  modify (·.setCsr register value)
  record (.csr register value)

/-- An operation on the console; one that waits for the lock for ever is endless. -/
def onConsole {α : Type} (f : Console → Option (Console × α)) : BoardM α := do
  match f (← get).console with
  | none => throw (.ended .endless)
  | some (console, a) =>
    modify fun b => { b with console := console }
    return a

def print (pieces : List String) : BoardM Unit :=
  onConsole fun c => (c.print pieces).map (·, ())

def log (level : Log.Level) (message : String) : BoardM Unit := do
  let b ← get
  if b.filter.admits level then
    print (Log.inColor level.color [Log.Record.line ⟨level, message, b.position⟩])

/-- Waits for interrupts; the hart ends when it may wait no longer. -/
def waitForInterrupt : BoardM Unit := do
  record .waitForInterrupt
  modify fun b => { b with wfiBudget := b.wfiBudget - 1 }
  if (← get).wfiBudget = 0 then
    throw (.ended .parked)

/-- Waits for interrupts for ever, which the budget ends. -/
def park {α : Type} : BoardM α := do
  (List.replicate (max 1 (← get).wfiBudget) ()).forM fun _ => waitForInterrupt
  throw (.ended .parked)

/-- The bits of the status register that can be written. -/
def statusMask : Word := 0x80000000007ffffe

def interruptMask : Word := 0xaaa

/-- The trap vector register with its two fields filled: the address without its low bits, and the mode. -/
def encodeTrapVector (v : TrapVector) : Word :=
  putField 0 (field 0 2 v.mode.bits) (putField 2 (field 2 62 v.address) (0 : Word))

/-- The control registers that a machine-level write goes to, in order, with their values. The protection
    entry is live as soon as its configuration is written, so its address comes first. -/
def encode : RegisterWrite → Except Fault (List (Csr × Word))
  | .status value => .ok [(.mstatus, value.bits &&& statusMask)]
  | .epc entry => .ok [(.mepc, entry)]
  | .trapVector vector =>
    if vector.IsAligned then .ok [(.mtvec, encodeTrapVector vector)]
    else .error (.misalignedTrapVector vector.address)
  | .interruptEnable mask => .ok [(.mie, mask.bits &&& interruptMask)]
  | .pmp entry => .ok [(.pmpaddr0, entry.address), (.pmpcfg0, entry.configBits)]

def writeRegister (value : RegisterWrite) : BoardM Unit :=
  match encode value with
  | .ok writes => writes.forM fun w => writeCsr w.1 w.2
  | .error cause => throw (.fault cause)

/-- A return from machine mode, when `run` runs the routine at an address. -/
def privilegeReturn (run : Word → BoardM Unit) (resume : Resume) : BoardM (Flow Empty) := do
  let b ← get
  let entry := b.csr .mepc
  record (.mret entry (b.csr .mstatus) (b.csr .mie))
  run entry
  record (.returned entry)
  match resume with
  | .caller => return .onward
  | .idle => park

/-- The operations of the hart, when `run` runs the routine at an address. A hart never halts. -/
def opsWith (run : Word → BoardM Unit) : HartOps Stop Board Empty where
  hartId b := b.csr .mhartid
  patience b := max 1 b.wfiBudget
  fault := .fault
  emit := log
  write := writeRegister
  privilegeReturn := privilegeReturn run
  waitForInterrupt := do
    waitForInterrupt
    return .onward

end HartBoot.Machine
