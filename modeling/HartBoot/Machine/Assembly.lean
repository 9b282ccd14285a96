import HartBoot.Machine.Board

/-!
Assembly code, as far as the boot needs it before there is a stack. A program is a list of lines, instructions
and labels. `execute` performs it until it leaves for other code and gives its effects in order; `runCode`
has a hart perform them.
-/
namespace HartBoot.Machine

/-- The addresses that linking gives names to. -/
inductive Symbol
  | globalPointer
  | bssStart
  | bssEnd
  | stackEnd
deriving DecidableEq

inductive Instruction
  | csrr (rd : Register) (csr : Csr)
  | csrw (csr : Csr) (rs : Register)
  | li (rd : Register) (value : Word)
  | la (rd : Register) (symbol : Symbol)
  /-- Adds a number, modulo the word size. -/
  | addi (rd rs : Register) (value : Word)
  | sd (rs base : Register) (offset : Word)
  | beq (rs1 rs2 : Register) (label : Nat)
  /-- Branches if the first register is below the second, as unsigned numbers. -/
  | bltu (rs1 rs2 : Register) (label : Nat)
  /-- Branches if the first register is not below the second, as unsigned numbers. -/
  | bgeu (rs1 rs2 : Register) (label : Nat)
  | tail (target : Target)
deriving DecidableEq

inductive Line
  | label (number : Nat)
  | code (instruction : Instruction)
deriving DecidableEq

abbrev RegisterFile := Register → Word

namespace RegisterFile

def initial : RegisterFile := fun _ => 0

/-- Sets a register; the zero register stays zero. -/
def set (r : RegisterFile) (rd : Register) (value : Word) : RegisterFile :=
  fun x => if x = rd ∧ rd ≠ .zero then value else r x

/-- The registers that the code it leaves for can see, those that are not zero. -/
def handedOver (r : RegisterFile) : List (Register × Word) :=
  ([.gp, .sp, .a0, .a1, .a2].map fun x => (x, r x)).filter fun item => item.2 != 0

end RegisterFile

structure Cpu where
  csr : Csr → Word
  registers : RegisterFile

inductive Effect
  | register (rd : Register) (value : Word)
  | csr (name : Csr) (value : Word)
  | store (addr value : Word)
deriving DecidableEq

/-- The state after an effect; code does not read memory. -/
def Cpu.apply (c : Cpu) : Effect → Cpu
  | .register rd value => { c with registers := c.registers.set rd value }
  | .csr name value => { c with csr := fun other => if other = name then value else c.csr other }
  | .store _ _ => c

inductive Next
  | after (effect : Effect)
  | onward
  | jump (label : Nat)
  | tail (target : Target)
deriving DecidableEq

def branch (taken : Bool) (label : Nat) : Next := if taken then .jump label else .onward

def Instruction.next (symbols : Symbol → Word) (c : Cpu) : Instruction → Next
  | .csrr rd csr => .after (.register rd (c.csr csr))
  | .csrw csr rs => .after (.csr csr (c.registers rs))
  | .li rd value => .after (.register rd value)
  | .la rd symbol => .after (.register rd (symbols symbol))
  | .addi rd rs value => .after (.register rd (c.registers rs + value))
  | .sd rs base offset => .after (.store (c.registers base + offset) (c.registers rs))
  | .beq rs1 rs2 label => branch (c.registers rs1 = c.registers rs2) label
  | .bltu rs1 rs2 label => branch (c.registers rs1 < c.registers rs2) label
  | .bgeu rs1 rs2 label => branch (c.registers rs2 ≤ c.registers rs1) label
  | .tail target => .tail target

def linesFrom (program : List Line) (label : Nat) : List Line := program.dropWhile (· != .label label)

/-- A run of code up to where it leaves for other code: its effects in order, and the registers at its end. -/
structure Departure where
  effects : List Effect
  target : Target
  registers : RegisterFile

/-- Performs `lines` of a program, `n` lines at most, until it leaves for other code. None if it has not left
    by then. -/
def execute (symbols : Symbol → Word) (program : List Line) : Nat → List Line → Cpu → Option Departure
  | 0, _, _ => none
  | _ + 1, [], _ => none
  | n + 1, .label _ :: lines, c => execute symbols program n lines c
  | n + 1, .code instruction :: lines, c =>
    match instruction.next symbols c with
    | .after effect =>
      (execute symbols program n lines (c.apply effect)).map fun d => { d with effects := effect :: d.effects }
    | .onward => execute symbols program n lines c
    | .jump label => execute symbols program n (linesFrom program label) c
    | .tail target => some ⟨[], target, c.registers⟩

/-- An effect on the board; general registers are not part of it. -/
def Effect.perform : Effect → BoardM Unit
  | .register _ _ => pure ()
  | .csr name value => writeCsr name value
  | .store addr value => do
    modify fun b => { b with memory := b.memory.store addr value }
    record (.store addr value)

/-- Runs a program, `n` lines of it at most, and gives the code it leaves for and the registers then. A
    program that has not left by then is taken to be endless. -/
def runCode (symbols : Symbol → Word) (program : List Line) (n : Nat) : BoardM (Target × RegisterFile) := do
  match execute symbols program n program ⟨(← get).csr, .initial⟩ with
  | none => throw (.ended .endless)
  | some d =>
    d.effects.forM Effect.perform
    record (.tail d.target d.registers.handedOver)
    return (d.target, d.registers)

end HartBoot.Machine
