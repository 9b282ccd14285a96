import HartBoot.Machine.Assembly

/-!
Runs of assembly code that end. `Departs` says that code leaves for other code within a number of lines; a run is put
together from its lines, the last first (`departs_label`, `departs_after`, `departs_onward`, `departs_jump`,
`departs_tail`).
-/
namespace HartBoot.Machine

/-- Within `k` lines the code at `lines` leaves with `d`. -/
def Departs (symbols : Symbol → Word) (program : List Line) (k : Nat) (lines : List Line) (c : Cpu) (d : Departure) :
    Prop :=
  ∀ n, k ≤ n → execute symbols program n lines c = some d

/-- A run that has an effect first. -/
def Departure.preceded (d : Departure) (effect : Effect) : Departure := { d with effects := effect :: d.effects }

section
variable {symbols : Symbol → Word} {program lines : List Line} {k : Nat} {c : Cpu} {d : Departure}

theorem departs_more (departs : Departs symbols program k lines c d) {m : Nat} (longer : k ≤ m) :
    Departs symbols program m lines c d :=
  fun n enough => departs n (Nat.le_trans longer enough)

theorem departs_label (label : Nat) (rest : Departs symbols program k lines c d) :
    Departs symbols program (k + 1) (.label label :: lines) c d := by
  intro n enough
  obtain ⟨m, rfl⟩ := Nat.exists_eq_add_of_le enough
  rw [Nat.add_right_comm]
  exact rest (k + m) (Nat.le_add_right k m)

variable {instruction : Instruction}

theorem departs_after {effect : Effect} (next : instruction.next symbols c = .after effect)
    (rest : Departs symbols program k lines (c.apply effect) d) :
    Departs symbols program (k + 1) (.code instruction :: lines) c (d.preceded effect) := by
  intro n enough
  obtain ⟨m, rfl⟩ := Nat.exists_eq_add_of_le enough
  rw [Nat.add_right_comm, execute, next]
  simp only [rest (k + m) (Nat.le_add_right k m)]
  rfl

theorem departs_onward (next : instruction.next symbols c = .onward) (rest : Departs symbols program k lines c d) :
    Departs symbols program (k + 1) (.code instruction :: lines) c d := by
  intro n enough
  obtain ⟨m, rfl⟩ := Nat.exists_eq_add_of_le enough
  rw [Nat.add_right_comm, execute, next]
  exact rest (k + m) (Nat.le_add_right k m)

theorem departs_jump {label : Nat} (next : instruction.next symbols c = .jump label)
    (rest : Departs symbols program k (linesFrom program label) c d) :
    Departs symbols program (k + 1) (.code instruction :: lines) c d := by
  intro n enough
  obtain ⟨m, rfl⟩ := Nat.exists_eq_add_of_le enough
  rw [Nat.add_right_comm, execute, next]
  exact rest (k + m) (Nat.le_add_right k m)

theorem departs_tail {target : Target} (next : instruction.next symbols c = .tail target) :
    Departs symbols program 1 (.code instruction :: lines) c ⟨[], target, c.registers⟩ := by
  intro n enough
  obtain ⟨m, rfl⟩ := Nat.exists_eq_add_of_le enough
  rw [Nat.add_comm, execute, next]

end
end HartBoot.Machine
