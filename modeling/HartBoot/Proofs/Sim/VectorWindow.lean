import HartBoot.Proofs.Sim.Replay
import HartBoot.Proofs.Sim.ResetTrace

/-!
Interrupts while a routine is entered. The entry writes the status first, which may enable interrupts, the trap vector
third and the interrupt sources fourth. Up to the third write the sources and the vector are those that the hart had
before, so an interrupt finds the new vector at every point exactly if the status enables none, if no source was left
enabled, or if the vector was in place already (`vector_window`). Early initialisation enables interrupts by its status;
a hart that comes out of reset with a source enabled can be interrupted into whatever its vector register holds then
(`earlyInit_interrupted`).
-/
namespace HartBoot.Sim

/-- Machine interrupts are enabled, and some source is. -/
def Registers.Exposed (r : Registers) : Prop :=
  (FlagSet.mk r.status : StatusFlags).contains StatusFlags.mie = true ∧ r.interruptsMasked = false

/-- Where interrupts can come they are taken at `v`. -/
def Registers.VectorFirst (v : TrapVector) (r : Registers) : Prop := r.Exposed → r.trapVector = some v

/-- A hart that enters the routine of `t` and has done `count` of its register writes. -/
def Hart.midway (h : Hart) (t : Transition) (count : Nat) : Hart :=
  (t.writes.take count).foldl written
    (h.reported .trace ("mret to " ++ hex t.entry ++ " in " ++ inspect t.mode ++ " mode"))

section
variable {h : Hart} {t : Transition} {v : TrapVector} {count : Nat}

/-- The entry is done from the register write number `count` on where it has done the writes before it. -/
theorem enter_midway (depth : Nat) (machine : h.registers.mode = .machine) (count : Nat) :
    (opsAt depth).enter t h = ((t.writes.drop count).forM (opsAt depth).write >>= fun _ =>
      (opsAt depth).privilegeReturn t.resume) (h.midway t count) := by
  rw [opsAt_eq]
  have begun : (t.writes.take count).forM writeRegister (h.reported .trace _) = .ok () (h.midway t count) :=
    writes_machine _ _ machine
  have split : t.writes.forM (opsWith (routineAt depth)).write = (t.writes.take count).forM writeRegister >>= fun _ =>
      (t.writes.drop count).forM (opsWith (routineAt depth)).write :=
    (congrArg (fun writes => List.forM writes _) (List.take_append_drop count t.writes).symm).trans List.forM_append
  unfold HartOps.enter
  rw [bind_of_ok (report_run _ h _ _), split, bind_assoc, bind_of_ok begun]

theorem registers_midway (h : Hart) (t : Transition) (count : Nat) :
    (h.midway t count).registers = (t.writes.take count).foldl Registers.write h.registers :=
  Hart.registers_foldl_written _ _

/-- Before the third write the status is the new one, the sources and the vector are the old ones. -/
theorem registers_midway_early (begun : 0 < count) (early : count ≤ 2) :
    (h.midway t count).registers.status = t.status.bits ∧
      (h.midway t count).registers.interruptEnable = h.registers.interruptEnable ∧
      (h.midway t count).registers.trapVector = h.registers.trapVector := by
  obtain rfl | rfl : count = 1 ∨ count = 2 := by omega
  all_goals
    rw [registers_midway]
    exact ⟨rfl, rfl, rfl⟩

/-- From the third write on the vector is the new one. -/
theorem registers_midway_late (installs : t.trapVector = some v) (late : 2 < count) :
    (h.midway t count).registers.trapVector = some v := by
  obtain ⟨more, rfl⟩ : ∃ more, count = more + 3 := ⟨count - 3, by omega⟩
  rw [registers_midway, Transition.writes, installs]
  cases t.pmp <;> rcases more with _ | _ | more <;> simp [Registers.write]

theorem vectorFirst_midway (installs : t.trapVector = some v) (begun : 0 < count) :
    (h.midway t count).registers.VectorFirst v ↔
      2 < count ∨ t.status.flags.contains StatusFlags.mie = false ∨ h.registers.interruptsMasked = true ∨
        h.registers.trapVector = some v := by
  by_cases late : 2 < count
  · exact ⟨fun _ => .inl late, fun _ _ => registers_midway_late installs late⟩
  · obtain ⟨status, sources, vector⟩ := registers_midway_early (h := h) (t := t) begun (by omega)
    have masked : (h.midway t count).registers.interruptsMasked = h.registers.interruptsMasked := by
      rw [Registers.interruptsMasked, sources, Registers.interruptsMasked]
    rw [Registers.VectorFirst, Registers.Exposed, status, StatusFlags.mie, Status.contains_bits _ (by decide), masked,
      vector]
    cases t.status.flags.contains (.single 3) <;> cases h.registers.interruptsMasked <;> simp [late]

theorem earlyInitStatus_enables : Transition.earlyInitStatus.flags.contains StatusFlags.mie = true := by decide

end

/-- Between its first register write and its return an entry that installs a vector leaves interrupts no other one
    exactly from the third write on, or if none can come before that: the status enables none, no source was left
    enabled, or the vector was in place. The status of early initialisation enables interrupts, so there it is down to
    what the hart held before. -/
theorem vector_window (t : Transition) {h : Hart} {v : TrapVector} (machine : h.registers.mode = .machine)
    (installs : t.trapVector = some v) :
    (∀ depth count, (opsAt depth).enter t h = ((t.writes.drop count).forM (opsAt depth).write >>= fun _ =>
        (opsAt depth).privilegeReturn t.resume) (h.midway t count)) ∧
      (∀ count, 0 < count → ((h.midway t count).registers.VectorFirst v ↔
        2 < count ∨ t.status.flags.contains StatusFlags.mie = false ∨ h.registers.interruptsMasked = true ∨
          h.registers.trapVector = some v)) ∧
      ∀ (l : Layout) (count : Nat), 0 < count → ((h.midway (.earlyInit l) count).registers.VectorFirst l.trapVector ↔
        2 < count ∨ h.registers.interruptsMasked = true ∨ h.registers.trapVector = some l.trapVector) := by
  refine ⟨fun depth count => enter_midway depth machine count, fun count begun => vectorFirst_midway installs begun, ?_⟩
  intro l count begun
  have window := vectorFirst_midway (h := h) (t := .earlyInit l) rfl begun
  have enables : (Transition.earlyInit l).status.flags.contains StatusFlags.mie = true := earlyInitStatus_enables
  rw [enables] at window
  simpa using window

/-- A hart out of reset that has the sources of machine mode enabled, as no register but the hart's number and the
    program counter has a known value then. -/
def strayHart : Hart := (Hart.new Platform.bootHart [] 4).after [.write (.interruptEnable ⟨0x888⟩)]

theorem vector_window_strayHart :
    (strayHart.registers.mode = .machine ∧ (Transition.earlyInit smallLayout).trapVector = some (.direct 0x300)) ∧
      (∀ depth count, (opsAt depth).enter (.earlyInit smallLayout) strayHart =
        (((Transition.earlyInit smallLayout).writes.drop count).forM (opsAt depth).write >>= fun _ =>
          (opsAt depth).privilegeReturn .caller) (strayHart.midway (.earlyInit smallLayout) count)) ∧
      ∀ count, 0 < count → ((strayHart.midway (.earlyInit smallLayout) count).registers.VectorFirst (.direct 0x300) ↔
        2 < count) := by
  obtain ⟨steps, points, _⟩ := vector_window (.earlyInit smallLayout) (h := strayHart) (v := .direct 0x300) rfl rfl
  refine ⟨⟨rfl, rfl⟩, steps, ?_⟩
  intro count begun
  rw [points count begun]
  have unready : ¬ ((Transition.earlyInit smallLayout).status.flags.contains StatusFlags.mie = false ∨
      strayHart.registers.interruptsMasked = true ∨ strayHart.registers.trapVector = some (.direct 0x300)) := by decide
  simp only [unready, or_false]

/-- When early initialisation is entered on such a hart, interrupts are enabled by the first register write and no trap
    vector is installed. -/
theorem earlyInit_interrupted :
    strayHart.registers.mode = .machine ∧ (Transition.earlyInit smallLayout).trapVector = some (.direct 0x300) ∧
      (strayHart.midway (.earlyInit smallLayout) 1).registers.Exposed ∧
      (strayHart.midway (.earlyInit smallLayout) 1).registers.trapVector = none ∧
      ¬ (strayHart.midway (.earlyInit smallLayout) 1).registers.VectorFirst (.direct 0x300) := by
  have exposed : (strayHart.midway (.earlyInit smallLayout) 1).registers.Exposed := ⟨rfl, rfl⟩
  have uninstalled : (strayHart.midway (.earlyInit smallLayout) 1).registers.trapVector = none := rfl
  refine ⟨rfl, rfl, exposed, uninstalled, ?_⟩
  intro first
  have installed := first exposed
  rw [uninstalled] at installed
  cases installed

end HartBoot.Sim
