import HartBoot.Proofs.Sim.Congruence
import HartBoot.Proofs.Sim.Entry
import Mathlib.Logic.Relation

/-!
The changes that a simulated hart goes through. Whatever it is made to do, nested routines and faults half way
included, takes it where a relation allows that allows for each single change, which is the effect of one primitive
operation (`Steady.perform_moves`). The least such relation is a sequence of changes (`reaches_steady`), and what every
change preserves is therefore preserved by every operation (`Reaches.preserves`).
-/
namespace HartBoot.Sim

/-- One change to a hart. -/
inductive Change (h : Hart) : Hart → Prop
  | logged {level : Log.Level} (quiet : level.Quiet) (message : String) : Change h (h.logged level message)
  | noted (n : Note) : Change h (h.noted n)
  | written (value : RegisterWrite) (machine : h.registers.mode = .machine) : Change h (h.written value)
  | setup {step : Setup} (fits : step.Fits) : Change h (h.afterSetup step)
  | filled (addr value : Word) : Change h (h.filled addr value)
  | landed (resume : Resume) {status : Status} {entry : Word} (machine : h.registers.mode = .machine)
      (decoded : Status.ofBits? h.registers.status = some status) (target : h.registers.epc = some entry) :
      Change h (h.landed resume status entry)
  | cameBack (entry : Word) (resume : Resume) : Change h (h.cameBack entry resume)
  | waited : Change h h.waited
  | unregistered (entry : Word) : Change h { h with routines := RoutineTable.remove h.routines entry }
  | registered (routine : Routine) : Change h { h with routines := RoutineTable.register h.routines routine }

/-- One hart becomes the other by a sequence of changes. -/
abbrev Reaches : Hart → Hart → Prop := Relation.ReflTransGen Change

theorem Reaches.preserves {P : Hart → Prop} (kept : ∀ {h after : Hart}, Change h after → P h → P after)
    {h after : Hart} (path : Reaches h after) (start : P h) : P after := by
  induction path with
  | refl => exact start
  | tail _ change ih => exact kept change ih

section
variable {h after : Hart}

/-- A change adds to the history and takes nothing away. -/
theorem change_history (change : Change h after) : h.history <+: after.history := by
  cases change with
  | unregistered entry => exact List.prefix_refl _
  | registered routine => exact List.prefix_refl _
  | _ => simp

theorem reaches_history (path : Reaches h after) : h.history <+: after.history := by
  induction path with
  | refl => exact List.prefix_refl _
  | tail _ change ih => exact ih.trans (change_history change)

theorem reaches_events (path : Reaches h after) : h.events <+: after.events :=
  (reaches_history path).filterMap _

end

/-- A relation between harts before and after, which allows for all that is done to a hart, one thing after the other. -/
structure Steady (R : Hart → Hart → Prop) : Prop where
  refl (h : Hart) : R h h
  trans {h middle after : Hart} (first : R h middle) (rest : R middle after) : R h after
  reported (h : Hart) {level : Log.Level} (quiet : level.Quiet) (message : String) : R h (h.reported level message)
  noted (h : Hart) (n : Note) : R h (h.noted n)
  written (h : Hart) (value : RegisterWrite) (machine : h.registers.mode = .machine) : R h (h.written value)
  setup (h : Hart) {step : Setup} (fits : step.Fits) : R h (h.afterSetup step)
  filled (h : Hart) (addr value : Word) : R h (h.filled addr value)
  landed (h : Hart) (resume : Resume) {status : Status} {entry : Word} (machine : h.registers.mode = .machine)
    (decoded : Status.ofBits? h.registers.status = some status) (target : h.registers.epc = some entry) :
    R h (h.landed resume status entry)
  cameBack (h : Hart) (entry : Word) (resume : Resume) : R h (h.cameBack entry resume)
  waited (h : Hart) : R h h.waited
  unregistered (h : Hart) (entry : Word) : R h { h with routines := RoutineTable.remove h.routines entry }
  registered (h : Hart) (routine : Routine) : R h { h with routines := RoutineTable.register h.routines routine }

theorem reaches_steady : Steady Reaches where
  refl _ := .refl
  trans := .trans
  reported _ _ quiet _ := .single (.logged quiet _)
  noted _ n := .single (.noted n)
  written _ value machine := .single (.written value machine)
  setup _ _ fits := .single (.setup fits)
  filled _ addr value := .single (.filled addr value)
  landed _ resume _ _ machine decoded target := .single (.landed resume machine decoded target)
  cameBack _ entry resume := .single (.cameBack entry resume)
  waited _ := .single .waited
  unregistered _ entry := .single (.unregistered entry)
  registered _ routine := .single (.registered routine)

/-- An operation that takes a hart where `R` allows, also when it faults. -/
def Moves (R : Hart → Hart → Prop) {α : Type} (x : HartM α) : Prop := ∀ h : Hart, R h (stateAfter (x h))

/-- The operations of a hart that take it where `R` allows. -/
abbrev MovesOps (R : Hart → Hart → Prop) (ops : ResetOps Fault Hart HaltReason) : Prop :=
  ResetOps.Related (fun {α} x _ => Moves R (α := α) x) ops ops

namespace Steady
variable {R : Hart → Hart → Prop} (s : Steady R)
include s

theorem bind_moves {α β : Type} {x : HartM α} {f : α → HartM β} (first : Moves R x) (rest : ∀ a, Moves R (f a)) :
    Moves R (x >>= f) := by
  intro h
  have start := first h
  rw [bind_run]
  cases run : x h with
  | ok a after =>
    rw [run] at start
    exact s.trans start (rest a after)
  | error e after =>
    rw [run] at start
    exact start

theorem moves_compositional : Compositional (ε := Fault) (σ := Hart) (fun {α} x _ => Moves R (α := α) x) where
  same_pure _ := s.refl
  same_throw _ := s.refl
  same_get := s.refl
  bind first rest := s.bind_moves first rest

theorem write_moves (value : RegisterWrite) : Moves R (writeRegister value) := by
  intro h
  rcases write_cases h value with ⟨fault, refused⟩ | ⟨machine, written⟩
  · rw [refused]
    exact s.refl h
  · rw [written]
    exact s.written h value machine

theorem setup_moves (step : Setup) : Moves R (performSetup step) := by
  intro h
  rcases setup_cases h step with ⟨fault, refused⟩ | ⟨fits, done⟩
  · rw [refused]
    exact s.refl h
  · rw [done]
    exact s.setup h fits

theorem land_moves (resume : Resume) : Moves R (land resume) := by
  intro h
  rcases land_cases h resume with ⟨fault, refused⟩ | ⟨status, entry, machine, decoded, target, landed⟩
  · rw [refused]
    exact s.refl h
  · rw [landed]
    exact s.landed h resume machine decoded target

theorem fill_moves (start : Word) (words : Nat) (value : Word) : Moves R (fill start words value) :=
  fillFrom_relates start value s.refl (fun addr later => s.trans (s.filled _ addr value) later) 0 words

theorem script_moves : ScriptRelated (fun {α} x _ => Moves R (α := α) x) where
  toCompositional := s.moves_compositional
  fill := s.fill_moves
  note step answer := fun h => s.noted h (.performed step answer)

theorem routine_moves : RoutineRelated (fun {α} x _ => Moves R (α := α) x) where
  toScriptRelated := s.script_moves
  unregister entry := fun h => s.unregistered h entry
  register routine := fun h => s.registered h routine
  noted n := fun h => s.noted h n

theorem leave_moves (entry : Word) (resume : Resume) (exit : Exit) : Moves R (leave entry resume exit) := by
  cases exit with
  | returns => exact fun h => s.cameBack h entry resume
  | diverges => exact s.refl

theorem privilegeReturn_moves {run : Word → HartM Exit} (runs : ∀ entry, Moves R (run entry)) (resume : Resume) :
    Moves R (privilegeReturn run resume) := by
  rw [privilegeReturn_eq]
  refine s.bind_moves (s.land_moves resume) fun entry => ?_
  exact s.bind_moves (runs entry) (s.leave_moves entry resume)

theorem opsWith_moves {run : Word → HartM Exit} (runs : ∀ entry, Moves R (run entry)) :
    MovesOps R (opsWith run) where
  hartId := rfl
  patience := rfl
  fault := rfl
  report quiet message := fun h => s.reported h quiet message
  write := s.write_moves
  privilegeReturn := s.privilegeReturn_moves runs
  waitForInterrupt := s.waited
  setup := s.setup_moves

theorem runAt_moves {ops : ResetOps Fault Hart HaltReason} (r : MovesOps R ops) (entry : Word) :
    Moves R (runAt ops entry) :=
  runAt_related s.routine_moves r entry

/-- The operations of a hart take it where `R` allows, however deep its routines nest. -/
theorem opsAt_moves (depth : Nat) : MovesOps R (opsAt depth) := by
  induction depth with
  | zero => exact s.opsWith_moves fun _ => s.refl
  | succ depth ih => exact s.opsWith_moves (s.runAt_moves ih)

theorem perform_moves (depth : Nat) (step : Step) : Moves R (perform (opsAt depth) step) :=
  perform_related s.script_moves (s.opsAt_moves depth) step

end Steady

theorem runAt_reaches (depth : Nat) (entry : Word) : Moves Reaches (runAt (opsAt depth) entry) :=
  reaches_steady.runAt_moves (reaches_steady.opsAt_moves depth) entry

theorem runAt_events (depth : Nat) (entry : Word) (h : Hart) :
    h.events <+: (stateAfter (runAt (opsAt depth) entry h)).events :=
  reaches_events (runAt_reaches depth entry h)

end HartBoot.Sim
