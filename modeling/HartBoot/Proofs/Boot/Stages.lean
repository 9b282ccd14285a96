import HartBoot.Proofs.Boot.Clearing
import HartBoot.Proofs.Boot.Parts
import Mathlib.Data.List.Chain

/-!
The stage checks of a boot. A watched boot does what the boot does and keeps a list of the checks that it makes, each
before it is made (`reset_erases`, `descend_erases`). A boot that starts by the rules passes all of them, and each is
made at the stage that the one before has moved to (`reset_passes`, `descend_passes`). So it never stops at a stage, and
how a hart would stop there is of no consequence (`reset_stopping`, `descend_stopping`).
-/
namespace HartBoot

/-- A check of the stage of a boot. -/
inductive Check
  | move (stage next : Stage)
  | descent (stage : Stage)
deriving DecidableEq

namespace Check

/-- What a check asks. -/
def Holds : Check → Prop
  | move stage next => stage.canMoveTo next = true
  | descent stage => stage = .awaitingEarlyInit

/-- The stage that a boot moves to after the check. -/
def next? : Check → Option Stage
  | move _ next => some next
  | descent _ => none

end Check

/-- Checks that hold one after the other, the first of them made at `stage`. -/
inductive Passed : Stage → List Check → Prop
  | done (stage : Stage) : Passed stage []
  | move {stage next : Stage} {checks : List Check} (allowed : stage.canMoveTo next = true) (rest : Passed next checks) :
      Passed stage (.move stage next :: checks)
  | descent {checks : List Check} (rest : Passed .awaitingEarlyInit checks) :
      Passed .awaitingEarlyInit (.descent .awaitingEarlyInit :: checks)

theorem Passed.holds {stage : Stage} {checks : List Check} (passed : Passed stage checks) : ∀ c ∈ checks, c.Holds := by
  induction passed with
  | done stage => simp
  | move allowed rest ih => exact List.forall_mem_cons.mpr ⟨allowed, ih⟩
  | descent rest ih => exact List.forall_mem_cons.mpr ⟨rfl, ih⟩

/-- The stages passed through are a path of moves. -/
theorem Passed.path {stage : Stage} {checks : List Check} (passed : Passed stage checks) :
    List.IsChain (fun stage next => stage.canMoveTo next = true) (stage :: checks.filterMap Check.next?) := by
  induction passed with
  | done stage => exact .singleton stage
  | move allowed rest ih => exact .cons_cons allowed ih
  | descent rest ih => exact ih

variable {ε σ Halt α β : Type}

/-- Operations with a list of checks beside the state. -/
abbrev Watched (ε σ : Type) := EStateM ε (σ × List Check)

namespace Watched

/-- An operation that makes no checks. -/
def lift (x : EStateM ε σ α) : Watched ε σ α := fun start =>
  match x start.1 with
  | .ok a after => .ok a (after, start.2)
  | .error e after => .error e (after, start.2)

def check (c : Check) : Watched ε σ Unit := modify fun start => (start.1, start.2 ++ [c])

theorem lift_of_ok {x : EStateM ε σ α} {s after : σ} {a : α} (run : x s = .ok a after) (checks : List Check) :
    lift x (s, checks) = .ok a (after, checks) := by
  simp [lift, run]

theorem lift_of_error {x : EStateM ε σ α} {s after : σ} {e : ε} (run : x s = .error e after) (checks : List Check) :
    (lift x : Watched ε σ α) (s, checks) = .error e (after, checks) := by
  simp [lift, run]

/-- A result without the checks. -/
def forget : EStateM.Result ε (σ × List Check) α → EStateM.Result ε σ α
  | .ok a (s, _) => .ok a s
  | .error e (s, _) => .error e s

/-- The watched operation does what the other one does. -/
def Erases (x : Watched ε σ α) (y : EStateM ε σ α) : Prop := ∀ s checks, forget (x (s, checks)) = y s

theorem erases_lift (x : EStateM ε σ α) : Erases (lift x) x := by
  intro s checks
  cases run : x s with
  | ok a after => rw [lift_of_ok run, forget]
  | error e after => rw [lift_of_error run, forget]

theorem erases_pure (a : α) : Erases (pure a : Watched ε σ α) (pure a) := fun _ _ => rfl

theorem erases_throw_bind (e : ε) (f : α → Watched ε σ β) : Erases (lift (throw e) >>= f) (throw e) := fun _ _ => rfl

theorem erases_check {c : Check} {x : Watched ε σ α} {y : EStateM ε σ α} (rest : Erases x y) :
    Erases (check c >>= fun _ => x) y :=
  fun s checks => rest s (checks ++ [c])

theorem erases_bind {x : Watched ε σ α} {f : α → Watched ε σ β} {y : EStateM ε σ α} {g : α → EStateM ε σ β}
    (first : Erases x y) (rest : ∀ a, Erases (f a) (g a)) : Erases (x >>= f) (y >>= g) := by
  intro s checks
  rw [bind_run, bind_run, ← first s checks]
  cases x (s, checks) with
  | ok a after => exact rest a after.1 after.2
  | error e after => rfl

theorem erases_map (f : α → β) {x : Watched ε σ α} {y : EStateM ε σ α} (erases : Erases x y) :
    Erases (f <$> x) (f <$> y) := by
  rw [map_eq_pure_bind, map_eq_pure_bind]
  exact erases_bind erases fun a => erases_pure (f a)

theorem erases_mapM {f : α → Watched ε σ β} {g : α → EStateM ε σ β} (erases : ∀ a, Erases (f a) (g a))
    (xs : List α) : Erases (xs.mapM f) (xs.mapM g) := by
  induction xs with
  | nil => exact erases_pure _
  | cons x xs ih =>
    rw [List.mapM_cons, List.mapM_cons]
    exact erases_bind (erases x) fun b => erases_bind ih fun bs => erases_pure (b :: bs)

/-- The operation passes the checks that it makes, the first of them at `stage`. -/
def Passes (stage : Stage) (x : Watched ε σ α) : Prop :=
  ∀ s checks, ∃ made, Passed stage made ∧ (stateAfter (x (s, checks))).2 = checks ++ made

section
variable {stage : Stage}

theorem passes_lift (x : EStateM ε σ α) : Passes stage (lift x) := by
  intro s checks
  refine ⟨[], .done stage, ?_⟩
  cases run : x s with
  | ok a after => simp [lift_of_ok run]
  | error e after => simp [lift_of_error run]

theorem passes_pure (a : α) : Passes stage (pure a : Watched ε σ α) :=
  fun _ checks => ⟨[], .done stage, (List.append_nil checks).symm⟩

theorem passes_lift_bind {x : EStateM ε σ α} {f : α → Watched ε σ β} (rest : ∀ a, Passes stage (f a)) :
    Passes stage (lift x >>= f) := by
  intro s checks
  cases run : x s with
  | ok a after =>
    rw [bind_of_ok (lift_of_ok run checks)]
    exact rest a after checks
  | error e after =>
    rw [bind_of_error (lift_of_error run checks)]
    exact ⟨[], .done stage, (List.append_nil checks).symm⟩

theorem passes_map (f : α → β) {x : Watched ε σ α} (passes : Passes stage x) : Passes stage (f <$> x) := by
  intro s checks
  obtain ⟨made, passed, after⟩ := passes s checks
  refine ⟨made, passed, ?_⟩
  rw [map_eq_pure_bind, bind_run, ← after]
  cases x (s, checks) <;> rfl

/-- A check that is made and then the rest, where the check has led to. -/
theorem passes_check {c : Check} {next : Stage} {x : Watched ε σ α}
    (passed : ∀ {checks}, Passed next checks → Passed stage (c :: checks)) (rest : Passes next x) :
    Passes stage (check c >>= fun _ => x) := by
  intro s checks
  obtain ⟨made, held, after⟩ := rest s (checks ++ [c])
  exact ⟨c :: made, passed held, after.trans (List.append_assoc checks [c] made)⟩

end
end Watched

/-- The operations of a hart that stops at a fault in another way. -/
def ResetOps.stopping (ops : ResetOps ε σ Halt) (fault : Fault → ε) : ResetOps ε σ Halt := { ops with fault := fault }

namespace Boot
open Watched

section
variable (ops : HartOps ε σ Halt)

/-- Moves to another stage, after writing down the check. -/
def advanceWatched (boot : Boot) (next : Stage) : Watched ε σ Boot := do
  check (.move boot.stage next)
  lift (boot.advance ops next)

/-- The descent with its checks written down. -/
def descendWatched (boot : Boot) : Watched ε σ (Flow Halt) := do
  check (.descent boot.stage)
  if boot.stage ≠ .awaitingEarlyInit then
    lift (throw (ops.fault (.earlyDescent boot.stage)))
  lift (ops.report .debug ("entering early init at " ++ hex boot.layout.earlyInit))
  match ← lift (ops.enter (.earlyInit boot.layout)) with
  | .halted reason => return .halted reason
  | .onward =>
    let boot ← boot.advanceWatched ops .awaitingMain
    lift (ops.report .debug ("early init done, entering main at " ++ hex boot.layout.main))
    match ← lift (ops.enter (.main boot.layout)) with
    | .halted reason => return .halted reason
    | .onward =>
      let _ ← boot.advanceWatched ops .idle
      lift ops.idle

theorem advance_erases (boot : Boot) (next : Stage) : Erases (boot.advanceWatched ops next) (boot.advance ops next) :=
  erases_check (erases_lift _)

theorem descend_erases (boot : Boot) : Erases (boot.descendWatched ops) (boot.descend ops) := by
  refine erases_check ?_
  -- A boot that is refused stops in both; only one that goes on has anything more to compare.
  by_cases misplaced : boot.stage ≠ .awaitingEarlyInit
  · rw [if_pos misplaced, descend_misplaced ops misplaced]
    exact erases_throw_bind _ _
  · unfold descend
    rw [if_neg misplaced, if_neg misplaced]
    refine erases_bind (erases_lift _) fun _ => erases_bind (erases_lift _) fun flow => ?_
    cases flow with
    | halted reason => exact erases_pure _
    | onward =>
      refine erases_bind (advance_erases ops boot _) fun boot => ?_
      refine erases_bind (erases_lift _) fun _ => erases_bind (erases_lift _) fun flow => ?_
      cases flow with
      | halted reason => exact erases_pure _
      | onward => exact erases_bind (advance_erases ops boot _) fun _ => erases_lift ops.idle

theorem advance_passes {l : Layout} {stage next : Stage} {f : Boot → Watched ε σ α}
    (allowed : stage.canMoveTo next = true) (rest : Passes next (f ⟨l, next⟩)) :
    Passes stage ((⟨l, stage⟩ : Boot).advanceWatched ops next >>= f) := by
  unfold advanceWatched
  rw [bind_assoc, advance_allowed ops allowed]
  exact passes_check (.move allowed) rest

theorem descend_passes (l : Layout) : Passes .awaitingEarlyInit ((afterPrologue l).descendWatched ops) := by
  refine passes_check .descent ?_
  rw [if_neg (by simp [afterPrologue])]
  refine passes_lift_bind fun _ => passes_lift_bind fun flow => ?_
  cases flow with
  | halted reason => exact passes_pure _
  | onward =>
    refine advance_passes ops rfl ?_
    refine passes_lift_bind fun _ => passes_lift_bind fun flow => ?_
    cases flow with
    | halted reason => exact passes_pure _
    | onward => exact advance_passes ops rfl (passes_lift _)

end

section
variable (ops : ResetOps ε σ Halt)

/-- The boot from reset on with its checks written down. -/
def resetWatched (boot : Boot) : Watched ε σ (Flow Halt) := do
  if IsBootHart (ops.hartId (← get).1) then
    let boot ← boot.advanceWatched ops.toHartOps .clearingBss
    lift (prologue ops boot.layout)
    let boot ← boot.advanceWatched ops.toHartOps .awaitingEarlyInit
    boot.descendWatched ops.toHartOps
  else
    let _ ← boot.advanceWatched ops.toHartOps .idle
    lift ops.idle

theorem reset_erases (boot : Boot) : Erases (boot.resetWatched ops) (boot.reset ops) := by
  intro s checks
  unfold resetWatched reset
  rw [bind_of_ok (get_run (s, checks)), bind_of_ok (get_run s)]
  by_cases elected : IsBootHart (ops.hartId s)
  · rw [if_pos elected, if_pos elected]
    refine erases_bind (advance_erases ops.toHartOps boot _) (fun boot => ?_) s checks
    refine erases_bind (erases_lift _) fun _ => ?_
    exact erases_bind (advance_erases ops.toHartOps boot _) fun boot => descend_erases ops.toHartOps boot
  · rw [if_neg elected, if_neg elected]
    exact erases_bind (advance_erases ops.toHartOps boot _) (fun _ => erases_lift ops.idle) s checks

theorem reset_passes (l : Layout) : Passes .electing ((new l).resetWatched ops) := by
  intro s checks
  unfold resetWatched
  rw [bind_of_ok (get_run (s, checks))]
  split
  · refine advance_passes ops.toHartOps rfl ?_ s checks
    refine passes_lift_bind fun _ => ?_
    exact advance_passes ops.toHartOps rfl (descend_passes ops.toHartOps l)
  · exact advance_passes ops.toHartOps rfl (passes_lift ops.idle) s checks

end

/-! ### Harts that stop in another way -/

section
variable (ops : ResetOps ε σ Halt) (fault : Fault → ε)

theorem idleFor_stopping (n : Nat) : (ops.stopping fault).idleFor n = ops.idleFor n := by
  induction n with
  | zero => rfl
  | succ n ih =>
    refine bind_congr fun flow => ?_
    cases flow with
    | halted reason => rfl
    | onward => exact ih

theorem idle_stopping : (ops.stopping fault).idle = ops.idle :=
  bind_congr fun _ => idleFor_stopping ops fault _

/-- A descent that starts where it may stops at no stage. -/
theorem descend_stopping (l : Layout) :
    (afterPrologue l).descend (ops.stopping fault).toHartOps = (afterPrologue l).descend ops.toHartOps := by
  rw [descend_awaiting, descend_awaiting]
  unfold runRoutines runMain
  rw [idle_stopping]
  rfl

variable (same : fault .addressOverflow = ops.fault .addressOverflow)
include same

theorem clearFrom_stopping (addr stop : Word) : clearFrom (ops.stopping fault) addr stop = clearFrom ops addr stop := by
  rw [clearFrom_eq, clearFrom_eq, ← same]
  rfl

theorem prologue_stopping (l : Layout) : prologue (ops.stopping fault) l = prologue ops l := by
  unfold prologue clearBss
  rw [clearFrom_stopping ops fault same]
  rfl

/-- A boot from reset on stops at no stage. -/
theorem reset_stopping (l : Layout) : (new l).reset (ops.stopping fault) = (new l).reset ops := by
  funext s
  by_cases elected : IsBootHart (ops.hartId s)
  · rw [reset_elected ops l elected, reset_elected (ops.stopping fault) l elected]
    rw [prologue_stopping ops fault same, descend_stopping]
  · rw [reset_lost ops l elected, reset_lost (ops.stopping fault) l elected, idle_stopping]

end
end Boot
end HartBoot
