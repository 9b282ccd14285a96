import HartBoot.Boot.Sequence
import HartBoot.Proofs.Runs

/-!
The parts of a boot. Wherever a boot starts by the rules, its stage checks hold: a descent is early initialisation and
then the main routine (`descend_awaiting`), and a reset is the prologue and a descent on the elected hart and the idle
loop on every other (`reset_elected`, `reset_lost`).
-/
namespace HartBoot
namespace Boot
variable {ε σ Halt : Type}

section
variable (ops : HartOps ε σ Halt)

/-- Goes on as told, unless the hart has halted. -/
def proceed (next : EStateM ε σ (Flow Halt)) : Flow Halt → EStateM ε σ (Flow Halt)
  | .halted reason => pure (.halted reason)
  | .onward => next

/-- Enters a routine, which is announced, and goes on as told when it has returned. -/
def runThrough (announcement : String) (t : Transition) (next : EStateM ε σ (Flow Halt)) : EStateM ε σ (Flow Halt) := do
  ops.report .debug announcement
  ops.enter t >>= proceed next

/-- The main routine, and the idle loop when it has returned. -/
def runMain (l : Layout) : EStateM ε σ (Flow Halt) :=
  runThrough ops ("early init done, entering main at " ++ hex l.main) (.main l) ops.idle

/-- Early initialisation, and the main routine when it has returned. -/
def runRoutines (l : Layout) : EStateM ε σ (Flow Halt) :=
  runThrough ops ("entering early init at " ++ hex l.earlyInit) (.earlyInit l) (runMain ops l)

section
variable {ops} {announcement : String} {t : Transition} {next : EStateM ε σ (Flow Halt)} {s told after : σ}
  (report : ops.report .debug announcement s = .ok () told)
include report

theorem runThrough_faulted {e : ε} (enter : ops.enter t told = .error e after) :
    runThrough ops announcement t next s = .error e after := by
  unfold runThrough
  rw [bind_of_ok report, bind_of_error enter]

theorem runThrough_entered {flow : Flow Halt} (enter : ops.enter t told = .ok flow after) :
    runThrough ops announcement t next s = proceed next flow after := by
  unfold runThrough
  rw [bind_of_ok report, bind_of_ok enter]

end

theorem advance_allowed {boot : Boot} {next : Stage} (allowed : boot.stage.canMoveTo next = true) :
    boot.advance ops next = pure { boot with stage := next } := by
  unfold advance
  rw [if_pos allowed]

theorem descend_awaiting (l : Layout) : (afterPrologue l).descend ops = runRoutines ops l := by
  unfold descend
  rw [if_neg (by simp [afterPrologue])]
  refine bind_congr fun _ => bind_congr fun flow => ?_
  cases flow with
  | halted reason => rfl
  | onward =>
    rw [advance_allowed ops rfl, pure_bind]
    refine bind_congr fun _ => bind_congr fun flow => ?_
    cases flow with
    | halted reason => rfl
    | onward =>
      rw [advance_allowed ops rfl, pure_bind]
      rfl

theorem descend_misplaced {boot : Boot} (misplaced : boot.stage ≠ .awaitingEarlyInit) :
    boot.descend ops = throw (ops.fault (.earlyDescent boot.stage)) := by
  unfold descend
  rw [if_pos misplaced]
  rfl

end

section
variable (ops : ResetOps ε σ Halt)

theorem reset_elected (l : Layout) {s : σ} (elected : IsBootHart (ops.hartId s)) :
    (new l).reset ops s = (prologue ops l >>= fun _ => (afterPrologue l).descend ops.toHartOps) s := by
  unfold reset
  rw [bind_of_ok (get_run s), if_pos elected, advance_allowed ops.toHartOps rfl, pure_bind]
  rfl

theorem reset_lost (l : Layout) {s : σ} (lost : ¬ IsBootHart (ops.hartId s)) : (new l).reset ops s = ops.idle s := by
  unfold reset
  rw [bind_of_ok (get_run s), if_neg lost, advance_allowed ops.toHartOps rfl, pure_bind]

/-- A boot that is set up already cannot be taken from reset on; its first move is refused, elected or not. -/
theorem reset_misplaced (l : Layout) (s : σ) : (afterPrologue l).reset ops s =
    .error (ops.fault (.illegalMove .awaitingEarlyInit
      (if IsBootHart (ops.hartId s) then .clearingBss else .idle))) s := by
  unfold reset
  rw [bind_of_ok (get_run s)]
  split <;> rfl

end
end Boot
end HartBoot
