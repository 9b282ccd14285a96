import HartBoot.Proofs.Boot.Stages
import HartBoot.Proofs.Sim.Election

/-!
The stage checks of a simulated hart. A boot that is told to descend before it is elected, or to start over when it is
set up, is refused by its first check and the hart stays as it is. A boot that goes by the rules passes every check,
whatever is called on it before and whatever its routines do (`stage_checks_exact`).
-/
namespace HartBoot.Sim
open Watched

/-- A call that takes the boot at whatever stage it is. -/
def Call.Neutral : Call → Prop
  | .reset => False
  | .descend => False
  | _ => True

section
variable (ops : ResetOps Fault Hart HaltReason) (boot : Boot)

/-- A call on a boot with its stage checks written down. -/
def performCallWatched : Call → Watched Fault Hart CallAnswer
  | .reset => CallAnswer.flow <$> boot.resetWatched ops
  | .descend => CallAnswer.flow <$> boot.descendWatched ops.toHartOps
  | call => lift (performCall ops boot call)

def performWatched (calls : List Call) : Watched Fault Hart Answer :=
  Answer.calls <$> calls.mapM (performCallWatched ops boot)

theorem performCallWatched_neutral {call : Call} (neutral : call.Neutral) :
    performCallWatched ops boot call = lift (performCall ops boot call) := by
  cases call with
  | reset => exact neutral.elim
  | descend => exact neutral.elim
  | _ => rfl

theorem performCall_erases (call : Call) :
    Erases (performCallWatched ops boot call) (performCall ops boot call) := by
  cases call with
  | reset => exact erases_map _ (Boot.reset_erases ops boot)
  | descend => exact erases_map _ (Boot.descend_erases ops.toHartOps boot)
  | _ =>
    rw [performCallWatched_neutral ops boot]
    · exact erases_lift _
    · trivial

/-- Watching the stage checks of a boot does not change what the calls on it do. -/
theorem perform_erases (calls : List Call) : Erases (performWatched ops boot calls) (perform ops (.boot boot calls)) :=
  erases_map _ (erases_mapM (performCall_erases ops boot) calls)

/-- Neutral calls make no stage checks, so the checks are those of the call after them. -/
theorem perform_passes {before : List Call} (neutral : ∀ call ∈ before, call.Neutral) {stage : Stage} {last : Call}
    (passes : Passes stage (performCallWatched ops boot last)) :
    Passes stage (performWatched ops boot (before ++ [last])) := by
  refine passes_map _ ?_
  induction before with
  | nil =>
    rw [List.nil_append, List.mapM_cons]
    exact passes_map (fun answer => [answer]) passes
  | cons call before ih =>
    obtain ⟨first, later⟩ := List.forall_mem_cons.mp neutral
    rw [List.cons_append, List.mapM_cons, performCallWatched_neutral ops boot first]
    exact passes_lift_bind fun answer => passes_map (answer :: ·) (ih later)

/-- A single call on a boot in progress that faults. -/
theorem perform_call_faulted {call : Call} {fault : Fault} {h after : Hart}
    (called : performCall ops boot call h = .error fault after) :
    perform ops (.boot boot [call]) h = .error fault after := by
  refine map_of_error ?_
  rw [List.mapM_cons]
  exact bind_of_error called

section
variable (fault : Fault → Fault) (same : fault .addressOverflow = ops.fault .addressOverflow)
include same

theorem performCall_stopping {call : Call} (neutral : call.Neutral) :
    performCall (ops.stopping fault) boot call = performCall ops boot call := by
  cases call with
  | stage => rfl
  | prologue => rw [performCall, performCall, Boot.prologue_stopping ops fault same]
  | clearBss region =>
    rw [performCall, performCall, Boot.clearBss, Boot.clearBss, Boot.clearFrom_stopping ops fault same]
  | idle => rw [performCall, performCall, Boot.idle_stopping ops fault]
  | reset => exact neutral.elim
  | descend => exact neutral.elim

theorem perform_stopping {before : List Call} (neutral : ∀ call ∈ before, call.Neutral) {last : Call}
    (ends : performCall (ops.stopping fault) boot last = performCall ops boot last) :
    perform (ops.stopping fault) (.boot boot (before ++ [last])) = perform ops (.boot boot (before ++ [last])) := by
  refine congrArg (Answer.calls <$> ·) (mapM_congr ?_)
  refine List.forall_mem_append.mpr ⟨fun call member => ?_, List.forall_mem_singleton.mpr ends⟩
  exact performCall_stopping ops boot fault same (neutral call member)

end
end

/-- The stage checks that the calls on a boot make, as far as they come. -/
def stageChecks (run : Word → HartM Exit) (boot : Boot) (calls : List Call) (h : Hart) : List Check :=
  (stateAfter (performWatched (opsWith run) boot calls (h, []))).2

/-- No stage check of a boot fails while `calls` are made on it, and the stages that it passes through are a path of
    moves. -/
structure ChecksPass (run : Word → HartM Exit) (boot : Boot) (calls : List Call) (h : Hart) : Prop where
  watched : forget (performWatched (opsWith run) boot calls (h, [])) = perform (opsWith run) (.boot boot calls) h
  held : ∀ check ∈ stageChecks run boot calls h, check.Holds
  path : List.IsChain (fun stage next => stage.canMoveTo next = true)
    (boot.stage :: (stageChecks run boot calls h).filterMap Check.next?)
  /-- How the boot would stop at a stage makes no difference. -/
  stopping : ∀ fault : Fault → Fault, fault .addressOverflow = .addressOverflow →
    perform ((opsWith run).stopping fault) (.boot boot calls) h = perform (opsWith run) (.boot boot calls) h

section
variable (run : Word → HartM Exit) (h : Hart)

theorem checksPass_of_last {boot : Boot} {before : List Call} (neutral : ∀ call ∈ before, call.Neutral) {last : Call}
    (passes : Passes boot.stage (performCallWatched (opsWith run) boot last))
    (ends : ∀ fault : Fault → Fault, fault .addressOverflow = .addressOverflow →
      performCall ((opsWith run).stopping fault) boot last = performCall (opsWith run) boot last) :
    ChecksPass run boot (before ++ [last]) h := by
  obtain ⟨made, passed, after⟩ := perform_passes (opsWith run) boot neutral passes h []
  have checks : stageChecks run boot (before ++ [last]) h = made := after
  refine ⟨perform_erases (opsWith run) boot _ h [], ?_, ?_, fun fault same => ?_⟩
  · rw [checks]
    exact passed.holds
  · rw [checks]
    exact passed.path
  · rw [perform_stopping (opsWith run) boot fault same neutral (ends fault same)]

theorem early_descent_run (l : Layout) :
    perform (opsWith run) (.boot (.new l) [.descend]) h = .error (.earlyDescent .electing) h := by
  refine perform_call_faulted _ _ (map_of_error ?_)
  rw [Boot.descend_misplaced (opsWith run).toHartOps (by simp [Boot.new])]
  rfl

theorem late_reset_run (l : Layout) : perform (opsWith run) (.boot (.afterPrologue l) [.reset]) h =
    .error (.illegalMove .awaitingEarlyInit (if IsBootHart h.registers.hartId then .clearingBss else .idle)) h :=
  perform_call_faulted _ _ (map_of_error (Boot.reset_misplaced (opsWith run) l h))

/-- The stage checks refuse the two wrong ways into a boot, and the hart stays as it is in everything. They refuse
    nothing else: neither of the two right ways ever fails a check, with any neutral calls before, whatever the state of
    the hart and whatever its routines do. -/
theorem stage_checks_exact (l : Layout) :
    perform (opsWith run) (.boot (.new l) [.descend]) h = .error (.earlyDescent .electing) h ∧
    perform (opsWith run) (.boot (.afterPrologue l) [.reset]) h =
      .error (.illegalMove .awaitingEarlyInit (if IsBootHart h.registers.hartId then .clearingBss else .idle)) h ∧
    ∀ before : List Call, (∀ call ∈ before, call.Neutral) →
      ChecksPass run (.new l) (before ++ [.reset]) h ∧ ChecksPass run (.afterPrologue l) (before ++ [.descend]) h := by
  refine ⟨early_descent_run run h l, late_reset_run run h l, fun before neutral => ⟨?_, ?_⟩⟩
  · refine checksPass_of_last run h neutral (passes_map _ (Boot.reset_passes (opsWith run) l)) fun fault same => ?_
    rw [performCall, performCall, Boot.reset_stopping (opsWith run) fault same]
  · have passes := Boot.descend_passes (opsWith run).toHartOps l
    refine checksPass_of_last run h neutral (passes_map _ passes) fun fault _ => ?_
    rw [performCall, performCall, Boot.descend_stopping (opsWith run) fault]

end

/-- A hart whose early initialisation takes a boot of its own the wrong way. -/
def trespasser : Hart := Hart.new Platform.bootHart [⟨0x100, [⟨[.boot (.new brokenLayout) [.descend]], .returns⟩], 0⟩] 2

/-- The boot that runs the routine passes its own check, and the fault is that of the boot that the routine takes. -/
theorem stage_checks_exact_trespasser :
    (∀ call ∈ [Call.idle, .stage], call.Neutral) ∧
      (∃ after, trespasser.step (.boot (.afterPrologue brokenLayout) [.idle, .stage, .descend]) =
        .error (.earlyDescent .electing) after) ∧
      ChecksPass (routineAt 1) (.afterPrologue brokenLayout) [.idle, .stage, .descend] trespasser ∧
      stageChecks (routineAt 1) (.afterPrologue brokenLayout) [.idle, .stage, .descend] trespasser =
        [.descent .awaitingEarlyInit] ∧
      trespasser.step (.boot (.afterPrologue brokenLayout) [.reset]) =
        .error (.illegalMove .awaitingEarlyInit .clearingBss) trespasser := by
  have neutral : ∀ call ∈ [Call.idle, .stage], call.Neutral := by simp [Call.Neutral]
  obtain ⟨_, late, right⟩ := stage_checks_exact (routineAt 1) trespasser brokenLayout
  exact ⟨neutral, ⟨_, rfl⟩, (right _ neutral).2, rfl, late⟩

end HartBoot.Sim
