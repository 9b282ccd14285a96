import HartBoot.Proofs.Boot.Congruence
import HartBoot.Sim.Run

/-!
Scripts on related harts. A relation between operations of simulated harts that sequences keep and that holds between
the primitive operations holds between everything that a script does with the one and with the other, and between the
routines that they run. Doing the same on all harts of a kind, and staying among them, is such a relation (`AgreeOn`).
-/
namespace HartBoot.Sim
variable {Q : ∀ {α : Type}, HartM α → HartM α → Prop} {ops other : ResetOps Fault Hart HaltReason}

/-- What a script needs besides the operations of a hart is related to itself. -/
structure ScriptRelated (Q : ∀ {α : Type}, HartM α → HartM α → Prop) : Prop extends Compositional Q where
  fill : ∀ start words value, Q (fill start words value) (fill start words value)
  note : ∀ step answer, Q (note (.performed step answer)) (note (.performed step answer))

theorem performCall_related (c : Compositional Q) (r : ResetOps.Related Q ops other) (boot : Boot) (call : Call) :
    Q (performCall ops boot call) (performCall other boot call) := by
  cases call with
  | stage => exact c.same_pure _
  | prologue => exact c.bind (prologue_related c r boot.layout) fun _ => c.same_pure _
  | clearBss region => exact c.bind (clearFrom_related c r region.start region.stop) fun _ => c.same_pure _
  | idle => exact c.map _ (idle_related c r.toRelated)
  | reset => exact c.map _ (reset_related c r boot)
  | descend => exact c.map _ (descend_related c r.toRelated boot)

theorem perform_related (c : ScriptRelated Q) (r : ResetOps.Related Q ops other) (step : Step) :
    Q (perform ops step) (perform other step) := by
  have comp := c.toCompositional
  cases step with
  | write value => exact comp.bind (r.write value) fun _ => comp.same_pure _
  | setup step => exact comp.bind (r.setup step) fun _ => comp.same_pure _
  | fill start words value => exact comp.bind (c.fill start words value) fun _ => comp.same_pure _
  | privilegeReturn resume => exact comp.map _ (r.privilegeReturn resume)
  | waitForInterrupt => exact comp.map _ r.waitForInterrupt
  | enter transition => exact comp.map _ (enter_related comp r.toRelated transition)
  | read addrs => exact comp.bind comp.same_get fun _ => comp.same_pure _
  | stores => exact comp.bind comp.same_get fun _ => comp.same_pure _
  | boot start calls => exact comp.map _ (comp.mapM (performCall_related comp r start) calls)

theorem performNoted_related (c : ScriptRelated Q) (r : ResetOps.Related Q ops other) (steps : List Step) :
    Q (performNoted ops steps) (performNoted other steps) :=
  c.toCompositional.forM (fun step => c.bind (perform_related c r step) fun _ => c.note step _) steps

/-- What a run of a routine needs besides what the routine does. -/
structure RoutineRelated (Q : ∀ {α : Type}, HartM α → HartM α → Prop) : Prop extends ScriptRelated Q where
  unregister : ∀ entry, Q (setRoutines (RoutineTable.remove · entry)) (setRoutines (RoutineTable.remove · entry))
  register : ∀ routine,
    Q (setRoutines (RoutineTable.register · routine)) (setRoutines (RoutineTable.register · routine))
  noted : ∀ n, Q (HartBoot.Sim.note n) (HartBoot.Sim.note n)

theorem runRoutine_related (c : RoutineRelated Q) (r : ResetOps.Related Q ops other) (routine : Routine) :
    Q (runRoutine ops routine) (runRoutine other routine) := by
  unfold runRoutine
  refine c.bind (c.unregister routine.entry) fun _ => c.bind (c.noted _) fun _ => ?_
  refine c.bind (performNoted_related c.toScriptRelated r _) fun _ => ?_
  exact c.bind (c.register _) fun _ => c.bind (c.noted _) fun _ => c.same_pure _

theorem runAt_related (c : RoutineRelated Q) (r : ResetOps.Related Q ops other) (entry : Word) :
    Q (runAt ops entry) (runAt other entry) := by
  refine c.bind c.same_get fun h => ?_
  split
  · exact c.same_pure _
  · rename_i routine _
    exact runRoutine_related c r routine

/-! ### Agreement -/

/-- Operations that do the same on every hart with `P` and leave it with `P`. -/
def AgreeOn (P : Hart → Prop) {α : Type} (x y : HartM α) : Prop := ∀ h : Hart, P h → x h = y h ∧ P (stateAfter (x h))

section
variable {P : Hart → Prop} {α β : Type}

theorem agreeOn_self {x : HartM α} (kept : ∀ h : Hart, P h → P (stateAfter (x h))) : AgreeOn P x x :=
  fun h holds => ⟨rfl, kept h holds⟩

theorem agreeOn_bind {x y : HartM α} {f g : α → HartM β} (first : AgreeOn P x y) (rest : ∀ a, AgreeOn P (f a) (g a)) :
    AgreeOn P (x >>= f) (y >>= g) := by
  intro h holds
  obtain ⟨same, still⟩ := first h holds
  rw [bind_run, bind_run, ← same]
  cases run : x h with
  | ok a after =>
    rw [run] at still
    exact rest a after still
  | error e after =>
    rw [run] at still
    exact ⟨rfl, still⟩

theorem agreeOn_compositional (P : Hart → Prop) :
    Compositional (ε := Fault) (σ := Hart) (fun {α} => AgreeOn P (α := α)) where
  same_pure _ := agreeOn_self fun _ holds => holds
  same_throw _ := agreeOn_self fun _ holds => holds
  same_get := agreeOn_self fun _ holds => holds
  bind := agreeOn_bind

end

end HartBoot.Sim
