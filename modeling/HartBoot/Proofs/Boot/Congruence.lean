import HartBoot.Proofs.Boot.Clearing
import HartBoot.Proofs.Boot.Parts

/-!
Boots on related harts. A relation between operations that sequences keep (`Compositional`) and that holds between the
operations of two harts (`HartOps.Related`) holds between everything a boot does with the one and with the other. A
property of operations is such a relation of an operation with itself.
-/
namespace HartBoot
variable {ε σ Halt : Type}

/-- Relations that hold between sequences of related operations. -/
structure Compositional (Q : ∀ {α : Type}, EStateM ε σ α → EStateM ε σ α → Prop) : Prop where
  same_pure : ∀ {α : Type} (a : α), Q (pure a) (pure a)
  same_throw : ∀ {α : Type} (e : ε), Q (throw e : EStateM ε σ α) (throw e)
  same_get : Q (get : EStateM ε σ σ) get
  bind : ∀ {α β : Type} {x y : EStateM ε σ α} {f g : α → EStateM ε σ β},
    Q x y → (∀ a, Q (f a) (g a)) → Q (x >>= f) (y >>= g)

namespace Compositional
variable {Q : ∀ {α : Type}, EStateM ε σ α → EStateM ε σ α → Prop} {α β : Type}

theorem map (c : Compositional Q) (f : α → β) {x y : EStateM ε σ α} (related : Q x y) : Q (f <$> x) (f <$> y) := by
  rw [map_eq_pure_bind, map_eq_pure_bind]
  exact c.bind related fun a => c.same_pure (f a)

theorem forM (c : Compositional Q) {f g : α → EStateM ε σ PUnit} (related : ∀ a, Q (f a) (g a)) :
    ∀ xs : List α, Q (xs.forM f) (xs.forM g)
  | [] => c.same_pure _
  | x :: xs => c.bind (related x) fun _ => forM c related xs

theorem mapM (c : Compositional Q) {f g : α → EStateM ε σ β} (related : ∀ a, Q (f a) (g a)) (xs : List α) :
    Q (xs.mapM f) (xs.mapM g) := by
  induction xs with
  | nil => exact c.same_pure _
  | cons x xs ih =>
    rw [List.mapM_cons, List.mapM_cons]
    exact c.bind (related x) fun b => c.bind ih fun bs => c.same_pure (b :: bs)

end Compositional

/-- The levels at which a boot reports. -/
def Log.Level.Quiet (level : Log.Level) : Prop := level = .debug ∨ level = .trace

/-- The operations of two harts that differ by `Q` at most. -/
structure HartOps.Related (Q : ∀ {α : Type}, EStateM ε σ α → EStateM ε σ α → Prop) (ops other : HartOps ε σ Halt) :
    Prop where
  hartId : ops.hartId = other.hartId
  patience : ops.patience = other.patience
  fault : ops.fault = other.fault
  report : ∀ {level}, Log.Level.Quiet level → ∀ message, Q (ops.report level message) (other.report level message)
  write : ∀ value, Q (ops.write value) (other.write value)
  privilegeReturn : ∀ resume, Q (ops.privilegeReturn resume) (other.privilegeReturn resume)
  waitForInterrupt : Q ops.waitForInterrupt other.waitForInterrupt

/-- The operations of two harts, reset included, that differ by `Q` at most. -/
structure ResetOps.Related (Q : ∀ {α : Type}, EStateM ε σ α → EStateM ε σ α → Prop) (ops other : ResetOps ε σ Halt) :
    Prop extends HartOps.Related Q ops.toHartOps other.toHartOps where
  setup : ∀ step, Q (ops.setup step) (other.setup step)

section
variable {Q : ∀ {α : Type}, EStateM ε σ α → EStateM ε σ α → Prop} {ops other : HartOps ε σ Halt}

theorem enter_related (c : Compositional Q) (r : HartOps.Related Q ops other) (t : Transition) :
    Q (ops.enter t) (other.enter t) := by
  unfold HartOps.enter
  refine c.bind (r.report (.inr rfl) _) fun _ => c.bind ?_ fun _ => r.privilegeReturn t.resume
  exact c.forM r.write t.writes

theorem idleFor_related (c : Compositional Q) (r : HartOps.Related Q ops other) (n : Nat) :
    Q (ops.idleFor n) (other.idleFor n) := by
  induction n with
  | zero => exact c.same_pure _
  | succ n ih =>
    refine c.bind r.waitForInterrupt fun flow => ?_
    cases flow with
    | halted reason => exact c.same_pure _
    | onward => exact ih

theorem idle_related (c : Compositional Q) (r : HartOps.Related Q ops other) : Q ops.idle other.idle := by
  unfold HartOps.idle
  rw [r.patience]
  exact c.bind c.same_get fun s => idleFor_related c r _

theorem advance_related (c : Compositional Q) (r : HartOps.Related Q ops other) (boot : Boot) (next : Stage) :
    Q (boot.advance ops next) (boot.advance other next) := by
  unfold Boot.advance
  rw [r.fault]
  split
  · exact c.same_pure _
  · exact c.same_throw _

theorem runThrough_related (c : Compositional Q) (r : HartOps.Related Q ops other) (announcement : String)
    (t : Transition) {next again : EStateM ε σ (Flow Halt)} (rest : Q next again) :
    Q (Boot.runThrough ops announcement t next) (Boot.runThrough other announcement t again) := by
  refine c.bind (r.report (.inl rfl) _) fun _ => c.bind (enter_related c r t) fun flow => ?_
  cases flow with
  | halted reason => exact c.same_pure _
  | onward => exact rest

theorem runRoutines_related (c : Compositional Q) (r : HartOps.Related Q ops other) (l : Layout) :
    Q (Boot.runRoutines ops l) (Boot.runRoutines other l) :=
  runThrough_related c r _ _ (runThrough_related c r _ _ (idle_related c r))

theorem descend_related (c : Compositional Q) (r : HartOps.Related Q ops other) (boot : Boot) :
    Q (boot.descend ops) (boot.descend other) := by
  by_cases awaiting : boot.stage = .awaitingEarlyInit
  · have start : boot = .afterPrologue boot.layout := by
      cases boot
      cases awaiting
      rfl
    rw [start, Boot.descend_awaiting, Boot.descend_awaiting]
    exact runRoutines_related c r boot.layout
  · rw [Boot.descend_misplaced ops awaiting, Boot.descend_misplaced other awaiting, r.fault]
    exact c.same_throw _

end

section
variable {Q : ∀ {α : Type}, EStateM ε σ α → EStateM ε σ α → Prop} {ops other : ResetOps ε σ Halt}

theorem clearFrom_related (c : Compositional Q) (r : ResetOps.Related Q ops other) (addr stop : Word) :
    Q (Boot.clearFrom ops addr stop) (Boot.clearFrom other addr stop) := by
  rw [Boot.clearFrom_eq, Boot.clearFrom_eq, r.fault]
  refine c.bind (c.forM (fun a => r.setup (.zeroWord a)) _) fun _ => ?_
  split
  · exact c.same_throw _
  · exact c.same_pure _

theorem prologue_related (c : Compositional Q) (r : ResetOps.Related Q ops other) (l : Layout) :
    Q (Boot.prologue ops l) (Boot.prologue other l) :=
  c.bind (r.setup _) fun _ => c.bind (r.setup _) fun _ =>
    c.bind (clearFrom_related c r l.bss.start l.bss.stop) fun _ => r.setup _

theorem reset_related (c : Compositional Q) (r : ResetOps.Related Q ops other) (boot : Boot) :
    Q (boot.reset ops) (boot.reset other) := by
  unfold Boot.reset
  rw [r.hartId]
  refine c.bind c.same_get fun s => ?_
  split
  · refine c.bind (advance_related c r.toRelated boot _) fun boot => c.bind (prologue_related c r boot.layout) fun _ => ?_
    exact c.bind (advance_related c r.toRelated boot _) fun boot => descend_related c r.toRelated boot
  · exact c.bind (advance_related c r.toRelated boot _) fun _ => idle_related c r.toRelated

end
end HartBoot
