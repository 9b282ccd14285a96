import HartBoot.Proofs.Sim.Congruence
import HartBoot.Proofs.Sim.Effects

/-!
How deep routines nest. A routine is not registered while it runs, so no more routines than are registered run at once:
operations that allow at least that depth all do the same (`perform_depth`), and what would run a routine further down
is never asked (`perform_over`).
-/
namespace HartBoot.Sim

/-- Operations that do the same on every hart with at most `k` routines and leave it with no more. -/
def AgreeWithin (k : Nat) {α : Type} (x y : HartM α) : Prop :=
  ∀ h : Hart, h.routines.length ≤ k → x h = y h ∧ (stateAfter (x h)).routines.length ≤ k

section
variable {k : Nat} {α β : Type}

theorem agree_of_routines {x : HartM α} (kept : ∀ h : Hart, (stateAfter (x h)).routines = h.routines) :
    AgreeWithin k x x := by
  intro h small
  rw [kept h]
  exact ⟨rfl, small⟩

theorem agree_bind {x y : HartM α} {f g : α → HartM β} (first : AgreeWithin k x y)
    (rest : ∀ a, AgreeWithin k (f a) (g a)) : AgreeWithin k (x >>= f) (y >>= g) :=
  agreeOn_bind (P := fun h => h.routines.length ≤ k) first rest

theorem agree_compositional (k : Nat) : Compositional (ε := Fault) (σ := Hart) (fun {α} => AgreeWithin k (α := α)) :=
  agreeOn_compositional fun h => h.routines.length ≤ k

end

theorem write_routines (value : RegisterWrite) (h : Hart) :
    (stateAfter (writeRegister value h)).routines = h.routines := by
  rcases write_cases h value with ⟨fault, refused⟩ | ⟨_, written⟩
  · rw [refused]
    rfl
  · rw [written]
    rfl

theorem setup_routines (step : Setup) (h : Hart) : (stateAfter (performSetup step h)).routines = h.routines := by
  rcases setup_cases h step with ⟨fault, refused⟩ | ⟨_, done⟩
  · rw [refused]
    rfl
  · rw [done]
    rfl

theorem fillFrom_routines (start value : Word) (i words : Nat) (h : Hart) :
    (stateAfter (fillFrom start value i words h)).routines = h.routines :=
  fillFrom_relates (R := fun h after => after.routines = h.routines) start value (fun _ => rfl) (fun _ kept => kept) i
    words h

theorem land_routines (resume : Resume) (h : Hart) : (stateAfter (land resume h)).routines = h.routines := by
  rcases land_cases h resume with ⟨fault, refused⟩ | ⟨status, entry, _, _, _, landed⟩
  · rw [refused]
    rfl
  · rw [landed]
    rfl

section
variable {k : Nat}

theorem script_agree (k : Nat) : ScriptRelated (fun {α} => AgreeWithin k (α := α)) where
  toCompositional := agree_compositional k
  fill start words value := agree_of_routines (fillFrom_routines start value 0 words)
  note _ _ := agree_of_routines fun _ => rfl

theorem privilegeReturn_agree {run other : Word → HartM Exit} (runs : ∀ entry, AgreeWithin k (run entry) (other entry))
    (resume : Resume) : AgreeWithin k (privilegeReturn run resume) (privilegeReturn other resume) := by
  refine agree_bind (agree_of_routines (land_routines resume)) fun entry => agree_bind (runs entry) fun exit => ?_
  cases exit with
  | returns => exact agree_of_routines fun _ => rfl
  | diverges => exact agree_of_routines fun _ => rfl

theorem opsWith_agree {run other : Word → HartM Exit} (runs : ∀ entry, AgreeWithin k (run entry) (other entry)) :
    ResetOps.Related (fun {α} => AgreeWithin k (α := α)) (opsWith run) (opsWith other) where
  hartId := rfl
  patience := rfl
  fault := rfl
  report _ _ := agree_of_routines fun _ => rfl
  write value := agree_of_routines (write_routines value)
  privilegeReturn := privilegeReturn_agree runs
  waitForInterrupt := agree_of_routines fun _ => rfl
  setup step := agree_of_routines (setup_routines step)

/-- While a registered routine runs there is room for one less. -/
theorem runRoutine_agree {ops other : ResetOps Fault Hart HaltReason}
    (r : ResetOps.Related (fun {α} => AgreeWithin k (α := α)) ops other) {h : Hart} (small : h.routines.length ≤ k + 1)
    {entry : Word} {routine : Routine} (found : RoutineTable.lookup h.routines entry = some routine) :
    runRoutine ops routine h = runRoutine other routine h ∧
      (stateAfter (runRoutine ops routine h)).routines.length ≤ k + 1 := by
  have fewer : (RoutineTable.remove h.routines routine.entry).length ≤ k := by
    have shrinks := RoutineTable.length_remove_lt found
    rw [RoutineTable.entry_of_lookup found]
    omega
  obtain ⟨same, still⟩ := performNoted_related (script_agree k) r routine.nextRun.steps (h.started routine) fewer
  cases run : performNoted ops routine.nextRun.steps (h.started routine) with
  | error fault after =>
    rw [run] at same still
    rw [runRoutine_faulted run, runRoutine_faulted same.symm]
    exact ⟨rfl, Nat.le_succ_of_le still⟩
  | ok a after =>
    rw [run] at same still
    rw [runRoutine_ended run, runRoutine_ended same.symm]
    refine ⟨rfl, ?_⟩
    have kept : (RoutineTable.remove after.routines routine.entry).length ≤ after.routines.length :=
      List.length_filter_le ..
    exact Nat.succ_le_succ (Nat.le_trans kept still)

theorem runAt_unregistered (ops : ResetOps Fault Hart HaltReason) {h : Hart} {entry : Word}
    (absent : RoutineTable.lookup h.routines entry = none) : runAt ops entry h = .ok .returns h := by
  unfold runAt
  rw [bind_of_ok (get_run h), absent]
  rfl

theorem runAt_registered (ops : ResetOps Fault Hart HaltReason) {h : Hart} {entry : Word} {routine : Routine}
    (found : RoutineTable.lookup h.routines entry = some routine) : runAt ops entry h = runRoutine ops routine h := by
  unfold runAt
  rw [bind_of_ok (get_run h), found]

theorem runAt_agree {ops other : ResetOps Fault Hart HaltReason}
    (r : ResetOps.Related (fun {α} => AgreeWithin k (α := α)) ops other) (entry : Word) :
    AgreeWithin (k + 1) (runAt ops entry) (runAt other entry) := by
  intro h small
  cases found : RoutineTable.lookup h.routines entry with
  | none =>
    rw [runAt_unregistered _ found, runAt_unregistered _ found]
    exact ⟨rfl, small⟩
  | some routine =>
    rw [runAt_registered _ found, runAt_registered _ found]
    exact runRoutine_agree r small found

/-- Where no routine is registered, running one is coming back at once. -/
theorem runAt_empty (ops : ResetOps Fault Hart HaltReason) (entry : Word) {h : Hart} (empty : h.routines.length ≤ 0) :
    runAt ops entry h = .ok .returns h := by
  have none : h.routines = [] := List.length_eq_zero_iff.mp (Nat.le_zero.mp empty)
  exact runAt_unregistered ops (by rw [none]; rfl)

/-- The routines that the operations of a depth run. -/
def routineAt : Nat → Word → HartM Exit
  | 0 => fun _ => pure .returns
  | depth + 1 => runAt (opsAt depth)

theorem opsAt_eq (depth : Nat) : opsAt depth = opsWith (routineAt depth) := by
  cases depth <;> rfl

theorem opsAt_hartId (depth : Nat) (h : Hart) : (opsAt depth).hartId h = h.registers.hartId := by
  rw [opsAt_eq]
  rfl

theorem routineAt_empty (n : Nat) (entry : Word) {h : Hart} (empty : h.routines.length ≤ 0) :
    routineAt n entry h = .ok .returns h := by
  cases n with
  | zero => rfl
  | succ n => exact runAt_empty (opsAt n) entry empty

theorem opsAt_agree (k : Nat) : ∀ n m, k ≤ n → k ≤ m →
    ResetOps.Related (fun {α} => AgreeWithin k (α := α)) (opsAt n) (opsAt m) := by
  induction k with
  | zero =>
    intro n m _ _
    rw [opsAt_eq, opsAt_eq]
    refine opsWith_agree fun entry h empty => ?_
    rw [routineAt_empty n entry empty, routineAt_empty m entry empty]
    exact ⟨rfl, empty⟩
  | succ k ih =>
    intro n m deep other
    obtain ⟨n, rfl⟩ := Nat.exists_eq_add_of_lt deep
    obtain ⟨m, rfl⟩ := Nat.exists_eq_add_of_lt other
    exact opsWith_agree (runAt_agree (ih _ _ (Nat.le_add_right k n) (Nat.le_add_right k m)))

end

theorem perform_depth {h : Hart} {n m : Nat} (deep : h.routines.length ≤ n) (other : h.routines.length ≤ m)
    (step : Step) : perform (opsAt n) step h = perform (opsAt m) step h :=
  (perform_related (script_agree _) (opsAt_agree _ n m deep other) step h (Nat.le_refl _)).1

/-- The operations of a simulated hart whose routines nest at most `depth` deep before `beyond` runs them. -/
def opsOver (beyond : Word → HartM Exit) : Nat → ResetOps Fault Hart HaltReason
  | 0 => opsWith beyond
  | depth + 1 => opsWith (runAt (opsOver beyond depth))

theorem opsOver_agree (beyond : Word → HartM Exit) (k : Nat) : ∀ n m, k < n → k ≤ m →
    ResetOps.Related (fun {α} => AgreeWithin k (α := α)) (opsOver beyond n) (opsAt m) := by
  induction k with
  | zero =>
    intro n m deep _
    obtain ⟨n, rfl⟩ := Nat.exists_eq_add_of_lt deep
    rw [opsAt_eq]
    refine opsWith_agree fun entry h empty => ?_
    rw [runAt_empty _ entry empty, routineAt_empty m entry empty]
    exact ⟨rfl, empty⟩
  | succ k ih =>
    intro n m deep other
    obtain ⟨n, rfl⟩ := Nat.exists_eq_add_of_lt deep
    obtain ⟨m, rfl⟩ := Nat.exists_eq_add_of_lt other
    exact opsWith_agree (runAt_agree (ih _ _ (by omega) (Nat.le_add_right k m)))

/-- Routines never nest deeper than there are routines, so what would run them further down is never asked. -/
theorem perform_over (beyond : Word → HartM Exit) (h : Hart) (step : Step) :
    perform (opsOver beyond (h.routines.length + 1)) step h = h.step step :=
  (perform_related (script_agree _) (opsOver_agree beyond _ _ _ (Nat.lt_succ_self _) (Nat.le_refl _)) step h
    (Nat.le_refl _)).1

section
variable {h : Hart} {n : Nat} (deep : h.routines.length ≤ n + 1)
include deep

/-- A routine does the same whatever depth is allowed, as long as it allows for the registered routines. -/
theorem runAt_depth {m : Nat} (other : h.routines.length ≤ m + 1) (entry : Word) :
    runAt (opsAt n) entry h = runAt (opsAt m) entry h := by
  cases count : h.routines.length with
  | zero => rw [runAt_empty _ entry (Nat.le_of_eq count), runAt_empty _ entry (Nat.le_of_eq count)]
  | succ k =>
    rw [count] at deep other
    have same := opsAt_agree k n m (Nat.le_of_succ_le_succ deep) (Nat.le_of_succ_le_succ other)
    exact (runAt_agree same entry h (Nat.le_of_eq count)).1

/-- A routine leaves no more routines registered than it finds. -/
theorem runAt_routines (entry : Word) : (stateAfter (runAt (opsAt n) entry h)).routines.length ≤ h.routines.length := by
  cases count : h.routines.length with
  | zero =>
    rw [runAt_empty _ entry (Nat.le_of_eq count), stateAfter_ok]
    exact Nat.le_of_eq count
  | succ k =>
    rw [count] at deep
    have same := opsAt_agree k n n (Nat.le_of_succ_le_succ deep) (Nat.le_of_succ_le_succ deep)
    exact (runAt_agree same entry h (Nat.le_of_eq count)).2

end

theorem routineAt_depth {h : Hart} {n : Nat} (deep : h.routines.length ≤ n) (entry : Word) :
    routineAt n entry h = runAt (opsAt n) entry h := by
  cases n with
  | zero => exact (runAt_empty _ entry deep).symm
  | succ n => exact runAt_depth deep (Nat.le_succ_of_le deep) entry

end HartBoot.Sim
