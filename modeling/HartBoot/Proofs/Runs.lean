import HartBoot.Boot.Operations

/-!
Runs of operations that keep their state when they stop early. `stateAfter` is that state, and a sequence of two
operations is the second from where the first ended, or the first alone when it stopped (`bind_of_ok`,
`bind_of_error`).
-/
namespace HartBoot
variable {ε σ α β : Type}

/-- The state that an operation leaves, however it ends. -/
def stateAfter : EStateM.Result ε σ α → σ
  | .ok _ s => s
  | .error _ s => s

@[simp] theorem stateAfter_ok (a : α) (s : σ) : stateAfter (.ok a s : EStateM.Result ε σ α) = s := rfl

@[simp] theorem stateAfter_error (e : ε) (s : σ) : stateAfter (.error e s : EStateM.Result ε σ α) = s := rfl

@[simp] theorem pure_run (a : α) (s : σ) : (pure a : EStateM ε σ α) s = .ok a s := rfl

@[simp] theorem throw_run (e : ε) (s : σ) : (throw e : EStateM ε σ α) s = .error e s := rfl

@[simp] theorem get_run (s : σ) : (get : EStateM ε σ σ) s = .ok s s := rfl

theorem bind_run (x : EStateM ε σ α) (f : α → EStateM ε σ β) (s : σ) :
    (x >>= f) s = match x s with
      | .ok a s => f a s
      | .error e s => .error e s := by
  cases run : x s <;> simp [bind, EStateM.bind, run]

theorem bind_of_ok {x : EStateM ε σ α} {f : α → EStateM ε σ β} {s s' : σ} {a : α} (run : x s = .ok a s') :
    (x >>= f) s = f a s' := by
  rw [bind_run, run]

theorem bind_of_error {x : EStateM ε σ α} {f : α → EStateM ε σ β} {s s' : σ} {e : ε} (run : x s = .error e s') :
    (x >>= f) s = .error e s' := by
  rw [bind_run, run]

theorem map_of_ok {x : EStateM ε σ α} {f : α → β} {s s' : σ} {a : α} (run : x s = .ok a s') :
    (f <$> x) s = .ok (f a) s' := by
  rw [map_eq_pure_bind, bind_of_ok run, pure_run]

theorem map_of_error {x : EStateM ε σ α} {f : α → β} {s s' : σ} {e : ε} (run : x s = .error e s') :
    (f <$> x) s = .error e s' := by
  rw [map_eq_pure_bind, bind_of_error run]

theorem map_eq_error_iff {x : EStateM ε σ α} {f : α → β} {s s' : σ} {e : ε} :
    (f <$> x) s = .error e s' ↔ x s = .error e s' := by
  cases run : x s with
  | ok a after => simp [map_of_ok run]
  | error fault after => simp [map_of_error run]

theorem bind_of_same {x y : EStateM ε σ α} {f : α → EStateM ε σ β} {s s' : σ} (same : x s = y s') :
    (x >>= f) s = (y >>= f) s' := by
  rw [bind_run, bind_run, same]

theorem mapM_congr {f g : α → EStateM ε σ β} : ∀ {xs : List α}, (∀ x ∈ xs, f x = g x) → xs.mapM f = xs.mapM g
  | [], _ => rfl
  | x :: xs, same => by
    rw [List.mapM_cons, List.mapM_cons, same x List.mem_cons_self]
    rw [mapM_congr fun y member => same y (List.mem_cons_of_mem x member)]

/-- The operation stopped early. -/
def Faults (result : EStateM.Result ε σ α) : Prop := ∃ e s, result = .error e s

/-- A sequence stops early if its second part does wherever the first ends. -/
theorem faults_bind {x : EStateM ε σ α} {f : α → EStateM ε σ β} {s : σ}
    (later : ∀ a s', x s = .ok a s' → Faults (f a s')) : Faults ((x >>= f) s) := by
  rw [bind_run]
  cases run : x s with
  | ok a s' => exact later a s' run
  | error e s' => exact ⟨e, s', rfl⟩

/-- Operations that do not stop, one after the other, when each takes the state through `f`. -/
theorem forM_of_ok {γ : Type} {body : γ → EStateM ε σ PUnit} {f : σ → γ → σ} (good : σ → Prop) :
    ∀ {xs : List γ} {s : σ}, good s → (∀ x ∈ xs, ∀ s, good s → body x s = .ok () (f s x) ∧ good (f s x)) →
      xs.forM body s = .ok () (xs.foldl f s) ∧ good (xs.foldl f s)
  | [], _, start, _ => ⟨rfl, start⟩
  | x :: xs, s, start, each => by
    obtain ⟨run, next⟩ := each x List.mem_cons_self s start
    have rest := forM_of_ok good next fun y member => each y (List.mem_cons_of_mem x member)
    change (body x >>= fun _ => xs.forM body) s = _ ∧ _
    rw [bind_of_ok run]
    exact rest

end HartBoot
