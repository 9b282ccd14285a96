import HartBoot.Proofs.Sim.Depth
import HartBoot.Proofs.Sim.Entry
import HartBoot.Proofs.Sim.Replay

/-!
Visits to routines. A return from machine mode that lands is a visit to the routine at its target: the routine runs, and
if it comes back this is recorded. Whatever a hart does, its visits come one after the other or inside each other, and
between them they account for every event of the trace that enters a routine or tells that one has returned (`Covers`).
What a script does is covered by visits, faults half way included (`after_covers`).
-/
namespace HartBoot.Sim

/-- Whether the event enters a routine or tells that one has returned. -/
def Event.isControl : Event → Bool
  | .privilegeReturn _ _ _ => true
  | .routineReturned _ _ => true
  | _ => false

/-- A trace in which every return from machine mode is followed by the return of the routine that it entered, with a
    trace of this kind in between. -/
inductive Balanced : List Event → Prop
  | nil : Balanced []
  | plain {e : Event} {later : List Event} (plain : e.isControl = false) (rest : Balanced later) : Balanced (e :: later)
  | visit (mode : PrivilegeMode) (entry : Word) (masked : Bool) (resume : Resume) {between later : List Event}
      (inside : Balanced between) (rest : Balanced later) :
      Balanced (.privilegeReturn mode entry masked :: (between ++ .routineReturned entry resume :: later))

/-- A visit to the routine at `entry`: a return from machine mode on `origin`, to go on as told when the routine comes
    back, and the hart where it has landed. -/
structure Visit where
  origin : Hart
  resume : Resume
  entry : Word
  landed : Hart
  lands : land resume origin = .ok entry landed

namespace Visit
variable (v : Visit)

/-- What the routine does and how it ends; no more routines can be running at once than are registered. -/
def run : EStateM.Result Fault Hart Exit := runAt (opsAt v.landed.routines.length) v.entry v.landed

/-- The hart on which the routine has ended. -/
def ran : Hart := stateAfter v.run

/-- The hart after the visit, on which a routine that comes back is recorded to have returned. -/
def finished : Hart :=
  match v.run with
  | .ok .returns after => after.cameBack v.entry v.resume
  | .ok .diverges after => after
  | .error _ after => after

/-- The number of the event that enters the routine. -/
def opening : Nat := v.origin.events.length

/-- The number of the event that tells that the routine has returned, if it does. -/
def closing? : Option Nat :=
  match v.run with
  | .ok .returns after => some after.events.length
  | _ => none

/-- The routine comes back. -/
def Returns : Prop := ∃ after, v.run = .ok .returns after

/-- Another visit follows this one or lies inside it. -/
def Precedes (w : Visit) : Prop := Reaches v.finished w.origin ∨ Reaches v.landed w.origin ∧ Reaches w.finished v.ran

end Visit

/-- All that enters a routine or comes back from one on the way from `h` to `last` belongs to one of `visits`, which are
    in the order in which they set out: each follows the one before it or lies inside it. -/
structure Covers (h last : Hart) (visits : List Visit) : Prop where
  path : Reaches h last
  inside : ∀ v ∈ visits, Reaches h v.origin ∧ Reaches v.finished last
  opened : ∀ i mode entry masked, h.events.length ≤ i → last.events[i]? = some (.privilegeReturn mode entry masked) →
    ∃ v ∈ visits, v.opening = i
  closed : ∀ j entry resume, h.events.length ≤ j → last.events[j]? = some (.routineReturned entry resume) →
    ∃ v ∈ visits, v.closing? = some j
  nested : visits.Pairwise Visit.Precedes
  balanced : (∀ v ∈ visits, v.Returns) → ∃ traced, last.events = h.events ++ traced ∧ Balanced traced

/-! ### Balanced traces -/

theorem balanced_append {events more : List Event} (first : Balanced events) (second : Balanced more) :
    Balanced (events ++ more) := by
  induction first with
  | nil => exact second
  | plain plain _ ih => exact .plain plain ih
  | visit mode entry masked resume inside _ _ ih =>
    rw [List.cons_append, List.append_assoc]
    exact .visit mode entry masked resume inside ih

theorem balanced_plain {events : List Event} (plain : ∀ e ∈ events, e.isControl = false) : Balanced events := by
  induction events with
  | nil => exact .nil
  | cons e events ih => exact .plain (plain e List.mem_cons_self) (ih fun other member => plain other (.tail e member))

/-! ### One visit -/

namespace Visit
variable (v : Visit)

theorem landed_eq : ∃ status, v.landed = v.origin.landed v.resume status v.entry := by
  have lands := v.lands
  rcases land_cases v.origin v.resume with ⟨fault, refused⟩ | ⟨status, entry, _, _, _, landed⟩
  · rw [refused] at lands
    cases lands
  · rw [landed] at lands
    obtain ⟨target, same⟩ := EStateM.Result.ok.inj lands
    rw [target] at same
    exact ⟨status, same.symm⟩

theorem reaches_landed : Reaches v.origin v.landed := by
  have path := reaches_steady.land_moves v.resume v.origin
  rw [v.lands] at path
  exact path

theorem landed_events : ∃ mode masked,
    v.landed.events = v.origin.events ++ [.privilegeReturn mode v.entry masked] := by
  obtain ⟨status, landed⟩ := v.landed_eq
  rw [landed]
  exact ⟨_, _, Hart.events_landed _ _ _ _⟩

theorem landed_length : v.landed.events.length = v.opening + 1 := by
  obtain ⟨mode, masked, events⟩ := v.landed_events
  rw [events, List.length_append]
  rfl

theorem reaches_ran : Reaches v.landed v.ran := runAt_reaches _ v.entry v.landed

/-- A routine that does not come back leaves the visit as it ends. -/
theorem finished_lost (lost : ¬ v.Returns) : v.finished = v.ran ∧ v.closing? = none := by
  unfold finished ran closing?
  cases run : v.run with
  | error fault after => exact ⟨rfl, rfl⟩
  | ok exit after =>
    cases exit with
    | returns => exact absurd ⟨after, run⟩ lost
    | diverges => exact ⟨rfl, rfl⟩

theorem finished_returned (returned : v.Returns) :
    v.finished = v.ran.cameBack v.entry v.resume ∧ v.closing? = some v.ran.events.length := by
  obtain ⟨after, run⟩ := returned
  unfold finished ran closing?
  rw [run]
  exact ⟨rfl, rfl⟩

theorem closing?_eq_some_iff {j : Nat} : v.closing? = some j ↔ v.Returns ∧ j = v.ran.events.length := by
  by_cases returned : v.Returns
  · rw [(v.finished_returned returned).2]
    simp [returned, eq_comm]
  · rw [(v.finished_lost returned).2]
    simp [returned]

theorem reaches_finished : Reaches v.ran v.finished := by
  by_cases returned : v.Returns
  · rw [(v.finished_returned returned).1]
    exact .single (.cameBack v.entry v.resume)
  · rw [(v.finished_lost returned).1]

/-- After its run a visit traces the return of the routine or nothing. -/
theorem finished_event {j : Nat} {e : Event} (late : v.ran.events.length ≤ j) (found : v.finished.events[j]? = some e) :
    e = .routineReturned v.entry v.resume ∧ v.closing? = some j := by
  have inside := (List.getElem?_eq_some_iff.mp found).1
  by_cases returned : v.Returns
  · obtain ⟨finished, closing⟩ := v.finished_returned returned
    rw [finished, Hart.events_cameBack] at found inside
    have last : j = v.ran.events.length := by
      rw [List.length_append, List.length_singleton] at inside
      omega
    rw [last, List.getElem?_concat_length] at found
    exact ⟨(Option.some.inj found).symm, by rw [closing, last]⟩
  · rw [(v.finished_lost returned).1] at inside
    omega

end Visit

/-! ### Ways and their visits -/

section
variable {h mid last : Hart} {visits more : List Visit}

theorem events_getElem? (path : Reaches h last) {i : Nat} (early : i < h.events.length) :
    last.events[i]? = h.events[i]? := by
  obtain ⟨traced, events⟩ := reaches_events path
  rw [← events, List.getElem?_append_left early]

theorem events_length_le (path : Reaches h last) : h.events.length ≤ last.events.length :=
  (reaches_events path).length_le

/-- A way on which no routine is entered or comes back has no visits. -/
theorem covers_plain (path : Reaches h last) {traced : List Event} (events : last.events = h.events ++ traced)
    (plain : ∀ e ∈ traced, e.isControl = false) : Covers h last [] := by
  have quiet : ∀ i e, h.events.length ≤ i → last.events[i]? = some e → e.isControl = false := by
    intro i e late found
    rw [events, List.getElem?_append_right late] at found
    exact plain e (List.mem_of_getElem? found)
  exact {
    path := path
    inside := fun _ member => nomatch member
    opened := fun i _ _ _ late found => nomatch quiet i _ late found
    closed := fun j _ _ late found => nomatch quiet j _ late found
    nested := .nil
    balanced := fun _ => ⟨traced, events, balanced_plain plain⟩ }

theorem covers_silent (path : Reaches h last) (same : last.events = h.events) : Covers h last [] := by
  have events : last.events = h.events ++ [] := by rw [same, List.append_nil]
  exact covers_plain path events (fun _ => nofun)

theorem covers_refl (h : Hart) : Covers h h [] := covers_silent .refl rfl

theorem covers_trans (first : Covers h mid visits) (second : Covers mid last more) :
    Covers h last (visits ++ more) where
  path := first.path.trans second.path
  inside := by
    intro v member
    rcases List.mem_append.mp member with before | after
    · exact ⟨(first.inside v before).1, (first.inside v before).2.trans second.path⟩
    · exact ⟨first.path.trans (second.inside v after).1, (second.inside v after).2⟩
  opened := by
    intro i mode entry masked late found
    by_cases early : i < mid.events.length
    · rw [events_getElem? second.path early] at found
      obtain ⟨v, member, opens⟩ := first.opened i mode entry masked late found
      exact ⟨v, List.mem_append_left more member, opens⟩
    · obtain ⟨v, member, opens⟩ := second.opened i mode entry masked (Nat.le_of_not_lt early) found
      exact ⟨v, List.mem_append_right visits member, opens⟩
  closed := by
    intro j entry resume late found
    by_cases early : j < mid.events.length
    · rw [events_getElem? second.path early] at found
      obtain ⟨v, member, closes⟩ := first.closed j entry resume late found
      exact ⟨v, List.mem_append_left more member, closes⟩
    · obtain ⟨v, member, closes⟩ := second.closed j entry resume (Nat.le_of_not_lt early) found
      exact ⟨v, List.mem_append_right visits member, closes⟩
  nested := by
    refine List.pairwise_append.mpr ⟨first.nested, second.nested, ?_⟩
    intro v before w after
    exact .inl ((first.inside v before).2.trans (second.inside w after).1)
  balanced := by
    intro returned
    obtain ⟨traced, events, balanced⟩ := first.balanced fun v member => returned v (List.mem_append_left more member)
    obtain ⟨further, others, rest⟩ := second.balanced fun v member => returned v (List.mem_append_right visits member)
    exact ⟨traced ++ further, by rw [others, events, List.append_assoc], balanced_append balanced rest⟩

/-- A visit covers its own way, with the visits that its routine makes inside it. -/
theorem covers_visit (v : Visit) (within : Covers v.landed v.ran visits) :
    Covers v.origin v.finished (v :: visits) := by
  obtain ⟨mode, masked, landed⟩ := v.landed_events
  have outset : v.landed.events[v.opening]? = some (.privilegeReturn mode v.entry masked) := by
    rw [landed]
    exact List.getElem?_concat_length
  have start : v.finished.events[v.opening]? = some (.privilegeReturn mode v.entry masked) := by
    rw [events_getElem? (v.reaches_ran.trans v.reaches_finished) (by rw [v.landed_length]; omega), outset]
  -- An event of the visit is its first one, one that its routine traces, or the return of the routine.
  have place : ∀ i, v.origin.events.length ≤ i →
      i = v.opening ∨ v.landed.events.length ≤ i ∧ i < v.ran.events.length ∨ v.ran.events.length ≤ i := by
    intro i late
    have next := v.landed_length
    have same : v.opening = v.origin.events.length := rfl
    omega
  exact {
    path := v.reaches_landed.trans (v.reaches_ran.trans v.reaches_finished)
    inside := by
      refine List.forall_mem_cons.mpr ⟨⟨.refl, .refl⟩, fun w member => ?_⟩
      obtain ⟨before, after⟩ := within.inside w member
      exact ⟨v.reaches_landed.trans before, after.trans v.reaches_finished⟩
    opened := by
      intro i mode entry masked late found
      rcases place i late with rfl | ⟨begun, early⟩ | ended
      · exact ⟨v, List.mem_cons_self, rfl⟩
      · rw [events_getElem? v.reaches_finished early] at found
        obtain ⟨w, member, opens⟩ := within.opened i mode entry masked begun found
        exact ⟨w, List.mem_cons_of_mem v member, opens⟩
      · exact nomatch (v.finished_event ended found).1
    closed := by
      intro j entry resume late found
      rcases place j late with rfl | ⟨begun, early⟩ | ended
      · rw [start] at found
        cases found
      · rw [events_getElem? v.reaches_finished early] at found
        obtain ⟨w, member, closes⟩ := within.closed j entry resume begun found
        exact ⟨w, List.mem_cons_of_mem v member, closes⟩
      · exact ⟨v, List.mem_cons_self, (v.finished_event ended found).2⟩
    nested := by
      refine List.pairwise_cons.mpr ⟨fun w member => .inr (within.inside w member), within.nested⟩
    balanced := by
      intro returned
      obtain ⟨own, others⟩ := List.forall_mem_cons.mp returned
      obtain ⟨traced, events, balanced⟩ := within.balanced others
      refine ⟨_, ?_, .visit mode v.entry masked v.resume balanced .nil⟩
      rw [(v.finished_returned own).1, Hart.events_cameBack, events, landed]
      simp }

end

/-! ### Operations -/

/-- An operation that is covered by visits on every hart with at most `k` routines, also when it faults. -/
structure Covered (k : Nat) {α : Type} (x : HartM α) : Prop where
  agree : AgreeWithin k x x
  covers : ∀ h : Hart, h.routines.length ≤ k → ∃ visits, Covers h (stateAfter (x h)) visits

section
variable {k : Nat} {α β : Type}

theorem covered_plain {x : HartM α} (agree : AgreeWithin k x x) (plain : ∀ h, Covers h (stateAfter (x h)) []) :
    Covered k x :=
  ⟨agree, fun h _ => ⟨[], plain h⟩⟩

theorem covered_same {x : HartM α} (same : ∀ h, stateAfter (x h) = h) : Covered k x := by
  refine covered_plain (agree_of_routines fun h => congrArg Hart.routines (same h)) fun h => ?_
  rw [same h]
  exact covers_refl h

theorem covered_bind {x : HartM α} {f : α → HartM β} (first : Covered k x) (rest : ∀ a, Covered k (f a)) :
    Covered k (x >>= f) where
  agree := agree_bind first.agree fun a => (rest a).agree
  covers := by
    intro h small
    obtain ⟨visits, covers⟩ := first.covers h small
    have still := (first.agree h small).2
    rw [bind_run]
    cases run : x h with
    | error e after =>
      rw [run] at covers
      exact ⟨visits, covers⟩
    | ok a after =>
      rw [run] at covers still
      obtain ⟨more, further⟩ := (rest a).covers after still
      exact ⟨visits ++ more, covers_trans covers further⟩

theorem covered_compositional (k : Nat) :
    Compositional (ε := Fault) (σ := Hart) (fun {α} x _ => Covered k (α := α) x) where
  same_pure _ := covered_same fun _ => rfl
  same_throw _ := covered_same fun _ => rfl
  same_get := covered_same fun _ => rfl
  bind first rest := covered_bind first rest

end

section
variable {k : Nat}

theorem report_covered (run : Word → HartM Exit) {level : Log.Level} (quiet : level.Quiet) (message : String) :
    Covered k ((opsWith run).report level message) :=
  covered_plain (agree_of_routines fun _ => rfl)
    fun h => covers_silent (.single (.logged quiet _)) (h.events_logged level _)

theorem note_covered (n : Note) : Covered k (note n) :=
  covered_plain (agree_of_routines fun _ => rfl) fun h => covers_silent (.single (.noted n)) (h.events_noted n)

theorem write_covered (value : RegisterWrite) : Covered k (writeRegister value) := by
  refine covered_plain (agree_of_routines (write_routines value)) fun h => ?_
  rcases write_cases h value with ⟨fault, refused⟩ | ⟨machine, written⟩
  · rw [refused]
    exact covers_refl h
  · rw [written]
    exact covers_plain (.single (.written value machine)) (h.events_written value) (List.forall_mem_singleton.mpr rfl)

theorem setup_covered (step : Setup) : Covered k (performSetup step) := by
  refine covered_plain (agree_of_routines (setup_routines step)) fun h => ?_
  rcases setup_cases h step with ⟨fault, refused⟩ | ⟨fits, done⟩
  · rw [refused]
    exact covers_refl h
  · rw [done]
    exact covers_plain (.single (.setup fits)) (h.events_afterSetup step) (List.forall_mem_singleton.mpr rfl)

theorem fill_covered (start value : Word) (words : Nat) : Covered k (fill start words value) := by
  refine covered_plain (agree_of_routines (fillFrom_routines start value 0 words)) fun h => ?_
  refine covers_silent (reaches_steady.fill_moves start words value h) ?_
  exact fillFrom_relates (R := fun h after => after.events = h.events) start value (fun _ => rfl)
    (fun addr same => same.trans (Hart.events_filled _ addr value)) 0 words h

theorem wait_covered : Covered k waitForInterrupt :=
  covered_plain (agree_of_routines fun _ => rfl)
    fun h => covers_plain (.single .waited) h.events_waited (List.forall_mem_singleton.mpr rfl)

theorem script_covered (k : Nat) : ScriptRelated (fun {α} x _ => Covered k (α := α) x) where
  toCompositional := covered_compositional k
  fill start words value := fill_covered start value words
  note step answer := note_covered (.performed step answer)

/-- A run of a registered routine is covered by what its steps are covered by. -/
theorem runRoutine_covers {ops : ResetOps Fault Hart HaltReason}
    (r : ResetOps.Related (fun {α} x _ => Covered k (α := α) x) ops ops) {h : Hart} (small : h.routines.length ≤ k + 1)
    {entry : Word} {routine : Routine} (found : RoutineTable.lookup h.routines entry = some routine) :
    ∃ visits, Covers h (stateAfter (runRoutine ops routine h)) visits := by
  have fewer : (RoutineTable.remove h.routines routine.entry).length ≤ k := by
    have shrinks := RoutineTable.length_remove_lt found
    rw [RoutineTable.entry_of_lookup found]
    omega
  have started : Covers h (h.started routine) [] :=
    covers_silent (.tail (.single (.unregistered routine.entry)) (.noted _)) (h.events_started routine)
  obtain ⟨visits, steps⟩ := (performNoted_related (script_covered k) r routine.nextRun.steps).covers
    (h.started routine) fewer
  cases run : performNoted ops routine.nextRun.steps (h.started routine) with
  | error fault after =>
    rw [run] at steps
    rw [runRoutine_faulted run]
    exact ⟨_, covers_trans started steps⟩
  | ok a after =>
    rw [run] at steps
    rw [runRoutine_ended run]
    have ended : Covers after (after.ended routine) [] :=
      covers_silent (.tail (.single (.registered _)) (.noted _)) (after.events_ended routine)
    exact ⟨_, covers_trans started (covers_trans steps ended)⟩

theorem runAt_covered {n : Nat} (deep : k ≤ n)
    (r : ResetOps.Related (fun {α} x _ => Covered k (α := α) x) (opsAt n) (opsAt n)) (entry : Word) :
    Covered (k + 1) (runAt (opsAt n) entry) where
  agree := runAt_agree (opsAt_agree k n n deep deep) entry
  covers := by
    intro h small
    cases found : RoutineTable.lookup h.routines entry with
    | none =>
      rw [runAt_unregistered _ found]
      exact ⟨[], covers_refl h⟩
    | some routine =>
      rw [runAt_registered _ found]
      exact runRoutine_covers r small found

theorem Visit.leave_finished (v : Visit) {run : Word → HartM Exit} (same : run v.entry v.landed = v.run) :
    stateAfter ((run v.entry >>= leave v.entry v.resume) v.landed) = v.finished := by
  rw [bind_run, same]
  unfold finished
  cases v.run with
  | error fault after => rfl
  | ok exit after => cases exit <;> rfl

theorem privilegeReturn_covered {n : Nat} (deep : k ≤ n) (runs : ∀ entry, Covered k (routineAt n entry))
    (resume : Resume) : Covered k (privilegeReturn (routineAt n) resume) where
  agree := privilegeReturn_agree (fun entry => (runs entry).agree) resume
  covers := by
    intro h small
    rw [privilegeReturn_eq]
    rcases land_cases h resume with ⟨fault, refused⟩ | ⟨status, entry, _, _, _, landed⟩
    · rw [bind_of_error refused]
      exact ⟨[], covers_refl h⟩
    · rw [bind_of_ok landed]
      let v : Visit := ⟨h, resume, entry, h.landed resume status entry, landed⟩
      have fits : v.landed.routines.length ≤ n := Nat.le_trans small deep
      have same : routineAt n v.entry v.landed = v.run :=
        (routineAt_depth fits v.entry).trans (runAt_depth (Nat.le_succ_of_le fits) (Nat.le_succ _) v.entry)
      obtain ⟨visits, within⟩ := (runs entry).covers v.landed small
      rw [same] at within
      rw [v.leave_finished same]
      exact ⟨v :: visits, covers_visit v within⟩

theorem opsWith_covered {n : Nat} (deep : k ≤ n) (runs : ∀ entry, Covered k (routineAt n entry)) :
    ResetOps.Related (fun {α} x _ => Covered k (α := α) x) (opsWith (routineAt n)) (opsWith (routineAt n)) where
  hartId := rfl
  patience := rfl
  fault := rfl
  report := report_covered _
  write := write_covered
  privilegeReturn := privilegeReturn_covered deep runs
  waitForInterrupt := wait_covered
  setup := setup_covered

/-- The operations of a hart are covered by visits if they allow for its routines. -/
theorem opsAt_covered (k : Nat) : ∀ n, k ≤ n →
    ResetOps.Related (fun {α} x _ => Covered k (α := α) x) (opsAt n) (opsAt n) := by
  induction k with
  | zero =>
    intro n deep
    rw [opsAt_eq]
    refine opsWith_covered deep fun entry => ⟨fun h empty => ?_, fun h empty => ?_⟩
    · rw [routineAt_empty n entry empty]
      exact ⟨rfl, empty⟩
    · rw [routineAt_empty n entry empty]
      exact ⟨[], covers_refl h⟩
  | succ k ih =>
    intro n deep
    obtain ⟨m, rfl⟩ : ∃ m, n = m + 1 := ⟨n - 1, by omega⟩
    have less : k ≤ m := Nat.le_of_succ_le_succ deep
    exact opsWith_covered (n := m + 1) deep fun entry => runAt_covered less (ih m less) entry

end

theorem step_covers (h : Hart) (step : Step) : ∃ visits, Covers h (stateAfter (h.step step)) visits :=
  (perform_related (script_covered _) (opsAt_covered _ _ (Nat.le_refl _)) step).covers h (Nat.le_refl _)

/-- What a script does is covered by visits; one that a fault interrupted is over where the fault left the hart. -/
theorem after_covers (h : Hart) (script : List Step) : ∃ visits, Covers h (h.after script) visits := by
  induction script generalizing h with
  | nil => exact ⟨[], covers_refl h⟩
  | cons step script ih =>
    obtain ⟨visits, first⟩ := step_covers h step
    obtain ⟨more, rest⟩ := ih (stateAfter (h.step step))
    refine ⟨visits ++ more, ?_⟩
    change Covers h ((h.account step).2.after script) _
    rw [account_state]
    exact covers_trans first rest

end HartBoot.Sim
