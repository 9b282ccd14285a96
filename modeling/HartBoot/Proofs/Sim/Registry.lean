import Mathlib.Data.List.Perm.Subperm
import HartBoot.Proofs.Sim.Depth
import HartBoot.Proofs.Sim.Entry

/-!
The registry of routines. What a hart does is read as an account of the routines that are running, innermost first
(`History.running`), and every operation keeps the registry to it: registered is what was registered and is not running
(`perform_orderly`). A routine is therefore never started again while it runs, what an operation ends with is registered
as before but for the routines that a fault interrupted, and routines nest no deeper than there are of them
(`step_regulated`).
-/
namespace HartBoot.Sim
namespace RoutineTable

/-- The addresses at which routines are registered. -/
def entries (table : RoutineTable) : List Word := table.map (·.entry)

theorem mem_entries_remove {table : RoutineTable} {entry other : Word} :
    other ∈ entries (remove table entry) ↔ other ∈ entries table ∧ other ≠ entry := by
  simp only [entries, remove, List.mem_map, List.mem_filter]
  constructor
  · rintro ⟨r, ⟨member, kept⟩, rfl⟩
    exact ⟨⟨r, member, rfl⟩, by simpa using kept⟩
  · rintro ⟨⟨r, member, rfl⟩, different⟩
    exact ⟨r, ⟨member, by simpa using different⟩, rfl⟩

theorem mem_entries_register {table : RoutineTable} {r : Routine} {other : Word} :
    other ∈ entries (register table r) ↔ other = r.entry ∨ other ∈ entries table := by
  change other ∈ r.entry :: entries (remove table r.entry) ↔ _
  rw [List.mem_cons, mem_entries_remove]
  by_cases same : other = r.entry <;> simp [same]

theorem mem_entries_of_lookup {table : RoutineTable} {entry : Word} {r : Routine}
    (found : lookup table entry = some r) : entry ∈ entries table :=
  List.mem_map.mpr ⟨r, List.mem_of_find?_eq_some found, entry_of_lookup found⟩

theorem lookup_of_not_mem {table : RoutineTable} {entry : Word} (absent : entry ∉ entries table) :
    lookup table entry = none := by
  cases found : lookup table entry with
  | none => rfl
  | some r => exact absurd (mem_entries_of_lookup found) absent

end RoutineTable

/-! ### The account of running routines -/

/-- What a happening makes of the running routines. -/
def Happening.running (stack : List Word) : Happening → List Word
  | .noted (.entered entry _) _ => entry :: stack
  | .noted (.left entry _) _ => stack.erase entry
  | _ => stack

/-- The routines that are running after a history that starts with those of `stack`, innermost first. -/
def runningAfter (stack : List Word) (history : History) : List Word := history.foldl Happening.running stack

/-- The routines that are running after a history that starts with none, innermost first. -/
abbrev History.running (history : History) : List Word := runningAfter [] history

/-- After this a return from machine mode is recorded, and at once the return of the routine that it entered. -/
def ComesBack (entry : Word) (resume : Resume) (later : History) : Prop :=
  ∃ mode masked rest,
    History.events later = .privilegeReturn mode entry masked :: .routineReturned entry resume :: rest

/-- What a happening has to do with the registry while the routines of `stack` run: only a registered routine that does
    not run is started, and a return to any other address comes back at once. -/
def Happening.Obeys (registered : Word → Prop) (stack : List Word) (later : History) : Happening → Prop
  | .noted (.entered entry _) _ => registered entry ∧ entry ∉ stack
  | .mret entry resume => (registered entry → entry ∈ stack) → ComesBack entry resume later
  | .event (.privilegeReturn _ entry _) => (registered entry → entry ∈ stack) →
      ∃ resume, (History.events later).head? = some (.routineReturned entry resume)
  | _ => True

/-- A history all of which obeys the registry. -/
def Disciplined (registered : Word → Prop) : List Word → History → Prop
  | _, [] => True
  | stack, what :: later => what.Obeys registered stack later ∧ Disciplined registered (what.running stack) later

/-- Whether a happening has nothing to do with routines. -/
def Happening.isPlain : Happening → Bool
  | .mret _ _ => false
  | .event (.privilegeReturn _ _ _) => false
  | .noted (.entered _ _) _ => false
  | .noted (.left _ _) _ => false
  | _ => true

section
variable {registered : Word → Prop} {stack : List Word} {done more later : History}

theorem obeys_append {what : Happening} (obeys : what.Obeys registered stack later) :
    what.Obeys registered stack (later ++ more) := by
  cases what with
  | mret entry resume =>
    intro absent
    obtain ⟨mode, masked, rest, events⟩ := obeys absent
    exact ⟨mode, masked, rest ++ History.events more, by rw [History.events_append, events]; rfl⟩
  | noted n seen =>
    cases n with
    | entered entry run => exact obeys
    | performed step answer => trivial
    | left entry exit => trivial
  | event e =>
    cases e with
    | privilegeReturn mode entry masked =>
      intro absent
      obtain ⟨resume, back⟩ := obeys absent
      exact ⟨resume, by rw [History.events_append, List.head?_append, back]; rfl⟩
    | _ => trivial
  | filled addr value => trivial
  | logged record => trivial

theorem runningAfter_append : runningAfter stack (done ++ more) = runningAfter (runningAfter stack done) more :=
  List.foldl_append

theorem disciplined_append (first : Disciplined registered stack done)
    (second : Disciplined registered (runningAfter stack done) more) :
    Disciplined registered stack (done ++ more) := by
  induction done generalizing stack with
  | nil => exact second
  | cons what done ih => exact ⟨obeys_append first.1, ih first.2 second⟩

theorem disciplined_later (all : Disciplined registered stack (done ++ more)) :
    Disciplined registered (runningAfter stack done) more := by
  induction done generalizing stack with
  | nil => exact all
  | cons what done ih => exact ih all.2

theorem plain_disciplined (registered : Word → Prop) (stack : List Word) (plain : ∀ what ∈ done, what.isPlain = true) :
    Disciplined registered stack done ∧ runningAfter stack done = stack := by
  induction done generalizing stack with
  | nil => exact ⟨trivial, rfl⟩
  | cons what done ih =>
    have first := plain what List.mem_cons_self
    have same : what.running stack = stack := by
      cases what with
      | noted n seen => cases n <;> first | rfl | cases first
      | _ => rfl
    have obeys : what.Obeys registered stack done := by
      cases what with
      | mret entry resume => cases first
      | event e => cases e <;> trivial
      | noted n seen => cases n <;> trivial
      | _ => trivial
    obtain ⟨rest, ends⟩ := ih (what.running stack) fun other member => plain other (List.mem_cons_of_mem what member)
    exact ⟨⟨obeys, rest⟩, ends.trans same⟩

/-- Only registered routines run, and each of them once. -/
theorem running_disciplined (all : Disciplined registered stack (done ++ more)) (distinct : stack.Nodup)
    (known : ∀ entry ∈ stack, registered entry) :
    (runningAfter stack done).Nodup ∧ ∀ entry ∈ runningAfter stack done, registered entry := by
  induction done generalizing stack with
  | nil => exact ⟨distinct, known⟩
  | cons what done ih =>
    refine ih all.2 ?_ ?_
    · cases what with
      | noted n seen =>
        cases n with
        | entered entry run => exact List.nodup_cons.mpr ⟨all.1.2, distinct⟩
        | performed step answer => exact distinct
        | left entry exit => exact distinct.erase entry
      | _ => exact distinct
    · cases what with
      | noted n seen =>
        cases n with
        | entered entry run => exact List.forall_mem_cons.mpr ⟨all.1.1, known⟩
        | performed step answer => exact known
        | left entry exit => exact fun other member => known other (List.mem_of_mem_erase member)
      | _ => exact known

end

/-! ### Operations -/

/-- Registered on `h` is what is registered for good and is not running. -/
def Holds (registered : Word → Prop) (stack : List Word) (h : Hart) : Prop :=
  ∀ entry, entry ∈ RoutineTable.entries h.routines ↔ registered entry ∧ entry ∉ stack

section
variable {registered : Word → Prop} {stack : List Word} {h : Hart}

theorem holds_removed (holds : Holds registered stack h) (entry : Word) :
    Holds registered (entry :: stack) { h with routines := RoutineTable.remove h.routines entry } := by
  intro other
  rw [RoutineTable.mem_entries_remove, holds other, List.mem_cons, not_or]
  constructor
  · rintro ⟨⟨known, idle⟩, different⟩
    exact ⟨known, different, idle⟩
  · rintro ⟨known, different, idle⟩
    exact ⟨⟨known, idle⟩, different⟩

theorem holds_registered {r : Routine} (holds : Holds registered (r.entry :: stack) h) (known : registered r.entry)
    (idle : r.entry ∉ stack) : Holds registered stack { h with routines := RoutineTable.register h.routines r } := by
  intro other
  rw [RoutineTable.mem_entries_register, holds other, List.mem_cons, not_or]
  constructor
  · rintro (rfl | ⟨kept, _, out⟩)
    · exact ⟨known, idle⟩
    · exact ⟨kept, out⟩
  · rintro ⟨kept, out⟩
    by_cases same : other = r.entry
    · exact .inl same
    · exact .inr ⟨kept, same, out⟩

end

/-- The registry is kept to the account of running routines from `h` to the end of an operation. If that is no fault,
    the routines that run then are those that ran before. -/
def Keeps (registered : Word → Prop) (stack : List Word) (h : Hart) {α : Type}
    (result : EStateM.Result Fault Hart α) : Prop :=
  ∃ done, (stateAfter result).history = h.history ++ done ∧ Disciplined registered stack done ∧
    Holds registered (runningAfter stack done) (stateAfter result) ∧
    ∀ a after, result = .ok a after → runningAfter stack done = stack

/-- An operation that keeps the registry to the account of running routines. -/
def Orderly {α : Type} (x : HartM α) : Prop :=
  ∀ registered stack h, Holds registered stack h → Keeps registered stack h (x h)

/-- An operation that has nothing to do with routines. -/
def Plain {α : Type} (x : HartM α) : Prop :=
  ∀ h : Hart, (stateAfter (x h)).routines = h.routines ∧
    ∃ done, (stateAfter (x h)).history = h.history ++ done ∧ ∀ what ∈ done, what.isPlain = true

section
variable {α β : Type}

theorem orderly_of_plain {x : HartM α} (plain : Plain x) : Orderly x := by
  intro registered stack h holds
  obtain ⟨routines, done, grown, others⟩ := plain h
  obtain ⟨disciplined, same⟩ := plain_disciplined registered stack others
  refine ⟨done, grown, disciplined, ?_, fun _ _ _ => same⟩
  rw [same]
  intro entry
  rw [routines]
  exact holds entry

theorem plain_of_same {x : HartM α} (same : ∀ h, stateAfter (x h) = h) : Plain x := by
  intro h
  rw [same h]
  exact ⟨rfl, [], by simp, by simp⟩

theorem orderly_bind {x : HartM α} {f : α → HartM β} (first : Orderly x) (rest : ∀ a, Orderly (f a)) :
    Orderly (x >>= f) := by
  intro registered stack h holds
  obtain ⟨done, grown, disciplined, left, ends⟩ := first registered stack h holds
  rw [bind_run]
  cases run : x h with
  | error e after =>
    rw [run] at grown left
    exact ⟨done, grown, disciplined, left, fun _ _ ok => nomatch ok⟩
  | ok a after =>
    have same := ends a after run
    rw [run] at grown left
    rw [same] at left
    obtain ⟨more, further, others, last, again⟩ := rest a registered stack after left
    refine ⟨done ++ more, ?_, disciplined_append disciplined (by rw [same]; exact others), ?_, ?_⟩
    · rw [further, ← List.append_assoc, ← grown]
      rfl
    · rw [runningAfter_append, same]
      exact last
    · intro b final ok
      rw [runningAfter_append, same]
      exact again b final ok

theorem orderly_compositional : Compositional (ε := Fault) (σ := Hart) (fun {α} x _ => Orderly (α := α) x) where
  same_pure _ := orderly_of_plain (plain_of_same fun _ => rfl)
  same_throw _ := orderly_of_plain (plain_of_same fun _ => rfl)
  same_get := orderly_of_plain (plain_of_same fun _ => rfl)
  bind first rest := orderly_bind first rest

end

theorem write_plain (value : RegisterWrite) : Plain (writeRegister value) := by
  intro h
  rcases write_cases h value with ⟨fault, refused⟩ | ⟨_, written⟩
  · rw [refused]
    exact ⟨rfl, [], by simp, by simp⟩
  · rw [written]
    exact ⟨rfl, _, h.history_written value, Hart.trail_all _ (fun _ => rfl) rfl⟩

theorem setup_plain (step : Setup) : Plain (performSetup step) := by
  intro h
  rcases setup_cases h step with ⟨fault, refused⟩ | ⟨_, done⟩
  · rw [refused]
    exact ⟨rfl, [], by simp, by simp⟩
  · rw [done]
    exact ⟨rfl, _, h.history_afterSetup step, Hart.trail_all _ (fun _ => rfl) rfl⟩

theorem fillFrom_plain (start value : Word) (i words : Nat) : Plain (fillFrom start value i words) := by
  intro h
  refine ⟨fillFrom_routines start value i words h, ?_⟩
  refine fillFrom_relates (R := fun h after => ∃ done, after.history = h.history ++ done ∧
    ∀ what ∈ done, what.isPlain = true) start value (fun _ => ⟨[], by simp, by simp⟩) ?_ i words h
  rintro h after addr ⟨done, grown, plain⟩
  refine ⟨.filled addr value :: done, ?_, List.forall_mem_cons.mpr ⟨rfl, plain⟩⟩
  rw [grown, Hart.history_filled, List.append_assoc]
  rfl

theorem script_orderly : ScriptRelated (fun {α} x _ => Orderly (α := α) x) where
  toCompositional := orderly_compositional
  fill start words value := orderly_of_plain (fillFrom_plain start value 0 words)
  note step answer := orderly_of_plain fun h => ⟨rfl, _, h.history_noted _, by simp [Happening.isPlain]⟩

theorem leave_plain (entry : Word) (resume : Resume) (exit : Exit) : Plain (leave entry resume exit) := by
  intro h
  cases exit with
  | returns => exact ⟨rfl, _, h.history_cameBack entry resume, Hart.trail_all _ (fun _ => rfl) rfl⟩
  | diverges => exact ⟨rfl, [], by simp [leave], by simp⟩

/-- Where no routine is registered at the address, a return from machine mode comes back at once. -/
theorem leave_comesBack {run : Word → HartM Exit} {entry : Word} {h : Hart}
    (returned : run entry h = .ok .returns h) (resume : Resume) :
    (stateAfter ((run entry >>= leave entry resume) h)).history =
      h.history ++ Hart.trail h.registers.hartId (.routineReturned entry resume) := by
  rw [bind_of_ok returned]
  exact h.history_cameBack entry resume

theorem privilegeReturn_orderly {run : Word → HartM Exit} (runs : ∀ entry, Orderly (run entry))
    (absent : ∀ {entry : Word} {h : Hart}, entry ∉ RoutineTable.entries h.routines → run entry h = .ok .returns h)
    (resume : Resume) : Orderly (privilegeReturn run resume) := by
  intro registered stack h holds
  rw [privilegeReturn_eq]
  rcases land_cases h resume with ⟨fault, refused⟩ | ⟨status, entry, _, _, _, landed⟩
  · rw [bind_of_error refused]
    exact ⟨[], by simp, trivial, holds, fun _ _ ok => nomatch ok⟩
  · rw [bind_of_ok landed]
    have still : Holds registered stack (h.landed resume status entry) := holds
    obtain ⟨done, grown, disciplined, left, ends⟩ :=
      orderly_bind (runs entry) (fun exit => orderly_of_plain (leave_plain entry resume exit)) registered stack _ still
    have back : (registered entry → entry ∈ stack) → ∃ rest,
        History.events done = .routineReturned entry resume :: rest := by
      intro out
      -- A routine that runs is not registered, so at its address there is nothing to run.
      have unregistered : entry ∉ RoutineTable.entries h.routines := fun member =>
        ((holds entry).mp member).2 (out ((holds entry).mp member).1)
      have back := leave_comesBack (absent (h := h.landed resume status entry) unregistered) resume
      rw [grown] at back
      rw [List.append_cancel_left back]
      exact ⟨_, rfl⟩
    refine ⟨.mret entry resume :: (Hart.trail h.registers.hartId
      (.privilegeReturn status.previous entry h.registers.interruptsMasked) ++ done), ?_,
      ⟨fun out => ?_, trivial, fun out => ?_, disciplined⟩, left, ends⟩
    · rw [grown, Hart.history_landed, List.append_assoc]
      rfl
    · obtain ⟨rest, events⟩ := back out
      exact ⟨status.previous, h.registers.interruptsMasked, rest, by rw [History.events_append, events]; rfl⟩
    · obtain ⟨rest, events⟩ := back out
      exact ⟨resume, congrArg List.head? events⟩

section
variable {ops : ResetOps Fault Hart HaltReason} (r : ResetOps.Related (fun {α} x _ => Orderly (α := α) x) ops ops)
include r

/-- A routine that is removed while it runs and registered again is the one difference between before and after that the
    account of running routines makes up for. -/
theorem runRoutine_keeps {registered : Word → Prop} {stack : List Word} {h : Hart} (holds : Holds registered stack h)
    {entry : Word} {routine : Routine} (found : RoutineTable.lookup h.routines entry = some routine) :
    Keeps registered stack h (runRoutine ops routine h) := by
  obtain ⟨known, idle⟩ := (holds entry).mp (RoutineTable.mem_entries_of_lookup found)
  obtain rfl := RoutineTable.entry_of_lookup found
  have out : Holds registered (routine.entry :: stack) (h.started routine) := holds_removed holds routine.entry
  obtain ⟨done, grown, disciplined, left, ends⟩ :=
    performNoted_related script_orderly r routine.nextRun.steps registered (routine.entry :: stack) _ out
  rw [Hart.history_started, List.append_assoc] at grown
  cases run : performNoted ops routine.nextRun.steps (h.started routine) with
  | error fault after =>
    rw [run] at grown left
    rw [runRoutine_faulted run]
    exact ⟨_, grown, ⟨⟨known, idle⟩, disciplined⟩, left, fun _ _ ok => nomatch ok⟩
  | ok a after =>
    have same := ends a after run
    rw [run, stateAfter_ok] at grown left
    rw [same] at left
    rw [runRoutine_ended run]
    have back : Holds registered stack (after.ended routine) := holds_registered left known idle
    let entered : Happening := .noted (.entered routine.entry (routine.entered + 1)) h.snapshot
    let exited : Happening := .noted (.left routine.entry routine.nextRun.exit) after.snapshot
    -- When the routine ends it is the innermost one that runs, as those that it led to have ended.
    have ended : runningAfter stack (entered :: (done ++ [exited])) = stack := by
      rw [← List.cons_append, runningAfter_append]
      change (runningAfter (routine.entry :: stack) done).erase routine.entry = stack
      rw [same]
      exact List.erase_cons_head ..
    refine ⟨entered :: (done ++ [exited]), ?_, ⟨⟨known, idle⟩, disciplined_append disciplined ?_⟩, ?_,
      fun _ _ _ => ended⟩
    · rw [stateAfter_ok, Hart.history_ended, grown, List.append_assoc]
      rfl
    · exact ⟨trivial, trivial⟩
    · rw [ended]
      exact back

theorem runAt_orderly (entry : Word) : Orderly (runAt ops entry) := by
  intro registered stack h holds
  cases found : RoutineTable.lookup h.routines entry with
  | none =>
    rw [runAt_unregistered ops found]
    exact ⟨[], by simp, trivial, holds, fun _ _ _ => rfl⟩
  | some routine =>
    rw [runAt_registered ops found]
    exact runRoutine_keeps r holds found

end

theorem opsWith_orderly {run : Word → HartM Exit} (runs : ∀ entry, Orderly (run entry))
    (absent : ∀ {entry : Word} {h : Hart}, entry ∉ RoutineTable.entries h.routines → run entry h = .ok .returns h) :
    ResetOps.Related (fun {α} x _ => Orderly (α := α) x) (opsWith run) (opsWith run) where
  hartId := rfl
  patience := rfl
  fault := rfl
  report _ _ := orderly_of_plain fun h => ⟨rfl, _, h.history_logged _ _, by simp [Happening.isPlain]⟩
  write value := orderly_of_plain (write_plain value)
  privilegeReturn := privilegeReturn_orderly runs absent
  waitForInterrupt := orderly_of_plain fun h => ⟨rfl, _, h.history_waited, Hart.trail_all _ (fun _ => rfl) rfl⟩
  setup step := orderly_of_plain (setup_plain step)

/-- The operations of a hart are orderly, however deep its routines may nest. -/
theorem opsAt_orderly (depth : Nat) :
    ResetOps.Related (fun {α} x _ => Orderly (α := α) x) (opsAt depth) (opsAt depth) := by
  induction depth with
  | zero => exact opsWith_orderly (fun _ => orderly_compositional.same_pure _) fun _ => rfl
  | succ depth ih =>
    exact opsWith_orderly (runAt_orderly ih) fun out => runAt_unregistered _ (RoutineTable.lookup_of_not_mem out)

theorem perform_orderly (depth : Nat) (step : Step) : Orderly (perform (opsAt depth) step) :=
  perform_related script_orderly (opsAt_orderly depth) step

/-! ### Whole operations -/

/-- What happens on a hart from `h` on to the end of an operation. -/
def Hart.during (h : Hart) (step : Step) : History := (stateAfter (h.step step)).history.drop h.history.length

/-- How an operation on `h` deals with the routines registered there. -/
structure Regulated (h : Hart) (step : Step) : Prop where
  /-- Only a registered routine is started, and never while it is running. -/
  starts : ∀ earlier entry run seen later, h.during step = earlier ++ .noted (.entered entry run) seen :: later →
    entry ∈ RoutineTable.entries h.routines ∧ entry ∉ History.running earlier
  /-- A return from machine mode to a routine that is running is traced and comes back at once. -/
  comesBack : ∀ earlier entry resume later, h.during step = earlier ++ .mret entry resume :: later →
    entry ∈ History.running earlier → ComesBack entry resume later
  /-- Seen from the trace: what follows such a return there is that it came back. -/
  adjacent : ∀ earlier mode entry masked later,
    h.during step = earlier ++ .event (.privilegeReturn mode entry masked) :: later →
      entry ∈ History.running earlier →
        ∃ resume, (History.events later).head? = some (.routineReturned entry resume)
  /-- At any time the running routines are different ones of those registered before. -/
  nests : ∀ earlier, earlier <+: h.during step →
    (History.running earlier).Nodup ∧
      (∀ entry ∈ History.running earlier, entry ∈ RoutineTable.entries h.routines) ∧
      (History.running earlier).length ≤ h.routines.length
  /-- Without a fault the same routines are registered afterwards as before. -/
  kept : ∀ answer after, h.step step = .ok answer after →
    ∀ entry, entry ∈ RoutineTable.entries after.routines ↔ entry ∈ RoutineTable.entries h.routines
  /-- A fault loses the routines that were running, and no other. -/
  lost : ∀ fault after, h.step step = .error fault after → ∀ entry,
    entry ∈ RoutineTable.entries h.routines ↔
      entry ∈ RoutineTable.entries after.routines ∨ entry ∈ History.running (h.during step)
  /-- What was lost is not registered any more. -/
  gone : ∀ fault after, h.step step = .error fault after → ∀ entry,
    entry ∈ RoutineTable.entries after.routines → entry ∉ History.running (h.during step)
  /-- The operation comes to its end with as many runs of routines inside each other as there are routines: what would
      run them further down is never asked. -/
  ends : ∀ beyond, perform (opsOver beyond (h.routines.length + 1)) step h = h.step step

/-- The account of running routines over an operation on `h`, of which the clauses of `Regulated` are views. -/
theorem step_keeps (h : Hart) (step : Step) :
    Disciplined (· ∈ RoutineTable.entries h.routines) [] (h.during step) ∧
      Holds (· ∈ RoutineTable.entries h.routines) (History.running (h.during step)) (stateAfter (h.step step)) ∧
      ∀ answer after, h.step step = .ok answer after → History.running (h.during step) = [] := by
  have holds : Holds (· ∈ RoutineTable.entries h.routines) [] h := fun entry => by simp
  obtain ⟨done, grown, disciplined, left, ends⟩ := perform_orderly h.routines.length step _ [] h holds
  have during : h.during step = done := by
    unfold Hart.during Hart.step
    rw [grown, List.drop_left]
  rw [during]
  exact ⟨disciplined, left, ends⟩

theorem step_regulated (h : Hart) (step : Step) : Regulated h step := by
  obtain ⟨disciplined, left, ends⟩ := step_keeps h step
  have later : ∀ {earlier later : History}, h.during step = earlier ++ later →
      Disciplined (· ∈ RoutineTable.entries h.routines) (History.running earlier) later :=
    fun split => disciplined_later (split ▸ disciplined)
  have running : ∀ {earlier : History}, earlier <+: h.during step → (History.running earlier).Nodup ∧
      ∀ entry ∈ History.running earlier, entry ∈ RoutineTable.entries h.routines := by
    rintro earlier ⟨rest, split⟩
    exact running_disciplined (split ▸ disciplined) List.nodup_nil (fun _ => nofun)
  exact {
    starts := fun _ _ _ _ _ split => (later split).1
    comesBack := fun _ _ _ _ split inside => (later split).1 fun _ => inside
    adjacent := fun _ _ _ _ _ split inside => (later split).1 fun _ => inside
    nests := by
      intro earlier part
      obtain ⟨distinct, known⟩ := running part
      refine ⟨distinct, known, ?_⟩
      have fits := (List.subperm_of_subset distinct known).length_le
      rwa [RoutineTable.entries, List.length_map] at fits
    kept := by
      intro answer after ok entry
      rw [ok, ends answer after ok] at left
      simpa using left entry
    lost := by
      intro fault after failed entry
      rw [failed] at left
      rw [show entry ∈ RoutineTable.entries after.routines ↔ _ from left entry]
      have known := (running (List.prefix_refl (h.during step))).2 entry
      by_cases inside : entry ∈ History.running (h.during step)
      · exact iff_of_true (known inside) (.inr inside)
      · simp [inside]
    gone := by
      intro fault after failed entry member
      rw [failed] at left
      exact ((left entry).mp member).2
    ends := fun beyond => perform_over beyond h step }

/-- Waiting for interrupts ends by itself: the hart parks, and however much longer it were let wait changes nothing. -/
theorem idle_ends (run : Word → HartM Exit) (h : Hart) (more : Nat) :
    (opsWith run).idleFor ((opsWith run).patience h + more) h = (opsWith run).idle h ∧
      ∃ after, (opsWith run).idle h = .ok (.halted .parked) after :=
  ⟨(idleFor_run run h _ (Nat.le_add_right _ more)).trans (idle_run run h).symm, _, idle_run run h⟩

/-- Every operation keeps to the registry of routines and comes to an end, and so does every wait for interrupts that it
    may come to. -/
theorem registry_regulated (h : Hart) (step : Step) :
    Regulated h step ∧ ∀ (run : Word → HartM Exit) (moment : Hart) (more : Nat),
      (opsWith run).idleFor ((opsWith run).patience moment + more) moment = (opsWith run).idle moment ∧
        ∃ after, (opsWith run).idle moment = .ok (.halted .parked) after :=
  ⟨step_regulated h step, idle_ends⟩

/-- A routine that enters itself: the second return from machine mode comes back at once. -/
example :
    let t : Transition := ⟨⟨.machine, .empty⟩, 0x80001000, true, .caller, none, none⟩
    let h := Hart.new 0 [⟨t.entry, [⟨[.enter t], .returns⟩], 0⟩] 1
    (stateAfter (h.step (.enter t))).events =
      entryTrace t ++ entryTrace t ++ [.routineReturned t.entry .caller, .routineReturned t.entry .caller] := by
  rfl

end HartBoot.Sim
