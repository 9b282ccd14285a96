import Mathlib.Data.List.Pairwise
import HartBoot.Proofs.Sim.Visits

/-!
How the control flow events of a trace are bracketed. At every moment of a run each return of a routine is joined with
the event that entered the routine, what lies between the two is what the routine did, and different pairs lie inside
each other or apart (`Bracketed`). An event that enters a routine and is not joined with a return belongs to a routine
that does not come back or has not yet (`Visit.Unreturned`). Where every routine comes back the trace is balanced
(`control_flow_bracketed`).
-/
namespace HartBoot.Sim

/-- What a run of the routine at `entry` adds to a history: what its steps do, between the notes that it was entered and
    left, and nothing where no routine is registered. -/
inductive IsRun (entry : Word) : Exit → History → Prop
  | absent : IsRun entry .returns []
  | registered (number : Nat) (start stop : Snapshot) (exit : Exit) (steps : History) :
      IsRun entry exit (.noted (.entered entry number) start :: (steps ++ [.noted (.left entry exit) stop]))

namespace Visit

/-- Up to `moment` the routine has come back: event number `i` entered it and number `j` tells that it has returned. -/
def Joins (v : Visit) (moment : History) (i j : Nat) : Prop :=
  v.opening = i ∧ v.closing? = some j ∧ v.finished.history <+: moment

/-- A visit from event number `i` to number `j` in the trace of `moment`: between the two stands what the run of the
    routine traces. -/
def Spans (v : Visit) (moment : History) (i j : Nat) : Prop :=
  ∃ mode masked run later after,
    History.events moment = v.origin.events ++ .privilegeReturn mode v.entry masked ::
      (History.events run ++ .routineReturned v.entry v.resume :: later) ∧
    v.origin.events.length = i ∧ i + 1 + (History.events run).length = j ∧
    v.run = .ok .returns after ∧ after.history = v.landed.history ++ run ∧ IsRun v.entry .returns run

/-- Up to `moment` the routine has not come back. -/
inductive Unreturned (v : Visit) (moment : History) : Prop
  | diverged (after : Hart) (run : History) (diverges : v.run = .ok .diverges after)
      (history : after.history = v.landed.history ++ run) (whole : IsRun v.entry .diverges run)
      (ended : after.history <+: moment)
  | faulted (fault : Fault) (after : Hart) (faults : v.run = .error fault after) (ended : after.history <+: moment)
  /-- The moment lies within the visit. -/
  | running (part : moment <+: v.finished.history) (early : moment ≠ v.finished.history)

end Visit

/-- Event number `j` tells that the routine has returned that event number `i` entered. -/
def Joined (visits : List Visit) (moment : History) (i j : Nat) : Prop := ∃ v ∈ visits, v.Joins moment i j

/-- The visits that a hart makes bracket the trace of what has happened to it up to `moment`. -/
structure Bracketed (visits : List Visit) (moment : History) : Prop where
  /-- A routine returns from a visit that went to it and on as the return says. -/
  returned : ∀ j entry resume, (History.events moment)[j]? = some (.routineReturned entry resume) →
    ∃ v ∈ visits, ∃ i < j, v.Joins moment i j ∧ v.entry = entry ∧ v.resume = resume
  spans : ∀ v ∈ visits, ∀ i j, v.Joins moment i j → v.Spans moment i j
  injective : ∀ i j i' j', Joined visits moment i j → Joined visits moment i' j' → (i = i' ↔ j = j')
  nonCrossing : ∀ i j i' j', Joined visits moment i j → Joined visits moment i' j' → i < i' → i' < j → j' < j
  /-- An event that enters a routine is joined, or else the routine has not come back. -/
  entered : ∀ i mode entry masked, (History.events moment)[i]? = some (.privilegeReturn mode entry masked) →
    ∃ v ∈ visits, v.opening = i ∧ v.entry = entry ∧ v.landed.history <+: moment ∧
      ((∃ j, v.Joins moment i j) ∨ v.Unreturned moment)

section
variable {h last : Hart} {visits : List Visit} {moment : History}

/-- A part of a history that has more events than `done` goes on to an event that follows `done`. -/
theorem event_prefix {done whole : History} {e : Event} (within : done ++ [.event e] <+: whole)
    (part : moment <+: whole) (more : (History.events done).length < (History.events moment).length) :
    done ++ [.event e] <+: moment := by
  rcases List.prefix_or_prefix_of_prefix within part with longer | shorter
  · exact longer
  · rcases List.prefix_concat_iff.mp shorter with same | early
    · exact same ▸ List.prefix_refl _
    · have fewer : (History.events moment).length ≤ (History.events done).length := (early.filterMap _).length_le
      omega

/-- What an event adds to a history ends with the event and has no other. -/
theorem trail_concat (done : History) (id : Word) (e : Event) :
    ∃ before, History.events before = History.events done ∧ done ++ Hart.trail id e = before ++ [.event e] := by
  obtain ⟨record, trail⟩ : ∃ record, Hart.trail id e = [.logged record, .event e] := ⟨_, rfl⟩
  refine ⟨done ++ [.logged record], by simp [History.events], ?_⟩
  rw [trail, List.append_assoc]
  rfl

namespace Visit
variable (v : Visit)

theorem landed_history : ∃ before mode masked, History.events before = v.origin.events ∧
    v.landed.history = before ++ [.event (.privilegeReturn mode v.entry masked)] := by
  obtain ⟨status, landed⟩ := v.landed_eq
  obtain ⟨before, events, split⟩ := trail_concat (v.origin.history ++ [.mret v.entry v.resume]) _ _
  rw [landed, Hart.history_landed, List.append_cons, split]
  refine ⟨before, _, _, ?_, rfl⟩
  rw [events, History.events_append]
  exact List.append_nil _

theorem finished_history (returned : v.Returns) : ∃ before, History.events before = v.ran.events ∧
    v.finished.history = before ++ [.event (.routineReturned v.entry v.resume)] := by
  rw [(v.finished_returned returned).1, Hart.history_cameBack]
  exact trail_concat v.ran.history _ _

variable {v} {moment whole : History} (part : moment <+: whole)
include part

/-- A moment that has seen the event that enters the routine has seen the routine entered. -/
theorem landed_prefix (within : v.landed.history <+: whole) (seen : v.opening < (History.events moment).length) :
    v.landed.history <+: moment := by
  obtain ⟨before, mode, masked, events, landed⟩ := v.landed_history
  rw [landed] at within ⊢
  refine event_prefix within part ?_
  rw [events]
  exact seen

/-- A moment that has seen the event that tells that the routine has returned has seen the whole visit. -/
theorem finished_prefix (returned : v.Returns) (within : v.finished.history <+: whole)
    (seen : v.ran.events.length < (History.events moment).length) : v.finished.history <+: moment := by
  obtain ⟨before, events, finished⟩ := v.finished_history returned
  rw [finished] at within ⊢
  refine event_prefix within part ?_
  rw [events]
  exact seen

end Visit

theorem covers_related (covers : Covers h last visits) {v w : Visit} (first : v ∈ visits) (second : w ∈ visits) :
    v = w ∨ v.Precedes w ∨ w.Precedes v := by
  have symmetric : Std.Symm fun v w : Visit => v = w ∨ v.Precedes w ∨ w.Precedes v :=
    ⟨fun _ _ order => order.imp Eq.symm Or.symm⟩
  have related : visits.Pairwise fun v w => v = w ∨ v.Precedes w ∨ w.Precedes v :=
    covers.nested.imp fun order => .inr (.inl order)
  exact related.forall_of_forall (fun _ _ => .inl rfl) first second

section
variable {v w : Visit} {i j i' j' : Nat}

theorem precedes_lt (order : v.Precedes w) : v.opening < w.opening := by
  have landed : Reaches v.landed w.origin := by
    rcases order with follows | ⟨begins, _⟩
    · exact v.reaches_ran.trans (v.reaches_finished.trans follows)
    · exact begins
  have later := events_length_le landed
  rw [v.landed_length] at later
  exact later

theorem joins_finished (joins : v.Joins moment i j) : v.finished.events.length = j + 1 ∧ v.ran.events.length = j := by
  obtain ⟨_, closes, _⟩ := joins
  obtain ⟨returned, rfl⟩ := v.closing?_eq_some_iff.mp closes
  rw [(v.finished_returned returned).1, Hart.events_cameBack, List.length_append]
  exact ⟨rfl, rfl⟩

theorem joins_lt (joins : v.Joins moment i j) : i < j := by
  have ran := events_length_le v.reaches_ran
  rw [v.landed_length, joins.1, (joins_finished joins).2] at ran
  exact ran

/-- Of two visits the second begins after the end of the first or lies inside it. -/
theorem joins_apart (order : v.Precedes w) (first : v.Joins moment i j) (second : w.Joins moment i' j') :
    j < i' ∨ i < i' ∧ j' < j := by
  obtain ⟨finished, ran⟩ := joins_finished first
  rcases order with follows | ⟨begins, ends⟩
  · have later := events_length_le follows
    rw [finished, show w.origin.events.length = i' from second.1] at later
    exact .inl later
  · have inner := events_length_le begins
    have outer := events_length_le ends
    rw [v.landed_length, first.1, show w.origin.events.length = i' from second.1] at inner
    rw [(joins_finished second).1, ran] at outer
    exact .inr ⟨inner, outer⟩

theorem joined_related (covers : Covers h last visits) (first : Joined visits moment i j)
    (second : Joined visits moment i' j') :
    i = i' ∧ j = j' ∨ (j < i' ∨ i < i' ∧ j' < j) ∨ (j' < i ∨ i' < i ∧ j < j') := by
  obtain ⟨v, member, joins⟩ := first
  obtain ⟨w, other, again⟩ := second
  rcases covers_related covers member other with rfl | before | after
  · have same : j = j' := Option.some.inj (joins.2.1.symm.trans again.2.1)
    exact .inl ⟨joins.1.symm.trans again.1, same⟩
  · exact .inr (.inl (joins_apart before joins again))
  · exact .inr (.inr (joins_apart after again joins))

end

/-- A routine that ends adds a run of it to the history. -/
theorem run_isRun {v : Visit} {exit : Exit} {after : Hart} (run : v.run = .ok exit after) :
    ∃ done, after.history = v.landed.history ++ done ∧ IsRun v.entry exit done := by
  unfold Visit.run at run
  cases found : RoutineTable.lookup v.landed.routines v.entry with
  | none =>
    rw [runAt_unregistered _ found] at run
    cases run
    exact ⟨[], (List.append_nil _).symm, .absent⟩
  | some routine =>
    have steps := performNoted_related reaches_steady.script_moves (reaches_steady.opsAt_moves v.landed.routines.length)
      routine.nextRun.steps (v.landed.started routine)
    rw [runAt_registered _ found] at run
    cases performed :
        performNoted (opsAt v.landed.routines.length) routine.nextRun.steps (v.landed.started routine) with
    | error fault stopped =>
      rw [runRoutine_faulted performed] at run
      cases run
    | ok a stopped =>
      rw [runRoutine_ended performed] at run
      cases run
      rw [performed, stateAfter_ok] at steps
      obtain ⟨more, grown⟩ := reaches_history steps
      refine ⟨_, ?_, .registered (routine.entered + 1) v.landed.snapshot stopped.snapshot routine.nextRun.exit more⟩
      rw [Hart.history_ended, ← grown, Hart.history_started, RoutineTable.entry_of_lookup found]
      simp

theorem joins_spans {v : Visit} {i j : Nat} (joins : v.Joins moment i j) : v.Spans moment i j := by
  obtain ⟨opens, closes, finished⟩ := joins
  obtain ⟨returned, last⟩ := v.closing?_eq_some_iff.mp closes
  obtain ⟨mode, masked, landed⟩ := v.landed_events
  obtain ⟨later, seen⟩ : v.finished.events <+: History.events moment := finished.filterMap _
  obtain ⟨after, run⟩ := returned
  obtain ⟨done, history, whole⟩ := run_isRun run
  have ended : v.ran = after := by
    unfold Visit.ran
    rw [run]
    rfl
  have ran : v.ran.events = v.landed.events ++ History.events done := by
    rw [ended, Hart.events, history, History.events_append]
    rfl
  refine ⟨mode, masked, done, later, after, ?_, opens, ?_, run, history, whole⟩
  · rw [← seen, (v.finished_returned ⟨after, run⟩).1, Hart.events_cameBack, ran, landed]
    simp
  · rw [last, ran, List.length_append, v.landed_length, opens]

theorem joined_event {v : Visit} {i j : Nat} (joins : v.Joins moment i j) :
    (History.events moment)[j]? = some (.routineReturned v.entry v.resume) := by
  obtain ⟨mode, masked, run, later, after, events, opens, length, _⟩ := joins_spans joins
  have place : j - v.origin.events.length = (History.events run).length + 1 := by omega
  rw [events, List.getElem?_append_right (by omega), place, List.getElem?_cons_succ,
    List.getElem?_append_right (Nat.le_refl _), Nat.sub_self]
  rfl

/-- A visit that has not come back at a moment of its way has an excuse. -/
theorem unreturned {v : Visit} (part : moment <+: last.history) (within : v.finished.history <+: last.history)
    (unjoined : ∀ j, ¬ v.Joins moment v.opening j) : v.Unreturned moment := by
  by_cases finished : v.finished.history <+: moment
  · have lost : ¬ v.Returns := fun returned => unjoined _ ⟨rfl, (v.finished_returned returned).2, finished⟩
    rw [(v.finished_lost lost).1, Visit.ran] at finished
    cases run : v.run with
    | error fault after =>
      rw [run] at finished
      exact .faulted fault after run finished
    | ok exit after =>
      rw [run] at finished
      cases exit with
      | returns => exact absurd ⟨after, run⟩ lost
      | diverges =>
        obtain ⟨done, history, whole⟩ := run_isRun run
        exact .diverged after done run history whole finished
  · rcases List.prefix_or_prefix_of_prefix within part with before | during
    · exact absurd before finished
    · exact .running during fun same => finished (same ▸ List.prefix_refl _)

/-- The visits on the way of a hart out of reset bracket what has happened at every moment of the way. -/
theorem covers_bracketed (covers : Covers h last visits) (fresh : h.events = []) (part : moment <+: last.history) :
    Bracketed visits moment := by
  have seen : ∀ {i e}, (History.events moment)[i]? = some e →
      last.events[i]? = some e ∧ i < (History.events moment).length := by
    intro i e found
    have inside := (List.getElem?_eq_some_iff.mp found).1
    obtain ⟨more, events⟩ : History.events moment <+: last.events := part.filterMap _
    rw [← events, List.getElem?_append_left inside]
    exact ⟨found, inside⟩
  have start : ∀ i, h.events.length ≤ i := fun i => by rw [fresh]; exact Nat.zero_le i
  exact {
    returned := by
      intro j entry resume found
      obtain ⟨there, inside⟩ := seen found
      obtain ⟨v, member, closes⟩ := covers.closed j entry resume (start j) there
      obtain ⟨returned, last⟩ := v.closing?_eq_some_iff.mp closes
      have finished := Visit.finished_prefix part returned (reaches_history (covers.inside v member).2) (last ▸ inside)
      have joins : v.Joins moment v.opening j := ⟨rfl, closes, finished⟩
      rw [joined_event joins] at found
      cases found
      exact ⟨v, member, v.opening, joins_lt joins, joins, rfl, rfl⟩
    spans := fun v _ i j joins => joins_spans joins
    injective := by
      rintro i j i' j' ⟨v, member, joins⟩ ⟨w, other, again⟩
      have related := joined_related covers ⟨v, member, joins⟩ ⟨w, other, again⟩
      have ends := joins_lt joins
      have ends' := joins_lt again
      omega
    nonCrossing := by
      intro i j i' j' first second outer inner
      have related := joined_related covers first second
      omega
    entered := by
      intro i mode entry masked found
      obtain ⟨there, inside⟩ := seen found
      obtain ⟨v, member, rfl⟩ := covers.opened i mode entry masked (start i) there
      have finished := reaches_history (covers.inside v member).2
      have landed := (reaches_history (v.reaches_ran.trans v.reaches_finished)).trans finished
      obtain ⟨_, _, events⟩ := v.landed_events
      rw [events_getElem? (v.reaches_ran.trans (v.reaches_finished.trans (covers.inside v member).2))
        (by rw [v.landed_length]; omega), events, Visit.opening, List.getElem?_concat_length] at there
      cases there
      refine ⟨v, member, rfl, rfl, Visit.landed_prefix part landed inside, ?_⟩
      by_cases joined : ∃ j, v.Joins moment v.opening j
      · exact .inl joined
      · exact .inr (unreturned part finished (not_exists.mp joined)) }

end

/-- Whatever is run on a hart out of reset, it makes visits to routines, one for each event that enters a routine, that
    bracket the trace at every moment of the run; if all the routines come back the whole trace is balanced. -/
theorem control_flow_bracketed (id : Word) (routines : RoutineTable) (budget : Nat) (script : List Step) :
    ∃ visits : List Visit,
      (∀ v ∈ visits, Reaches (.new id routines budget) v.origin ∧
        Reaches v.finished ((Hart.new id routines budget).after script)) ∧
      visits.Pairwise (fun v w => v.opening < w.opening) ∧
      (∀ moment, moment <+: ((Hart.new id routines budget).after script).history → Bracketed visits moment) ∧
      ((∀ v ∈ visits, v.Returns) → Balanced ((Hart.new id routines budget).after script).events) := by
  obtain ⟨visits, covers⟩ := after_covers (.new id routines budget) script
  refine ⟨visits, covers.inside, covers.nested.imp precedes_lt, fun moment part => covers_bracketed covers rfl part, ?_⟩
  intro returned
  obtain ⟨traced, events, balanced⟩ := covers.balanced returned
  rw [events]
  exact balanced

/-- Enters the routine at `entry` in machine mode. -/
def visiting (entry : Word) (resume : Resume) : Step := .enter ⟨⟨.machine, .empty⟩, entry, true, resume, none, none⟩

/-- A routine that enters itself and one that does not come back, and a routine that faults. -/
def tangle : RoutineTable :=
  [⟨0x100, [⟨[visiting 0x100 .caller, visiting 0x200 .idle], .returns⟩], 0⟩, ⟨0x200, [⟨[], .diverges⟩], 0⟩,
    ⟨0x300, [⟨[.setup (.zeroWord 1)], .returns⟩], 0⟩]

def tangled : Hart := (Hart.new 0 tangle 4).after [visiting 0x100 .idle, visiting 0x300 .caller]

/-- The first return is that of the inner visit to the first routine, and the last one that of the outer visit. -/
theorem control_flow_bracketed_tangled :
    tangled.history <+: tangled.history ∧
      tangled.events.filter Event.isControl =
        [.privilegeReturn .machine 0x100 true, .privilegeReturn .machine 0x100 true, .routineReturned 0x100 .caller,
          .privilegeReturn .machine 0x200 true, .routineReturned 0x100 .idle, .privilegeReturn .machine 0x300 true] ∧
      ∃ visits, Bracketed visits tangled.history := by
  obtain ⟨visits, _, _, bracketed, _⟩ :=
    control_flow_bracketed 0 tangle 4 [visiting 0x100 .idle, visiting 0x300 .caller]
  exact ⟨List.prefix_refl _, by decide +kernel, visits, bracketed tangled.history (List.prefix_refl _)⟩

end HartBoot.Sim
