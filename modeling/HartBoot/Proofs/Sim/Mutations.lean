import Mathlib.Data.List.Induction
import HartBoot.Proofs.Sim.Visits

/-!
What the mutations of a trace tell. The events that are classed as mutations give back every register but the program
counter; waits for interrupts change no register. A routine that returns leaves the program counter unknown although its
return is no mutation, so the mutations alone give back all registers exactly while no routine has returned since the
last return from machine mode (`mutations_recover`).
-/
namespace HartBoot.Sim

/-- The mutations of a trace, in order. -/
def mutations (events : List Event) : List Event := events.filter Event.isMutation

/-- Since the last return from machine mode a routine has returned. -/
def IsBack (events : List Event) : Prop := latest Event.pc? events = some none

/-- How the registers `r` of the hart `id` after a trace follow from its mutations alone. -/
structure Recovers (id : Word) (events : List Event) (r : Registers) : Prop where
  others : r = { Registers.replay id (mutations events) with pc := r.pc }
  kept : ¬ IsBack events → r.pc = (Registers.replay id (mutations events)).pc
  lost : IsBack events → r.pc = none
  exact_iff : r = Registers.replay id (mutations events) ↔ ¬ IsBack events

/-- Where an event takes the hart to, if it is a return from machine mode. -/
def Event.landing? : Event → Option Word
  | .privilegeReturn _ pc _ => some pc
  | _ => none

section
variable (id : Word) (events : List Event)

theorem mutations_mutation {e : Event} (kind : e.isMutation = true) :
    mutations (events ++ [e]) = mutations events ++ [e] := by
  rw [mutations, List.filter_append, List.filter_cons_of_pos kind]
  rfl

theorem mutations_other {e : Event} (kind : e.isMutation = false) : mutations (events ++ [e]) = mutations events := by
  rw [mutations, List.filter_append, List.filter_cons_of_neg (by rw [kind]; exact Bool.false_ne_true)]
  exact List.append_nil _

/-- An event has the same effect on registers that differ in the program counter. -/
theorem trace_others {r s : Registers} (same : r = { s with pc := r.pc }) (e : Event) :
    r.trace e = { s.trace e with pc := (r.trace e).pc } := by
  rw [same]
  cases e with
  | setup step => cases step <;> rfl
  | write value => cases value <;> rfl
  | _ => rfl

/-- An event that is no mutation changes the program counter at most. -/
theorem trace_of_not_mutation {e : Event} (other : e.isMutation = false) (r : Registers) :
    r.trace e = { r with pc := (r.trace e).pc } := by
  cases e with
  | routineReturned entry resume => rfl
  | waitForInterrupt => rfl
  | _ => cases other

theorem trace_pc_of_mutation {e : Event} (kind : e.isMutation = true) (r : Registers) :
    (r.trace e).pc = e.landing?.or r.pc := by
  cases e with
  | setup step => cases step <;> rfl
  | write value => cases value <;> rfl
  | privilegeReturn mode pc masked => rfl
  | _ => cases kind

theorem landing?_of_not_mutation {e : Event} (other : e.isMutation = false) : e.landing? = none := by
  cases e <;> first | rfl | cases other

theorem replay_mutations :
    Registers.replay id events =
      { Registers.replay id (mutations events) with pc := (Registers.replay id events).pc } := by
  induction events using List.reverseRecOn with
  | nil => rfl
  | append_singleton events e ih =>
    rw [Registers.replay_concat]
    cases kind : e.isMutation with
    | true =>
      rw [mutations_mutation events kind, Registers.replay_concat]
      exact trace_others ih e
    | false =>
      rw [mutations_other events kind, trace_of_not_mutation kind]
      exact congrArg (fun r : Registers => { r with pc := ((Registers.replay id events).trace e).pc }) ih

/-- The mutations leave the program counter where the last return from machine mode landed. -/
theorem replay_mutations_pc : (Registers.replay id (mutations events)).pc = latest Event.landing? events := by
  induction events using List.reverseRecOn with
  | nil => rfl
  | append_singleton events e ih =>
    rw [latest_concat]
    cases kind : e.isMutation with
    | true => rw [mutations_mutation events kind, Registers.replay_concat, trace_pc_of_mutation kind, ih]
    | false => rw [mutations_other events kind, landing?_of_not_mutation kind, ih, Option.none_or]

/-- While no routine has returned since, the hart is where the last return from machine mode landed. -/
theorem replay_pc (away : ¬ IsBack events) : (Registers.replay id events).pc = latest Event.landing? events := by
  induction events using List.reverseRecOn with
  | nil => rfl
  | append_singleton events e ih =>
    rw [IsBack, latest_concat] at away
    rw [Registers.replay_concat, latest_concat]
    cases kind : e.isMutation with
    | true =>
      rw [trace_pc_of_mutation kind]
      cases e with
      | privilegeReturn mode pc masked => rfl
      | routineReturned entry resume => exact absurd rfl away
      | _ => exact congrArg _ (ih away)
    | false =>
      cases e with
      | routineReturned entry resume => exact absurd rfl away
      | waitForInterrupt => exact ih away
      | _ => cases kind

variable {id events}

theorem isBack_returned (back : IsBack events) : ∃ entry resume, .routineReturned entry resume ∈ events := by
  obtain ⟨e, member, value⟩ := List.mem_filterMap.mp (List.mem_of_getLast? back)
  cases e with
  | routineReturned entry resume => exact ⟨entry, resume, member⟩
  | _ => cases value

/-- The registers after a trace in which only routines return that were entered. -/
theorem replay_recovers (entered : IsBack events → ∃ mode entry masked, .privilegeReturn mode entry masked ∈ events) :
    Recovers id events (Registers.replay id events) where
  others := replay_mutations id events
  kept away := (replay_pc id events away).trans (replay_mutations_pc id events).symm
  lost back := congrArg Option.join back
  exact_iff := by
    constructor
    · intro same back
      obtain ⟨mode, entry, masked, member⟩ := entered back
      have nowhere : latest Event.landing? events = none := by
        rw [← replay_mutations_pc id events, ← same]
        exact congrArg Option.join back
      have none := List.filterMap_eq_nil_iff.mp (List.getLast?_eq_none_iff.mp nowhere) _ member
      cases none
    · intro away
      have others := replay_mutations id events
      rw [replay_pc id events away, ← replay_mutations_pc id events] at others
      exact others

end

/-- In a trace from reset on a routine that returns was entered before. -/
theorem covers_entered {h last : Hart} {visits : List Visit} (covers : Covers h last visits) (fresh : h.events = [])
    {traced : List Event} (part : traced <+: last.events) {entry : Word} {resume : Resume}
    (returned : .routineReturned entry resume ∈ traced) :
    ∃ mode entry masked, .privilegeReturn mode entry masked ∈ traced := by
  obtain ⟨j, found⟩ := List.mem_iff_getElem?.mp returned
  have inside := (List.getElem?_eq_some_iff.mp found).1
  obtain ⟨more, events⟩ := part
  have shared {i : Nat} (within : i < traced.length) : last.events[i]? = traced[i]? := by
    rw [← events, List.getElem?_append_left within]
  have there : last.events[j]? = some (.routineReturned entry resume) := (shared inside).trans found
  obtain ⟨v, member, closes⟩ := covers.closed j entry resume (by rw [fresh]; exact Nat.zero_le j) there
  obtain ⟨_, rfl⟩ := v.closing?_eq_some_iff.mp closes
  obtain ⟨mode, masked, landed⟩ := v.landed_events
  have path := v.reaches_ran.trans (v.reaches_finished.trans (covers.inside v member).2)
  have early : v.opening < v.landed.events.length := by rw [v.landed_length]; omega
  have first : traced[v.opening]? = some (.privilegeReturn mode v.entry masked) := by
    have within := Nat.lt_trans (Nat.lt_of_lt_of_le early (events_length_le v.reaches_ran)) inside
    rw [← shared within, events_getElem? path early, landed]
    exact List.getElem?_concat_length
  exact ⟨mode, v.entry, masked, List.mem_of_getElem? first⟩

/-- After any script, and at every moment that a routine has noted on the way, the mutations of the trace tell all
    registers but the program counter, and that as well exactly while no routine has returned since the last return from
    machine mode. -/
theorem mutations_recover (id : Word) (routines : RoutineTable) (budget : Nat) (script : List Step) :
    Recovers id ((Hart.new id routines budget).after script).events
        ((Hart.new id routines budget).after script).registers ∧
      ∀ note seen, (note, seen) ∈ History.notes ((Hart.new id routines budget).after script).history →
        Recovers id (((Hart.new id routines budget).after script).events.take seen.eventCount) seen.registers := by
  obtain ⟨visits, covers⟩ := after_covers (.new id routines budget) script
  have faithful := reachable_faithful covers.path
  have recovers : ∀ traced, traced <+: ((Hart.new id routines budget).after script).events →
      Recovers id traced (Registers.replay id traced) := by
    intro traced part
    refine replay_recovers fun back => ?_
    obtain ⟨entry, resume, returned⟩ := isBack_returned back
    exact covers_entered covers rfl part returned
  constructor
  · rw [faithful.registers]
    exact recovers _ (List.prefix_refl _)
  · intro note seen member
    rw [(faithful.noted note seen member).1]
    exact recovers _ (List.take_prefix ..)

/-- A hart that has returned from machine mode to an address at which no routine is registered. -/
def returnedHart : Hart := (Hart.new 0 [] 4).after [.write (.epc 0x80001000), .privilegeReturn .caller]

/-- The routine there has returned, which is no mutation, and the program counter is unknown; the mutations alone leave
    it at the address. -/
theorem returnedHart_unrecovered :
    returnedHart.registers.pc = none ∧
      (Registers.replay 0 (mutations returnedHart.events)).pc = some 0x80001000 ∧
      returnedHart.registers ≠ Registers.replay 0 (mutations returnedHart.events) := by
  have unknown : returnedHart.registers.pc = none := rfl
  have told : (Registers.replay 0 (mutations returnedHart.events)).pc = some 0x80001000 := by decide +kernel
  refine ⟨unknown, told, fun same => ?_⟩
  rw [same, told] at unknown
  cases unknown

end HartBoot.Sim
