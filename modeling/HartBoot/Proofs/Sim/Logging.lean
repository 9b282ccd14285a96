import HartBoot.Proofs.Sim.Depth
import HartBoot.Proofs.Sim.Replay

/-!
The log of a simulated hart. Whatever it is made to do, what that adds to its history is the record of each event and
then the event, reports of the boot at the levels `DEBUG` and `TRACE`, and what is neither logged nor traced
(`after_mirrored`). So the records of the hart are its trace, one for one, and nothing is ever logged at a graver level.
Entering a routine is reported before anything else is done (`logging_mirrors`).
-/
namespace HartBoot.Sim

namespace History
variable (later : History)

/-- The records of a history that a filter admits. -/
def told (filter : Log.Filter) (done : History) : List Log.Record :=
  (log done).filter fun record => filter.admits record.level

@[simp] theorem log_logged (record : Log.Record) : log (.logged record :: later) = record :: log later := rfl

@[simp] theorem log_event (e : Event) : log (.event e :: later) = log later := rfl

@[simp] theorem events_logged (record : Log.Record) : events (.logged record :: later) = events later := rfl

@[simp] theorem events_event (e : Event) : events (.event e :: later) = e :: events later := rfl

end History

/-- The record of an event of the hart numbered `id`. -/
def eventRecord (id : Word) (e : Event) : Log.Record :=
  ⟨.trace, "sim hart " ++ decimal id ++ ": " ++ inspect e, ⟨none, none⟩⟩

/-- The record of a report about the hart numbered `id`. -/
def reportRecord (id : Word) (level : Log.Level) (message : String) : Log.Record :=
  ⟨level, "hart " ++ decimal id ++ ": " ++ message, ⟨none, none⟩⟩

/-- The report that a routine is about to be entered. -/
def entryRecord (id : Word) (t : Transition) : Log.Record :=
  reportRecord id .trace ("mret to " ++ hex t.entry ++ " in " ++ inspect t.mode ++ " mode")

/-- Whether a record is the simulated hart's own, and not a report. -/
def FromSimulator (record : Log.Record) : Prop := "sim hart ".toList <+: record.message.toList

instance (record : Log.Record) : Decidable (FromSimulator record) :=
  inferInstanceAs (Decidable ("sim hart ".toList <+: record.message.toList))

theorem eventRecord_fromSimulator (id : Word) (e : Event) : FromSimulator (eventRecord id e) := by
  refine ⟨(decimal id ++ ": " ++ inspect e).toList, ?_⟩
  simp [eventRecord, String.toList_append]

theorem reportRecord_not_fromSimulator (id : Word) (level : Log.Level) (message : String) :
    ¬ FromSimulator (reportRecord id level message) := by
  simp [FromSimulator, reportRecord, String.toList_append]

/-- Whether a happening is neither logged nor traced. -/
def Happening.IsSilent : Happening → Prop
  | .event _ => False
  | .logged _ => False
  | _ => True

/-- A history of the hart numbered `id` in which each event comes right after its record, and in which only reports are
    logged besides. -/
inductive Mirrors (id : Word) : History → Prop
  | nil : Mirrors id []
  | traced (e : Event) {later : History} (rest : Mirrors id later) :
      Mirrors id (.logged (eventRecord id e) :: .event e :: later)
  | reported {level : Log.Level} (quiet : level.Quiet) (message : String) {later : History} (rest : Mirrors id later) :
      Mirrors id (.logged (reportRecord id level message) :: later)
  | silent {what : Happening} (silent : what.IsSilent) {later : History} (rest : Mirrors id later) :
      Mirrors id (what :: later)

section
variable {id : Word} {done more : History}

theorem mirrors_append (first : Mirrors id done) (second : Mirrors id more) : Mirrors id (done ++ more) := by
  induction first with
  | nil => exact second
  | traced e rest ih => exact .traced e ih
  | reported quiet message rest ih => exact .reported quiet message ih
  | silent unseen rest ih => exact .silent unseen ih

theorem log_silent {what : Happening} (silent : what.IsSilent) : History.log (what :: done) = History.log done := by
  cases what <;> first | rfl | exact silent.elim

theorem events_silent {what : Happening} (silent : what.IsSilent) :
    History.events (what :: done) = History.events done := by
  cases what <;> first | rfl | exact silent.elim

/-- The records of the hart are those of its events, in the order of the events. -/
theorem Mirrors.records (mirrors : Mirrors id done) :
    (History.log done).filter (fun record => FromSimulator record) = (History.events done).map (eventRecord id) := by
  induction mirrors with
  | nil => rfl
  | traced e rest ih => simp [eventRecord_fromSimulator, ih]
  | reported quiet message rest ih => simp [reportRecord_not_fromSimulator, ih]
  | silent unseen rest ih => rw [log_silent unseen, events_silent unseen, ih]

/-- What else is logged are reports. -/
theorem Mirrors.reports (mirrors : Mirrors id done) {record : Log.Record} (member : record ∈ History.log done)
    (other : ¬ FromSimulator record) :
    ∃ level : Log.Level, level.Quiet ∧ ∃ message, record = reportRecord id level message := by
  induction mirrors with
  | nil => cases member
  | traced e rest ih =>
    rcases List.mem_cons.mp member with rfl | later
    · exact absurd (eventRecord_fromSimulator id e) other
    · exact ih later
  | @reported level quiet message later rest ih =>
    rcases List.mem_cons.mp member with rfl | later
    · exact ⟨level, quiet, message, rfl⟩
    · exact ih later
  | silent unseen rest ih =>
    rw [log_silent unseen] at member
    exact ih member

theorem Mirrors.quiet (mirrors : Mirrors id done) {record : Log.Record} (member : record ∈ History.log done) :
    record.level.Quiet := by
  by_cases own : FromSimulator record
  · have listed : record ∈ (History.log done).filter fun record => FromSimulator record :=
      List.mem_filter.mpr ⟨member, decide_eq_true own⟩
    rw [mirrors.records] at listed
    obtain ⟨e, _, rfl⟩ := List.mem_map.mp listed
    exact .inr rfl
  · obtain ⟨level, quiet, message, rfl⟩ := mirrors.reports member own
    exact quiet

/-- A filter that admits the graver levels only admits nothing. -/
theorem Mirrors.told_info (mirrors : Mirrors id done) : History.told (.upTo .info) done = [] := by
  refine List.filter_eq_nil_iff.mpr fun record member => ?_
  rcases mirrors.quiet member with debug | trace
  · rw [debug]
    decide
  · rw [trace]
    decide

end

/-- Everything is told up to the lowest level. -/
theorem told_trace (done : History) : History.told (.upTo .trace) done = History.log done := by
  refine List.filter_eq_self.mpr fun record _ => ?_
  cases record.level <;> rfl

/-! ### What is done to a hart -/

/-- `after` is the hart `h` later, and what was added to its history mirrors its events. -/
structure Mirrored (h after : Hart) : Prop where
  hartId : after.registers.hartId = h.registers.hartId
  history : ∃ done, after.history = h.history ++ done ∧ Mirrors h.registers.hartId done

theorem Mirrored.trans {h middle after : Hart} (first : Mirrored h middle) (rest : Mirrored middle after) :
    Mirrored h after := by
  obtain ⟨done, grown, mirrors⟩ := first.history
  obtain ⟨more, further, others⟩ := rest.history
  rw [first.hartId] at others
  refine ⟨rest.hartId.trans first.hartId, done ++ more, ?_, mirrors_append mirrors others⟩
  rw [further, grown, List.append_assoc]

theorem mirrored_steady : Steady Mirrored where
  refl h := ⟨rfl, [], (List.append_nil _).symm, .nil⟩
  trans := .trans
  reported h _ quiet message := ⟨rfl, _, h.history_logged _ _, .reported quiet message .nil⟩
  noted h n := ⟨rfl, _, h.history_noted n, .silent (by trivial) .nil⟩
  written h value _ := ⟨by cases value <;> rfl, _, h.history_written value, .traced _ .nil⟩
  setup h step _ := ⟨by cases step <;> rfl, _, h.history_afterSetup step, .traced _ .nil⟩
  filled h addr value := ⟨rfl, _, h.history_filled addr value, .silent (by trivial) .nil⟩
  landed h resume _ _ _ _ _ := ⟨rfl, _, h.history_landed resume _ _, .silent (by trivial) (.traced _ .nil)⟩
  cameBack h entry resume := ⟨rfl, _, h.history_cameBack entry resume, .traced _ .nil⟩
  waited h := ⟨rfl, _, h.history_waited, .traced _ .nil⟩
  unregistered h _ := ⟨rfl, [], (List.append_nil _).symm, .nil⟩
  registered h _ := ⟨rfl, [], (List.append_nil _).symm, .nil⟩

theorem after_mirrored (h : Hart) (script : List Step) : Mirrored h (h.after script) := mirrored_steady.after h script

/-! ### Entering a routine -/

theorem history_entered (h : Hart) (t : Transition) : (h.entered t).history =
    h.history ++ .logged (entryRecord h.registers.hartId t) ::
      ((t.writes.map fun value => Hart.trail h.registers.hartId (.write value)).flatten ++ .mret t.entry t.resume ::
        Hart.trail h.registers.hartId (.privilegeReturn t.mode t.entry t.interruptEnable.isEmpty)) := by
  rw [Hart.entered, Hart.history_landed, h.registers_prepared, Hart.prepared, Hart.history_foldl_written, Hart.reported]
  rw [Hart.history_logged, List.append_assoc, List.append_assoc]
  rfl

/-- A routine is entered after a report, and in machine mode the register writes come right after that. -/
theorem enter_history (depth : Nat) (t : Transition) {h : Hart} (machine : h.registers.mode = .machine) :
    ∃ rest, (stateAfter ((opsAt depth).enter t h)).history =
      h.history ++ .logged (entryRecord h.registers.hartId t) :: rest ∧
      (t.writes.map fun value => Hart.trail h.registers.hartId (.write value)).flatten <+: rest := by
  have runs : Moves Reaches (routineAt depth t.entry) := by
    cases depth with
    | zero => exact reaches_steady.refl
    | succ depth => exact runAt_reaches depth t.entry
  -- What comes after the landing, whatever the routine does, only adds to the history of the hart that has landed.
  have onward := reaches_steady.bind_moves runs (reaches_steady.leave_moves t.entry t.resume)
  obtain ⟨more, grown⟩ := reaches_history (onward (h.entered t))
  rw [opsAt_eq, enter_machine _ h t machine, ← grown, history_entered, List.append_assoc, List.cons_append]
  refine ⟨_, rfl, ?_⟩
  rw [List.append_assoc]
  exact List.prefix_append _ _

/-- Whatever a script makes a hart do, nested routines and faults included, its log mirrors its trace. With everything
    told, the hart's own records are those of its new events, one for one and in order, and each comes right before its
    event. All other records are reports, at `DEBUG` or `TRACE`, so that a filter up to `INFO` lets nothing through.
    Wherever a routine is entered, its address and level are reported before any register is written, and below machine
    mode, where the first write is refused, that is all that is done. -/
theorem logging_mirrors (h : Hart) (script : List Step) :
    (∃ done, (h.after script).history = h.history ++ done ∧ Mirrors h.registers.hartId done ∧
      (History.told (.upTo .trace) done).filter (fun record => FromSimulator record) =
        (History.events done).map (eventRecord h.registers.hartId) ∧
      (∀ record ∈ History.told (.upTo .trace) done, ¬ FromSimulator record →
        ∃ level : Log.Level, level.Quiet ∧ ∃ message, record = reportRecord h.registers.hartId level message) ∧
      History.told (.upTo .info) done = []) ∧
    ∀ (depth : Nat) (t : Transition),
      if h.registers.mode = .machine then
        ∃ rest, (stateAfter ((opsAt depth).enter t h)).history =
          h.history ++ .logged (entryRecord h.registers.hartId t) :: rest ∧
          (t.writes.map fun value => Hart.trail h.registers.hartId (.write value)).flatten <+: rest
      else
        (opsAt depth).enter t h = .error (.illegalAccess h.registers.hartId "mstatus write" h.registers.mode)
          (h.remember (.logged (entryRecord h.registers.hartId t))) := by
  obtain ⟨done, grown, mirrors⟩ := (after_mirrored h script).history
  refine ⟨⟨done, grown, mirrors, ?_, ?_, mirrors.told_info⟩, fun depth t => ?_⟩
  · rw [told_trace]
    exact mirrors.records
  · intro record member other
    rw [told_trace] at member
    exact mirrors.reports member other
  · split
    · rename_i machine
      exact enter_history depth t machine
    · rename_i below
      rw [opsAt_eq]
      exact enter_refused _ h t below

end HartBoot.Sim
