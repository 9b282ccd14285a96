import HartBoot.Proofs.Console.Lock
import HartBoot.Proofs.Machine.Encoding
import HartBoot.Proofs.Runs

/-!
What the two parts of every boot do on the board. Entering a routine writes the control registers of the transition, in
its order, and returns from machine mode (`enter_fits`); a routine that comes back goes on as the transition says
(`leave_caller`, `leave_idle`). Parking waits for interrupts as often as the hart may, and at least once (`park_run`).
-/
namespace HartBoot.Machine

namespace Board
variable (b : Board)

/-- A board with a console that has received more. -/
def said (c : Console) : Board := { b with console := c }

def csrWritten (b : Board) (w : Csr × Word) : Board := (b.setCsr w.1 w.2).trace (.csr w.1 w.2)

def written (b : Board) (value : RegisterWrite) : Board := (registerImage value).foldl csrWritten b

/-- A board on which the register writes of a transition are done. -/
def prepared (t : Transition) : Board := t.writes.foldl written b

/-- A board whose hart enters the routine of a transition. -/
def entered (t : Transition) : Board :=
  (b.prepared t).trace (.mret t.entry t.status.bits t.interruptEnable.bits)

def waited : Board := { b.trace .waitForInterrupt with wfiBudget := b.wfiBudget - 1 }

def waitedFor (b : Board) : Nat → Board
  | 0 => b
  | n + 1 => b.waited.waitedFor n

theorem events_foldl_csrWritten (writes : List (Csr × Word)) (b : Board) :
    (writes.foldl csrWritten b).events = b.events ++ writes.map fun w => .csr w.1 w.2 := by
  induction writes generalizing b with
  | nil => simp
  | cons w writes ih =>
    have first : (b.csrWritten w).events = b.events ++ [.csr w.1 w.2] := events_trace _ _
    rw [List.foldl_cons, ih, first, List.append_assoc]
    rfl

theorem events_foldl_written (values : List RegisterWrite) (b : Board) :
    (values.foldl written b).events =
      b.events ++ (values.flatMap registerImage).map fun w => .csr w.1 w.2 := by
  induction values generalizing b with
  | nil => simp
  | cons value values ih =>
    have first : (b.written value).events = b.events ++ (registerImage value).map fun w => .csr w.1 w.2 :=
      events_foldl_csrWritten _ _
    rw [List.foldl_cons, ih, first, List.append_assoc, List.flatMap_cons, List.map_append]

theorem events_entered (t : Transition) : (b.entered t).events =
    b.events ++ ((t.writes.flatMap registerImage).map fun w => .csr w.1 w.2) ++
      [.mret t.entry t.status.bits t.interruptEnable.bits] := by
  rw [entered, events_trace, prepared, events_foldl_written]

/-- What the writes of a transition leave in the registers that a return from machine mode goes by, and what they do
    not touch. -/
theorem prepared_state (t : Transition) :
    (b.prepared t).csr .mepc = t.entry ∧ (b.prepared t).csr .mstatus = t.status.bits ∧
      (b.prepared t).csr .mie = t.interruptEnable.bits ∧ (b.prepared t).console = b.console ∧
      (b.prepared t).wfiBudget = b.wfiBudget := by
  rw [prepared, Transition.writes]
  cases t.trapVector <;> cases t.pmp <;> exact ⟨rfl, rfl, rfl, rfl, rfl⟩

@[simp] theorem events_waitedFor (n : Nat) :
    (b.waitedFor n).events = b.events ++ List.replicate n .waitForInterrupt := by
  induction n generalizing b with
  | zero => simp [waitedFor]
  | succ n ih =>
    have first : b.waited.events = b.events ++ [.waitForInterrupt] := events_trace _ _
    rw [waitedFor, ih, first, List.append_assoc, List.replicate_succ]
    rfl

end Board

theorem onConsole_run {α : Type} {f : Console → Option (Console × α)} {b : Board} {c : Console} {a : α}
    (taken : f b.console = some (c, a)) : onConsole f b = .ok a (b.said c) := by
  unfold onConsole
  rw [bind_of_ok (get_run b), taken]
  rfl

theorem log_free {b : Board} (free : b.console.locked = false) (level : Log.Level) (message : String) :
    ∃ c : Console, log level message b = .ok () (b.said c) ∧ c.locked = false := by
  unfold log
  rw [bind_of_ok (get_run b)]
  by_cases admitted : b.filter.admits level = true
  · rw [if_pos admitted]
    obtain ⟨c, printed, unlocked⟩ :=
      Console.print_free free (Log.inColor level.color [Log.Record.line ⟨level, message, b.position⟩])
    refine ⟨c, onConsole_run ?_, unlocked⟩
    rw [printed]
    rfl
  · rw [if_neg admitted]
    exact ⟨b.console, rfl, free⟩

theorem write_fits {value : RegisterWrite} (fits : Fits value) (b : Board) :
    writeRegister value b = .ok () (b.written value) := by
  unfold writeRegister
  rw [encode_fits fits]
  exact (forM_of_ok (fun _ => True) trivial fun w _ b _ => ⟨rfl, trivial⟩).1

theorem writes_fit {t : Transition} (known : t.status.flags.unnamed = 0)
    (aligned : ∀ v, t.trapVector = some v → v.IsAligned) : ∀ value ∈ t.writes, Fits value := by
  intro value member
  simp only [Transition.writes, List.mem_append, List.mem_cons, List.not_mem_nil, or_false, Option.mem_toList,
    Option.map_eq_some_iff] at member
  rcases member with (((rfl | rfl) | ⟨v, vector, rfl⟩) | rfl) | ⟨e, _, rfl⟩
  · exact known
  · exact trivial
  · exact aligned v vector
  · have named : t.interruptEnable.unnamed = 0 := by
      rw [Transition.interruptEnable]
      cases t.interruptsMasked <;> decide
    exact named
  · exact trivial

/-- What a hart does when the routine at `entry` has come back. -/
def leave (entry : Word) (resume : Resume) : BoardM (Flow Empty) := do
  record (.returned entry)
  match resume with
  | .caller => return .onward
  | .idle => park

/-- A report on a console whose lock is free changes the console only, whatever routines there are. -/
theorem report_free {b : Board} (free : b.console.locked = false) (level : Log.Level) (message : String) :
    ∃ c : Console, c.locked = false ∧ ∀ run, (opsWith run).report level message b = .ok () (b.said c) := by
  obtain ⟨c, logged, unlocked⟩ := log_free free level ("hart " ++ decimal (b.csr .mhartid) ++ ": " ++ message)
  exact ⟨c, unlocked, fun _ => logged⟩

section
variable (run : Word → BoardM Unit)

theorem privilegeReturn_run (b : Board) (resume : Resume) :
    privilegeReturn run resume b = (run (b.csr .mepc) >>= fun _ => leave (b.csr .mepc) resume)
      (b.trace (.mret (b.csr .mepc) (b.csr .mstatus) (b.csr .mie))) :=
  rfl

/-- A transition that fits its registers is entered with the bits it has. -/
theorem enter_fits {t : Transition} (fits : ∀ value ∈ t.writes, Fits value) {b : Board} {c : Console}
    (told : (opsWith run).report .trace ("mret to " ++ hex t.entry ++ " in " ++ inspect t.mode ++ " mode") b =
      .ok () (b.said c)) :
    (opsWith run).enter t b = (run t.entry >>= fun _ => leave t.entry t.resume) ((b.said c).entered t) := by
  have written : t.writes.forM (opsWith run).write (b.said c) = .ok () ((b.said c).prepared t) :=
    (forM_of_ok (fun _ => True) trivial fun value member b _ => ⟨write_fits (fits value member) b, trivial⟩).1
  obtain ⟨epc, status, interrupts, _, _⟩ := (b.said c).prepared_state t
  unfold HartOps.enter
  rw [bind_of_ok told, bind_of_ok written]
  refine (privilegeReturn_run run _ _).trans ?_
  rw [epc, status, interrupts]
  rfl

end

theorem waitForInterrupt_run (b : Board) : waitForInterrupt b =
    if b.waited.wfiBudget = 0 then .error (.ended .parked) b.waited else .ok () b.waited := by
  have waits : waitForInterrupt b =
      (if b.waited.wfiBudget = 0 then throw (.ended .parked) else pure () : BoardM Unit) b.waited := rfl
  rw [waits]
  by_cases spent : b.waited.wfiBudget = 0
  · rw [if_pos spent, if_pos spent]
    rfl
  · rw [if_neg spent, if_neg spent]
    rfl

theorem waits_run (n : Nat) (b : Board) (enough : max 1 b.wfiBudget ≤ n) :
    (List.replicate n ()).forM (fun _ => waitForInterrupt) b =
      .error (.ended .parked) (b.waitedFor (max 1 b.wfiBudget)) := by
  induction n generalizing b with
  | zero => omega
  | succ n ih =>
    have left : b.waited.wfiBudget = b.wfiBudget - 1 := rfl
    have wait := waitForInterrupt_run b
    change (waitForInterrupt >>= fun _ => (List.replicate n ()).forM fun _ => waitForInterrupt) b = _
    by_cases last : b.waited.wfiBudget = 0
    · have once : max 1 b.wfiBudget = 1 := by omega
      rw [if_pos last] at wait
      rw [bind_of_error wait, once]
      rfl
    · have more : max 1 b.wfiBudget = max 1 b.waited.wfiBudget + 1 := by omega
      rw [if_neg last] at wait
      rw [bind_of_ok wait, more]
      exact ih b.waited (by omega)

theorem park_run {α : Type} (b : Board) :
    (park : BoardM α) b = .error (.ended .parked) (b.waitedFor (max 1 b.wfiBudget)) := by
  unfold park
  rw [bind_of_ok (get_run b)]
  exact bind_of_error (waits_run _ b (Nat.le_refl _))

theorem leave_caller (entry : Word) (b : Board) : leave entry .caller b = .ok .onward (b.trace (.returned entry)) :=
  rfl

theorem leave_idle (entry : Word) (b : Board) : leave entry .idle b =
    .error (.ended .parked) ((b.trace (.returned entry)).waitedFor (max 1 b.wfiBudget)) :=
  park_run (b.trace (.returned entry))

end HartBoot.Machine
