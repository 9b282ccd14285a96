import HartBoot.Proofs.Boot.LayoutMessage
import HartBoot.Proofs.Boot.Validation
import HartBoot.Proofs.Machine.Records
import HartBoot.Proofs.Machine.ResetVector

/-!
What a boot reports of its layout. On the elected hart the reset vector comes to the descent without a word
(`resetVector_descends`), early initialisation sends its records to the port that it installs (`runEarlyInit_sends`),
and the main routine is announced and entered (`boot_reaches_main`). What is printed until then has the report of an
error exactly if the check of the layout finds that error (`reported_iff`). A trap vector that is not aligned is an
exception: it does not go into its register, so the boot ends before early initialisation could report it
(`boot_stops`).
-/
namespace HartBoot.Machine

/-- A return from machine mode, by which routines are entered. -/
def Event.isReturn : Event → Bool
  | .mret _ _ _ => true
  | _ => false

/-- From `b` to `after` the hart has printed nothing, entered no routine and changed nothing that decides what it
    prints. -/
structure Quiet (b after : Board) : Prop where
  hart : after.csr .mhartid = b.csr .mhartid
  console : after.console = b.console
  filter : after.filter = b.filter
  position : after.position = b.position
  events : ∃ own, after.events = b.events ++ own ∧ ∀ e ∈ own, e.isReturn = false

theorem Quiet.refl (b : Board) : Quiet b b where
  hart := rfl
  console := rfl
  filter := rfl
  position := rfl
  events := ⟨[], by simp⟩

theorem Quiet.trans {b mid after : Board} (first : Quiet b mid) (second : Quiet mid after) : Quiet b after where
  hart := second.hart.trans first.hart
  console := second.console.trans first.console
  filter := second.filter.trans first.filter
  position := second.position.trans first.position
  events := by
    obtain ⟨own, events, plain⟩ := first.events
    obtain ⟨more, later, rest⟩ := second.events
    refine ⟨own ++ more, by rw [later, events, List.append_assoc], ?_⟩
    intro e member
    rcases List.mem_append.mp member with early | late
    · exact plain e early
    · exact rest e late

theorem quiet_trace (b : Board) {e : Event} (plain : e.isReturn = false) : Quiet b (b.trace e) where
  hart := rfl
  console := rfl
  filter := rfl
  position := rfl
  events := ⟨[e], Board.events_trace b e, by simpa using plain⟩

/-- A register write changes nothing that decides what is printed, as the number of the hart is not written. -/
theorem quiet_written (b : Board) {w : Csr × Word} (other : w.1 ≠ .mhartid) : Quiet b (b.csrWritten w) where
  hart := if_neg (Ne.symm other)
  console := rfl
  filter := rfl
  position := rfl
  events := ⟨[.csr w.1 w.2], Board.events_trace _ _, by simp [Event.isReturn]⟩

/-! ### The reset vector -/

theorem effect_quiet {effect : Effect} (harmless : ∀ name value, effect = .csr name value → name ≠ .mhartid)
    (b : Board) : ∃ after, effect.perform b = .ok () after ∧ Quiet b after := by
  cases effect with
  | register rd value => exact ⟨b, rfl, .refl b⟩
  | csr name value => exact ⟨b.csrWritten (name, value), rfl, quiet_written b (harmless name value rfl)⟩
  | store addr value =>
    refine ⟨{ b with memory := b.memory.store addr value }.trace (.store addr value), rfl, ?_⟩
    have stored : Quiet b { b with memory := b.memory.store addr value } :=
      ⟨rfl, rfl, rfl, rfl, [], by simp [Board.events]⟩
    exact stored.trans (quiet_trace _ rfl)

theorem effects_quiet {effects : List Effect}
    (harmless : ∀ effect ∈ effects, ∀ name value, effect = .csr name value → name ≠ .mhartid) (b : Board) :
    ∃ after, effects.forM Effect.perform b = .ok () after ∧ Quiet b after := by
  induction effects generalizing b with
  | nil => exact ⟨b, rfl, .refl b⟩
  | cons effect effects ih =>
    obtain ⟨mid, first, quiet⟩ := effect_quiet (harmless effect List.mem_cons_self) b
    obtain ⟨after, rest, still⟩ := ih (fun other member => harmless other (List.mem_cons_of_mem effect member)) mid
    refine ⟨after, ?_, quiet.trans still⟩
    change (effect.perform >>= fun _ => effects.forM Effect.perform) b = _
    rw [bind_of_ok first, rest]

/-- On the elected hart the reset vector comes to the descent, whatever it has to clear on the way. -/
theorem resetVector_descends (image : Image) {b : Board} (elected : IsBootHart (b.csr .mhartid))
    (clearable : image.layout.bss.Clearable) :
    ∃ ready, image.runResetVector b = .ok .bootDescend ready ∧ Quiet b ready := by
  obtain ⟨d, departs, target, lasting⟩ := resetVector_elected (c := ⟨b.csr, .initial⟩) rfl clearable elected
  have left : execute image.symbols resetVector image.resetLines resetVector ⟨b.csr, .initial⟩ = some d :=
    departs _ (resetLines_enough image)
  have harmless : ∀ effect ∈ d.effects, ∀ name value, effect = .csr name value → name ≠ .mhartid := by
    rintro _ member name value rfl
    have stays : Effect.csr name value ∈ d.lasting := List.mem_filter.mpr ⟨member, rfl⟩
    rw [lasting] at stays
    simp only [List.mem_append, List.mem_cons, List.mem_map, List.not_mem_nil, reduceCtorEq, and_false, exists_false,
      or_false, Effect.csr.injEq] at stays
    rw [stays.1]
    decide
  obtain ⟨after, performed, quiet⟩ := effects_quiet harmless b
  refine ⟨after.trace (.tail d.target d.registers.handedOver), ?_, quiet.trans (quiet_trace _ rfl)⟩
  have ran : runCode image.symbols resetVector image.resetLines b =
      .ok (d.target, d.registers) (after.trace (.tail d.target d.registers.handedOver)) := by
    unfold runCode
    rw [bind_of_ok (get_run b), left]
    exact bind_of_ok performed
  rw [target] at ran ⊢
  exact bind_of_ok ran

/-! ### Early initialisation -/

namespace Image
variable (image : Image)

/-- What early initialisation says of the check of the layout. -/
def layoutRecords (position : Log.Position) : List Log.Record :=
  match image.layout.validate with
  | .ok _ => []
  | .error e => [⟨.error, "boot layout: " ++ e.message, position⟩]

/-- What early initialisation logs on the hart numbered `hart`. -/
def initRecords (hart : Word) (position : Log.Position) : List Log.Record :=
  [⟨.info, "hart " ++ decimal hart ++ ": early init", position⟩,
    ⟨.info, ".bss " ++ hex image.layout.bss.start ++ " - " ++ hex image.layout.bss.stop, position⟩,
    ⟨.info, "boot stack top " ++ hex image.layout.stackEnd, position⟩,
    ⟨.info, "global pointer " ++ hex image.layout.globalPointer, position⟩,
    ⟨.info, "trap vector " ++ hex image.layout.trapVector.address, position⟩,
    ⟨.info, "main routine " ++ hex image.layout.main, position⟩] ++ image.layoutRecords position

/-- A board whose console, logging and timer early initialisation has set up. -/
def initialised (b : Board) : Board :=
  { b with
    console := ⟨false, ⟨none, ""⟩ :: b.console.sinks⟩
    uarts := b.uarts ++ [Platform.uartBase]
    filter := image.filter
    comparator := BitVec.allOnes 64 }

theorem runEarlyInit_eq {b : Board} (free : b.console.locked = false) : image.runEarlyInit b =
    (image.initRecords (b.csr .mhartid) b.position).forM (fun r => log r.level r.message) (image.initialised b) := by
  have installed : (b.console.install none).map (·, ()) = some (⟨false, ⟨none, ""⟩ :: b.console.sinks⟩, ()) := by
    simp [Console.install, Console.lock_free free, Console.unlock]
  unfold runEarlyInit initRecords layoutRecords
  refine (bind_of_ok (onConsole_run installed)).trans ?_
  refine (bind_of_ok rfl).trans ?_
  refine (bind_of_ok (get_run _)).trans ?_
  cases image.layout.validate with
  | ok _ => simp [initialised, Board.said]
  | error e => simp [initialised, Board.said]

end Image

/-- Early initialisation sends its records to the port that it installs, as far as the image logs them. -/
theorem runEarlyInit_sends (image : Image) {b : Board} (free : b.console.locked = false) : image.runEarlyInit b =
    .ok () ((image.initialised b).logged (image.initRecords (b.csr .mhartid) b.position)) := by
  have placed : ∀ r ∈ image.initRecords (b.csr .mhartid) b.position, r.position = b.position := by
    intro r member
    rw [Image.initRecords, Image.layoutRecords, List.mem_append] at member
    rcases member with info | check
    · simp only [List.mem_cons, List.not_mem_nil, or_false] at info
      rcases info with rfl | rfl | rfl | rfl | rfl | rfl <;> rfl
    · cases valid : image.layout.validate with
      | ok _ =>
        rw [valid] at check
        exact absurd check List.not_mem_nil
      | error e =>
        rw [valid] at check
        rw [List.mem_singleton.mp check]
  rw [image.runEarlyInit_eq free]
  exact logs_send (b := image.initialised b) rfl ⟨"", b.console.sinks, rfl⟩ placed

/-! ### The descent -/

/-- What entering the routine of a transition adds to the events. -/
def entryEvents (t : Transition) : List Event :=
  ((t.writes.flatMap registerImage).map fun w => .csr w.1 w.2) ++ [.mret t.entry t.status.bits t.interruptEnable.bits]

/-- What the descent logs when it goes into the routine of a transition. -/
def entryRecords (announcement : String) (t : Transition) (hart : Word) (position : Log.Position) : List Log.Record :=
  [hartRecord hart position .debug announcement,
    hartRecord hart position .trace ("mret to " ++ hex t.entry ++ " in " ++ inspect t.mode ++ " mode")]

section
variable (run : Word → BoardM Unit) {b : Board} {t : Transition} (fits : ∀ value ∈ t.writes, Fits value)
  (announcement : String) (next : BoardM (Flow Empty))

include fits

/-- While logging is off a routine is entered without a word. -/
theorem runThrough_silent (off : b.filter = .off) : Boot.runThrough (opsWith run) announcement t next b =
    ((run t.entry >>= fun _ => leave t.entry t.resume) >>= Boot.proceed next) (b.entered t) := by
  have announced : (opsWith run).report .debug announcement b = .ok () b := log_silent off _ _
  have entered := enter_fits run fits (b := b) (c := b.console) (log_silent off _ _)
  unfold Boot.runThrough
  rw [bind_of_ok announced]
  exact bind_of_same entered

/-- A routine that is entered is announced by two records. -/
theorem runThrough_sends (free : b.console.locked = false) (accepts : b.console.Accepts) :
    Boot.runThrough (opsWith run) announcement t next b =
      ((run t.entry >>= fun _ => leave t.entry t.resume) >>= Boot.proceed next)
        ((b.logged (entryRecords announcement t (b.csr .mhartid) b.position)).entered t) := by
  have announced := report_sends free accepts run .debug announcement
  generalize first : hartRecord (b.csr .mhartid) b.position .debug announcement = r at announced
  have entering := report_sends (logged_free free [r]) (accepts.told _) run .trace
    ("mret to " ++ hex t.entry ++ " in " ++ inspect t.mode ++ " mode")
  have entered := enter_fits run fits entering
  unfold Boot.runThrough
  rw [bind_of_ok announced]
  refine (bind_of_same entered).trans ?_
  rw [entryRecords, first]
  exact congrArg (fun told => ((run t.entry >>= fun _ => leave t.entry t.resume) >>= Boot.proceed next)
    (Board.entered told t)) (logged_logged b [r] [_])

end

/-! ### The whole boot -/

/-- A board whose hart is to boot and has just come out of reset: nobody holds the console, and logging is off. The free
    lock and the silent filter are the values that the image gives its console and its logger to begin with. They are
    assumed here and not read off the memory that the reset vector clears, as the console and the filter are no part of
    the memory of a board. -/
structure OutOfReset (b : Board) : Prop where
  elected : IsBootHart (b.csr .mhartid)
  free : b.console.locked = false
  silent : b.filter = .off

/-- What the descent logs when it goes into the main routine. -/
def Image.mainRecords (image : Image) (position : Log.Position) : List Log.Record :=
  entryRecords ("early init done, entering main at " ++ hex image.main) (.main image.layout) Platform.bootHart position

/-- What the boot of an image logs from early initialisation until the main routine is entered. -/
def Image.bootRecords (image : Image) (position : Log.Position) : List Log.Record :=
  image.initRecords Platform.bootHart position ++ image.mainRecords position

/-- What of it is printed. -/
def Image.printed (image : Image) (position : Log.Position) : List Log.Record :=
  (image.bootRecords position).filter fun r => image.filter.admits r.level

/-- A boot from `b` has come back from early initialisation on `back` and goes on to the main routine. -/
structure Initialised (image : Image) (b back : Board) : Prop where
  run : image.code .reset b =
    (Boot.runMain (opsWith image.runRoutine) image.layout >>= fun _ => pure ()) (back.trace (.returned image.earlyInit))
  events : ∃ own, (∀ e ∈ own, e.isReturn = false) ∧
    back.events = b.events ++ own ++ entryEvents (.earlyInit image.layout)
  hart : back.csr .mhartid = Platform.bootHart
  position : back.position = b.position
  filter : back.filter = image.filter
  console : back.console =
    ⟨false, ⟨none, sentText image.filter (image.initRecords Platform.bootHart b.position)⟩ :: b.console.sinks⟩

/-- A boot from `b` enters the main routine on `started`: the run goes on with that routine and parks when it has
    returned, no other routine than early initialisation was entered before, and all that has been printed is what the
    image logs until then. -/
structure ReachesMain (image : Image) (b started : Board) : Prop where
  run : image.code .reset b =
    (do image.runRoutine image.main; record (.returned image.main); park : BoardM Unit) started
  events : ∃ own, (∀ e ∈ own, e.isReturn = false) ∧ started.events = b.events ++ own ++
    entryEvents (.earlyInit image.layout) ++ [.returned image.earlyInit] ++ entryEvents (.main image.layout)
  console : started.console =
    ⟨false, ⟨none, String.join ((image.printed b.position).map Log.Record.text)⟩ :: b.console.sinks⟩

theorem park_bind {α β : Type} (f : α → BoardM β) : (park >>= f : BoardM β) = park := by
  funext b
  rw [bind_of_error (park_run b), park_run]

theorem events_entryEvents (b : Board) (t : Transition) : (b.entered t).events = b.events ++ entryEvents t := by
  rw [b.events_entered t, entryEvents, List.append_assoc]

theorem earlyInit_fits {l : Layout} (aligned : l.trapVector.IsAligned) :
    ∀ value ∈ (Transition.earlyInit l).writes, Fits value := by
  have known : Transition.earlyInitStatus.flags.unnamed = 0 := by decide
  refine writes_fit known ?_
  intro v vector
  cases vector
  exact aligned

theorem main_fits (l : Layout) : ∀ value ∈ (Transition.main l).writes, Fits value := by
  have known : Transition.mainStatus.flags.unnamed = 0 := by decide
  refine writes_fit known ?_
  intro v vector
  cases vector

section
variable {image : Image} {b : Board}

/-- A descent that begins while logging is off goes through early initialisation and on to the main routine. -/
theorem bootDescend_initialises (aligned : image.layout.trapVector.IsAligned) (free : b.console.locked = false)
    (silent : b.filter = .off) : image.bootDescend b =
      (Boot.runMain (opsWith image.runRoutine) image.layout >>= fun _ => pure ())
        (((image.initialised (b.entered (.earlyInit image.layout))).logged
          (image.initRecords (b.csr .mhartid) b.position)).trace (.returned image.earlyInit)) := by
  have entering := runThrough_silent image.runRoutine (earlyInit_fits aligned)
    ("entering early init at " ++ hex image.earlyInit) (Boot.runMain (opsWith image.runRoutine) image.layout) silent
  have console := (b.prepared_state (.earlyInit image.layout)).2.2.2.1
  have ran := runEarlyInit_sends image (b := b.entered (.earlyInit image.layout))
    ((congrArg Console.locked console).trans free)
  have routine : image.runRoutine image.earlyInit = image.runEarlyInit := if_pos rfl
  unfold Image.bootDescend
  rw [Boot.descend_awaiting]
  refine bind_of_same (entering.trans ?_)
  refine bind_of_ok (a := Flow.onward) ?_
  have entry : (Transition.earlyInit image.layout).entry = image.earlyInit := rfl
  rw [entry, routine, bind_of_ok ran]
  exact leave_caller image.earlyInit _

theorem boot_initialises (out : OutOfReset b) (clearable : image.layout.bss.Clearable)
    (aligned : image.layout.trapVector.IsAligned) : ∃ back, Initialised image b back := by
  obtain ⟨ready, left, quiet⟩ := resetVector_descends image out.elected clearable
  have free : ready.console.locked = false := (congrArg Console.locked quiet.console).trans out.free
  have descent := bootDescend_initialises aligned free (quiet.filter.trans out.silent)
  have elected : ready.csr .mhartid = Platform.bootHart := quiet.hart.trans out.elected
  rw [elected, quiet.position] at descent
  refine ⟨_, (bind_of_ok left).trans descent, ?_, elected, quiet.position, rfl, ?_⟩
  · obtain ⟨own, made, plain⟩ := quiet.events
    refine ⟨own, plain, ?_⟩
    rw [← made]
    exact events_entryEvents ready (.earlyInit image.layout)
  · have console := (ready.prepared_state (.earlyInit image.layout)).2.2.2.1.trans quiet.console
    have sinks : (image.initialised (ready.entered (.earlyInit image.layout))).console =
        ⟨false, ⟨none, ""⟩ :: b.console.sinks⟩ := by rw [← console]; rfl
    rw [Board.logged, Board.said, sinks, Console.told]
    simp only [String.empty_append]
    rfl

/-- The main routine is announced and entered when early initialisation has come back. -/
theorem Initialised.reachesMain {back : Board} (initialised : Initialised image b back) :
    ∃ started, ReachesMain image b started := by
  obtain ⟨run, ⟨own, plain, events⟩, hart, position, filter, console⟩ := initialised
  have free : (back.trace (.returned image.earlyInit)).console.locked = false := congrArg Console.locked console
  have accepts : (back.trace (.returned image.earlyInit)).console.Accepts := ⟨_, _, congrArg Console.sinks console⟩
  have entering := runThrough_sends image.runRoutine (main_fits image.layout)
    ("early init done, entering main at " ++ hex image.main) (opsWith image.runRoutine).idle free accepts
  have number : (back.trace (.returned image.earlyInit)).csr .mhartid = Platform.bootHart := hart
  have placed : (back.trace (.returned image.earlyInit)).position = b.position := position
  rw [number, placed] at entering
  refine ⟨((back.trace (.returned image.earlyInit)).logged (image.mainRecords b.position)).entered
    (.main image.layout), ?_, ?_, ?_⟩
  · rw [run]
    refine (bind_of_same entering).trans ?_
    have parks : leave image.main .idle = record (.returned image.main) >>= fun _ => park := rfl
    have resume : (Transition.main image.layout).resume = .idle := rfl
    have entry : (Transition.main image.layout).entry = image.main := rfl
    rw [resume, entry, parks]
    simp only [bind_assoc, park_bind]
    rfl
  · refine ⟨own, plain, ?_⟩
    have made : (back.trace (.returned image.earlyInit)).events = back.events ++ [.returned image.earlyInit] :=
      Board.events_trace _ _
    rw [events_entryEvents, ← events, ← made]
    rfl
  · have same : (((back.trace (.returned image.earlyInit)).logged (image.mainRecords b.position)).entered
        (.main image.layout)).console = ((back.trace (.returned image.earlyInit)).logged
          (image.mainRecords b.position)).console := (Board.prepared_state _ (.main image.layout)).2.2.2.1
    have text := sentText_append image.filter (image.initRecords Platform.bootHart b.position)
      (image.mainRecords b.position)
    calc _ = back.console.told (sentText back.filter (image.mainRecords b.position)) := same
      _ = ⟨false, ⟨none, sentText image.filter (image.bootRecords b.position)⟩ :: b.console.sinks⟩ := by
        rw [console, filter, Image.bootRecords, text]
        rfl

theorem boot_reaches_main (out : OutOfReset b) (clearable : image.layout.bss.Clearable)
    (aligned : image.layout.trapVector.IsAligned) : ∃ started, ReachesMain image b started := by
  obtain ⟨back, initialised⟩ := boot_initialises out clearable aligned
  exact initialised.reachesMain

/-- The entry of early initialisation gets no further than to a trap vector that is not aligned. -/
theorem enter_misaligned (run : Word → BoardM Unit) {l : Layout} (misaligned : ¬ l.trapVector.IsAligned)
    (silent : b.filter = .off) : (opsWith run).enter (.earlyInit l) b =
      .error (.fault (.misalignedTrapVector l.trapVector.address))
        ((b.written (.status Transition.earlyInitStatus)).written (.epc l.earlyInit)) := by
  have known : Transition.earlyInitStatus.flags.unnamed = 0 := by decide
  have status : Fits (.status Transition.earlyInitStatus) := known
  have epc : Fits (.epc l.earlyInit) := trivial
  have refused : writeRegister (.trapVector l.trapVector) =
      throw (.fault (.misalignedTrapVector l.trapVector.address)) := by
    have fails : encode (.trapVector l.trapVector) = .error (.misalignedTrapVector l.trapVector.address) :=
      if_neg misaligned
    unfold writeRegister
    rw [fails]
  have told : (opsWith run).report .trace ("mret to " ++ hex (Transition.earlyInit l).entry ++ " in " ++
      inspect (Transition.earlyInit l).mode ++ " mode") b = .ok () b := log_silent silent _ _
  have writes : (Transition.earlyInit l).writes.forM (opsWith run).write =
      writeRegister (.status Transition.earlyInitStatus) >>= fun _ => writeRegister (.epc l.earlyInit) >>=
        fun _ => writeRegister (.trapVector l.trapVector) >>=
          fun _ => [RegisterWrite.interruptEnable .empty].forM writeRegister := rfl
  unfold HartOps.enter
  rw [bind_of_ok told, writes]
  refine bind_of_error ?_
  rw [bind_of_ok (write_fits status b), bind_of_ok (write_fits epc _), refused]
  rfl

/-- On a board whose trap vector does not fit the boot ends before any routine is entered, and nothing is printed. -/
theorem boot_stops (out : OutOfReset b) (clearable : image.layout.bss.Clearable)
    (misaligned : ¬ image.layout.trapVector.IsAligned) : ∃ after,
      image.code .reset b = .error (.fault (.misalignedTrapVector image.trapVector)) after ∧ Quiet b after := by
  obtain ⟨ready, left, quiet⟩ := resetVector_descends image out.elected clearable
  have silent : ready.filter = .off := quiet.filter.trans out.silent
  have announced : (opsWith image.runRoutine).report .debug ("entering early init at " ++ hex image.earlyInit) ready =
      .ok () ready := log_silent silent _ _
  have refused := enter_misaligned (b := ready) image.runRoutine misaligned silent
  have status : Quiet ready (ready.written (.status Transition.earlyInitStatus)) :=
    quiet_written ready (w := (.mstatus, _)) nofun
  have epc : Quiet _ ((ready.written (.status Transition.earlyInitStatus)).written (.epc image.earlyInit)) :=
    quiet_written _ (w := (.mepc, _)) nofun
  refine ⟨_, ?_, (quiet.trans status).trans epc⟩
  refine (bind_of_ok left).trans ?_
  unfold Image.bootDescend
  rw [Boot.descend_awaiting]
  exact bind_of_error (Boot.runThrough_faulted announced refused)

end

/-- Among what is printed before the main routine the report of an error of the layout tells which error the check of
    the layout finds. -/
theorem reported_iff {image : Image} (admits : image.filter.admits .error = true) (position : Log.Position)
    (e : LayoutError) :
    ⟨.error, "boot layout: " ++ e.message, position⟩ ∈ image.printed position ↔ image.layout.validate = .error e := by
  -- All other records are of lower levels.
  have only : ∀ r : Log.Record, r.level = .error →
      (r ∈ image.bootRecords position ↔ r ∈ image.layoutRecords position) := by
    rintro ⟨level, message, position⟩ rfl
    simp [Image.bootRecords, Image.initRecords, Image.mainRecords, entryRecords, hartRecord]
  rw [Image.printed, List.mem_filter, only _ rfl, and_iff_left admits, Image.layoutRecords]
  cases image.layout.validate with
  | ok _ => simp
  | error found =>
    rw [List.mem_singleton, Log.Record.mk.injEq, String.append_right_inj]
    constructor
    · rintro ⟨_, same, _⟩
      rw [LayoutError.message_injective same]
    · intro same
      cases same
      exact ⟨rfl, rfl, rfl⟩

/-- The boot of the boot hart, out of reset, in an image that logs errors and has a region to clear that starts and
    ends at a word. If its trap vector is aligned it reaches the main routine, and until then an error of the layout
    has been reported exactly if the check of the layout finds it. If not, it reaches no routine and prints nothing,
    although the check finds an error. -/
theorem boot_reports (image : Image) {b : Board} (out : OutOfReset b)
    (start : Aligned Platform.clearStep image.layout.bss.start)
    (stop : Aligned Platform.clearStep image.layout.bss.stop) (admits : image.filter.admits .error = true) :
    if image.layout.trapVector.IsAligned then
      ∃ started, ReachesMain image b started ∧ ∀ e,
        (⟨.error, "boot layout: " ++ e.message, b.position⟩ : Log.Record) ∈ image.printed b.position ↔
          image.layout.validate = .error e
    else
      (∃ after, image.code .reset b = .error (.fault (.misalignedTrapVector image.trapVector)) after ∧ Quiet b after) ∧
        ∃ e, image.layout.validate = .error e := by
  have clearable : image.layout.bss.Clearable := BssRegion.aligned_clearable start stop
  by_cases aligned : image.layout.trapVector.IsAligned
  · rw [if_pos aligned]
    obtain ⟨started, reaches⟩ := boot_reaches_main out clearable aligned
    exact ⟨started, reaches, reported_iff admits b.position⟩
  · rw [if_neg aligned]
    refine ⟨boot_stops out clearable aligned, ?_⟩
    cases valid : image.layout.validate with
    | ok _ => exact absurd (Layout.validate_eq_ok.mp valid).2.2 aligned
    | error e => exact ⟨e, rfl⟩

/-- A board whose boot hart has just come out of reset. -/
def freshBoard : Board := .atReset Platform.bootHart 4 ⟨none, none⟩

theorem freshBoard_outOfReset : OutOfReset freshBoard := ⟨rfl, rfl, rfl⟩

/-- An image whose stack ends in the memory to clear. -/
def overlappingImage : Image :=
  { smallImage with symbols := fun s => if s = .stackEnd then 0x2008 else smallImage.symbols s, filter := .upTo .error }

theorem boot_reports_overlapping :
    (OutOfReset freshBoard ∧ Aligned Platform.clearStep overlappingImage.layout.bss.start ∧
      Aligned Platform.clearStep overlappingImage.layout.bss.stop ∧ overlappingImage.filter.admits .error = true) ∧
      ∃ started, ReachesMain overlappingImage freshBoard started ∧
        ⟨.error, "boot layout: " ++ LayoutError.message (.stackInsideBss 0x2008), ⟨none, none⟩⟩ ∈
          overlappingImage.printed ⟨none, none⟩ := by
  have boots := boot_reports overlappingImage freshBoard_outOfReset rfl rfl rfl
  have aligned : overlappingImage.layout.trapVector.IsAligned := rfl
  rw [if_pos aligned] at boots
  obtain ⟨started, reaches, told⟩ := boots
  exact ⟨⟨freshBoard_outOfReset, rfl, rfl, rfl⟩, started, reaches, (told (.stackInsideBss 0x2008)).mpr rfl⟩

/-- An image whose trap vector is not aligned. -/
def crookedImage : Image := { smallImage with trapVector := 0x302, filter := .upTo .error }

/-- The error in the layout of that image is never reported, and no routine of it is reached. -/
theorem crookedImage_unreported :
    (OutOfReset freshBoard ∧ Aligned Platform.clearStep crookedImage.layout.bss.start ∧
      Aligned Platform.clearStep crookedImage.layout.bss.stop ∧ crookedImage.filter.admits .error = true) ∧
      crookedImage.layout.validate = .error (.misaligned "trap vector" 0x302) ∧
      ∃ after, crookedImage.code .reset freshBoard = .error (.fault (.misalignedTrapVector 0x302)) after ∧
        after.console = freshBoard.console ∧ ∀ e ∈ after.events, e.isReturn = false := by
  have clearable : crookedImage.layout.bss.Clearable := BssRegion.aligned_clearable rfl rfl
  have crooked : ¬ crookedImage.layout.trapVector.IsAligned := by decide
  obtain ⟨after, stopped, quiet⟩ := boot_stops freshBoard_outOfReset clearable crooked
  obtain ⟨own, events, plain⟩ := quiet.events
  refine ⟨⟨freshBoard_outOfReset, rfl, rfl, rfl⟩, rfl, after, stopped, quiet.console, ?_⟩
  rw [events]
  exact plain

end HartBoot.Machine
