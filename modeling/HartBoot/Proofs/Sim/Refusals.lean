import HartBoot.Proofs.Sim.Depth
import HartBoot.Proofs.Sim.Replay

/-!
When a primitive operation of a simulated hart is refused. What it is refused for is told from the hart before it
(`Hart.refusal?`), a hart that refuses stays as it is, and no other fault comes from the operation itself
(`perform_error_iff`). The status register of a hart never names the reserved level (`reachable_decodes`), so it does
not matter what a return from machine mode does there (`opsElseAt_agree`).
-/
namespace HartBoot.Sim

/-- The operations of a hart that the others are put together from. -/
def Step.IsPrimitive : Step → Prop
  | .write _ => True
  | .setup _ => True
  | .privilegeReturn _ => True
  | .waitForInterrupt => True
  | _ => False

/-- What a hart refuses a primitive operation for, if it does. -/
def Hart.refusal? (h : Hart) : Step → Option Fault
  | .write value =>
    if h.registers.mode = .machine then none
    else some (.illegalAccess h.registers.hartId value.text h.registers.mode)
  | .setup (.zeroWord addr) =>
    if 8 ∣ addr.toNat then none else some (.misalignedStore h.registers.hartId addr)
  | .privilegeReturn _ =>
    if h.registers.mode ≠ .machine then some (.illegalAccess h.registers.hartId "mret" h.registers.mode)
    else if h.registers.epc = none then some (.noReturnAddress h.registers.hartId)
    else none
  | _ => none

/-- The operation lands a hart on a routine, and it is the routine that faults. -/
def FaultsInside (run : Word → HartM Exit) (op : Step) (h : Hart) (fault : Fault) (after : Hart) : Prop :=
  ∃ resume status entry, op = .privilegeReturn resume ∧ Status.ofBits? h.registers.status = some status ∧
    h.registers.epc = some entry ∧ run entry (h.landed resume status entry) = .error fault after

/-! ### The level in the status register -/

/-- The status register of the hart does not name the reserved level. -/
def Decodes (h : Hart) : Prop := ∃ status, Status.ofBits? h.registers.status = some status

section
variable {h after : Hart}

theorem written_decodes (value : RegisterWrite) (decodes : Decodes h) : Decodes (h.written value) := by
  cases value with
  | status value => exact ⟨_, Status.ofBits?_bits value⟩
  | epc entry => exact decodes
  | trapVector vector => exact decodes
  | interruptEnable mask => exact decodes
  | pmp entry => exact decodes

/-- A write encodes its level, whatever flags come with it, and so does a return from machine mode. -/
theorem change_decodes (change : Change h after) (decodes : Decodes h) : Decodes after := by
  cases change with
  | written value machine => exact written_decodes value decodes
  | @setup step fits => cases step <;> exact decodes
  | @landed resume status entry machine decoded target => exact ⟨_, Status.ofBits?_bits status.afterReturn⟩
  | _ => exact decodes

theorem reachable_decodes {id : Word} {routines : RoutineTable} {budget : Nat}
    (path : Reaches (.new id routines budget) h) : Decodes h := by
  have reset : Status.ofBits? 0 = some ⟨.user, .empty⟩ := by decide
  exact path.preserves change_decodes ⟨_, reset⟩

end

/-! ### The reserved level -/

/-- The hart's own part of a return from machine mode, where `reserved` is done at the reserved level. -/
def landElse (reserved : HartM Word) (resume : Resume) : HartM Word := do
  let r := (← get).registers
  if r.mode = .machine ∧ Status.ofBits? r.status = none then reserved else land resume

/-- The operations of a simulated hart that does `reserved` on a return from machine mode at the reserved level. -/
def opsElse (reserved : HartM Word) (run : Word → HartM Exit) : ResetOps Fault Hart HaltReason :=
  { opsWith run with
    privilegeReturn := fun resume => landElse reserved resume >>= fun entry => run entry >>= leave entry resume }

/-- Those operations, when routines nest at most `depth` deep. -/
def opsElseAt (reserved : HartM Word) : Nat → ResetOps Fault Hart HaltReason
  | 0 => opsElse reserved fun _ => pure .returns
  | depth + 1 => opsElse reserved (runAt (opsElseAt reserved depth))

theorem agree_of_moves {α : Type} {x : HartM α} (moves : Moves Reaches x) : AgreeOn Decodes x x :=
  agreeOn_self fun h decodes => (moves h).preserves change_decodes decodes

theorem routine_agree : RoutineRelated (fun {α} => AgreeOn Decodes (α := α)) where
  toCompositional := agreeOn_compositional Decodes
  fill start words value := agree_of_moves (reaches_steady.fill_moves start words value)
  note step answer := agree_of_moves (reaches_steady.script_moves.note step answer)
  unregister entry := agree_of_moves (reaches_steady.routine_moves.unregister entry)
  register routine := agree_of_moves (reaches_steady.routine_moves.register routine)
  noted n := agree_of_moves (reaches_steady.routine_moves.noted n)

theorem land_agree (reserved : HartM Word) (resume : Resume) :
    AgreeOn Decodes (land resume) (landElse reserved resume) := by
  intro h decodes
  have still := (agree_of_moves (reaches_steady.land_moves resume) h decodes).2
  obtain ⟨status, decoded⟩ := decodes
  have never : ¬ (h.registers.mode = .machine ∧ Status.ofBits? h.registers.status = none) := by
    simp [decoded]
  refine ⟨?_, still⟩
  unfold landElse
  rw [bind_of_ok (get_run h), if_neg never]

theorem opsElse_agree (reserved : HartM Word) {run other : Word → HartM Exit}
    (runs : ∀ entry, AgreeOn Decodes (run entry) (other entry)) :
    ResetOps.Related (fun {α} => AgreeOn Decodes (α := α)) (opsWith run) (opsElse reserved other) where
  hartId := rfl
  patience := rfl
  fault := rfl
  report quiet message := agree_of_moves fun h => reaches_steady.reported h quiet message
  write value := agree_of_moves (reaches_steady.write_moves value)
  privilegeReturn resume := by
    have returned : (opsWith run).privilegeReturn resume = _ := privilegeReturn_eq run resume
    rw [returned]
    refine agreeOn_bind (land_agree reserved resume) fun entry => agreeOn_bind (runs entry) fun exit => ?_
    exact agree_of_moves (reaches_steady.leave_moves entry resume exit)
  waitForInterrupt := agree_of_moves reaches_steady.waited
  setup step := agree_of_moves (reaches_steady.setup_moves step)

/-- What is done at the reserved level does not matter, not in any routine either. -/
theorem opsElseAt_agree (reserved : HartM Word) (depth : Nat) :
    ResetOps.Related (fun {α} => AgreeOn Decodes (α := α)) (opsAt depth) (opsElseAt reserved depth) := by
  induction depth with
  | zero => exact opsElse_agree reserved fun _ => agreeOn_self fun _ decodes => decodes
  | succ depth ih => exact opsElse_agree reserved (runAt_related routine_agree ih)

/-! ### What is refused -/

section
variable (run : Word → HartM Exit) {h : Hart}

/-- A step of the setup is refused exactly if its address does not fit. -/
theorem refusal?_setup {step : Setup} : h.refusal? (.setup step) = none ↔ step.Fits := by
  cases step with
  | zeroWord addr => simp [Hart.refusal?, Setup.Fits, Platform.clearStep, Nat.dvd_iff_mod_eq_zero]
  | bareAddressing => exact iff_of_true rfl trivial
  | globalPointer value => exact iff_of_true rfl trivial
  | stackPointer value => exact iff_of_true rfl trivial

theorem leave_onward (entry : Word) (resume : Resume) (exit : Exit) :
    ∃ flow after, leave entry resume exit h = .ok flow after := by
  cases exit with
  | returns => exact ⟨_, _, rfl⟩
  | diverges => exact ⟨_, _, rfl⟩

/-- A return from machine mode that is not refused faults exactly if the routine does. -/
theorem landed_error_iff {resume : Resume} {status : Status} {entry : Word} (machine : h.registers.mode = .machine)
    (decoded : Status.ofBits? h.registers.status = some status) (target : h.registers.epc = some entry) {fault : Fault}
    {after : Hart} :
    privilegeReturn run resume h = .error fault after ↔
      run entry (h.landed resume status entry) = .error fault after := by
  rw [privilegeReturn_eq, bind_of_ok (land_machine h resume machine decoded target), bind_run]
  cases ran : run entry (h.landed resume status entry) with
  | error e last => simp
  | ok exit last =>
    obtain ⟨flow, left, goes⟩ := leave_onward (h := last) entry resume exit
    simp [goes]

theorem privilegeReturn_error_iff (decodes : Decodes h) (resume : Resume) (fault : Fault) (after : Hart) :
    privilegeReturn run resume h = .error fault after ↔
      h.refusal? (.privilegeReturn resume) = some fault ∧ after = h ∨
        h.refusal? (.privilegeReturn resume) = none ∧ FaultsInside run (.privilegeReturn resume) h fault after := by
  obtain ⟨status, decoded⟩ := decodes
  by_cases machine : h.registers.mode = .machine
  · cases target : h.registers.epc with
    | none =>
      have refused : privilegeReturn run resume h = _ :=
        bind_of_error (land_untargeted h resume machine decoded target)
      simp [refused, Hart.refusal?, machine, target, eq_comm]
    | some entry =>
      rw [landed_error_iff run machine decoded target]
      simp [Hart.refusal?, FaultsInside, machine, decoded, target]
  · have refused : privilegeReturn run resume h = _ := bind_of_error (land_refused h resume machine)
    simp [refused, Hart.refusal?, machine, eq_comm]

/-- A primitive operation faults exactly if the hart refuses it, which leaves the hart as it is, or if the routine that
    it lands on does. -/
theorem perform_error_iff (decodes : Decodes h) {op : Step} (primitive : op.IsPrimitive) (fault : Fault)
    (after : Hart) :
    perform (opsWith run) op h = .error fault after ↔
      h.refusal? op = some fault ∧ after = h ∨ h.refusal? op = none ∧ FaultsInside run op h fault after := by
  cases op with
  | write value =>
    by_cases machine : h.registers.mode = .machine
    · have made : perform (opsWith run) (.write value) h = _ := bind_of_ok (write_machine h value machine)
      simp [made, Hart.refusal?, FaultsInside, machine]
    · have refused : perform (opsWith run) (.write value) h = _ := bind_of_error (write_refused h value machine)
      simp [refused, Hart.refusal?, machine, eq_comm]
  | setup step =>
    by_cases fits : step.Fits
    · have made : perform (opsWith run) (.setup step) h = _ := bind_of_ok (setup_fits h fits)
      simp [made, refusal?_setup.mpr fits, FaultsInside]
    · cases step with
      | zeroWord addr =>
        have refused : perform (opsWith run) (.setup (.zeroWord addr)) h = _ :=
          bind_of_error (setup_misaligned h fits)
        have uneven : ¬ 8 ∣ addr.toNat := fun even => fits (Nat.mod_eq_zero_of_dvd even)
        simp [refused, Hart.refusal?, uneven, eq_comm]
      | _ => exact absurd trivial fits
  | privilegeReturn resume =>
    exact map_eq_error_iff.trans (privilegeReturn_error_iff run decodes resume fault after)
  | waitForInterrupt =>
    have made : perform (opsWith run) .waitForInterrupt h = _ := map_of_ok (waitForInterrupt_run h)
    simp [made, Hart.refusal?, FaultsInside]
  | fill | enter | read | stores | boot => cases primitive

end

/-- The register for the address to return to holds something exactly if it was written. -/
theorem epc_eq_none_iff {id : Word} {routines : RoutineTable} {budget : Nat} {h : Hart}
    (path : Reaches (.new id routines budget) h) :
    h.registers.epc = none ↔ ∀ entry, .write (.epc entry) ∉ h.events := by
  have told : h.registers.epc = (h.events.filterMap Event.epc?).getLast? := by
    rw [(reachable_faithful path).registers]
    rfl
  rw [told, List.getLast?_eq_none_iff, List.filterMap_eq_nil_iff]
  constructor
  · intro silent entry member
    cases silent _ member
  · intro unwritten e member
    cases e with
    | write value =>
      cases value with
      | epc entry => exact absurd member (unwritten entry)
      | _ => rfl
    | _ => rfl

/-- A hart that has come about from reset, by scripts or in the middle of one, refuses a primitive operation exactly
    below machine mode, for register writes and returns from machine mode, at addresses that are not multiples of 8, for
    words that are cleared, and while no return address was ever written, for returns from machine mode; and then it
    stays exactly as it is. All other faults of a primitive operation are faults of the routine that it enters. The
    status register always decodes, so that it makes no difference, in nested routines either, what a return from
    machine mode does at the reserved level. -/
theorem refusals_exact {id : Word} {routines : RoutineTable} {budget : Nat} {h : Hart}
    (path : Reaches (.new id routines budget) h) :
    Decodes h ∧
    (h.registers.epc = none ↔ ∀ entry, .write (.epc entry) ∉ h.events) ∧
    (∀ (run : Word → HartM Exit) (op : Step), op.IsPrimitive → ∀ fault after,
      perform (opsWith run) op h = .error fault after ↔
        h.refusal? op = some fault ∧ after = h ∨ h.refusal? op = none ∧ FaultsInside run op h fault after) ∧
    ∀ reserved depth op, perform (opsAt depth) op h = perform (opsElseAt reserved depth) op h := by
  have decodes := reachable_decodes path
  refine ⟨decodes, epc_eq_none_iff path, fun run _ => perform_error_iff run decodes, ?_⟩
  intro reserved depth op
  exact (perform_related routine_agree.toScriptRelated (opsElseAt_agree reserved depth) op h decodes).1

/-- A hart that was told to return to supervisor mode, with all bits of the status set, but not where to. -/
def aimless : Hart :=
  (Hart.new 3 [] 4).after [.setup .bareAddressing, .write (.status ⟨.supervisor, ⟨BitVec.allOnes 64⟩⟩)]

theorem refusals_exact_aimless :
    Decodes aimless ∧
      perform (opsWith fun _ => pure .returns) (.privilegeReturn .idle) aimless = .error (.noReturnAddress 3) aimless ∧
      ∀ depth op, perform (opsAt depth) op aimless =
        perform (opsElseAt (throw .addressOverflow) depth) op aimless := by
  obtain ⟨decodes, _, exactly, unreached⟩ := refusals_exact (h := aimless) (after_reaches (.new 3 [] 4) _)
  refine ⟨decodes, ?_, unreached _⟩
  exact (exactly _ (.privilegeReturn .idle) trivial _ _).mpr (.inl ⟨by decide, rfl⟩)

end HartBoot.Sim
