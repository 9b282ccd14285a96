import HartBoot.Proofs.Machine.Records
import HartBoot.Proofs.Machine.ResetVector

/-!
The report of a trap that nothing handles. The handler takes the console back, so it reports the trap also where a print
was interrupted: it sends a newline if the console is held, then one record, and from then on the hart only waits
(`runHandler_reports`). While a script runs the console is held exactly where a print is struck (`freshLine_taken`). The
code at the trap vector hands the cause, the address and the value of the trap to the handler unchanged
(`trap_handled`). Together with the texts of scripts this is everything that the console shows of a trap (`trap_text`).
-/
namespace HartBoot.Machine

/-- The record that the handler of a trap logs. -/
def trapRecord (b : Board) (cause epc value : Word) : Log.Record :=
  ⟨.error, Image.trapReport cause epc value, b.position⟩

/-- A board whose hart has taken a trap and left the code at the trap vector for the handler. -/
def Board.trapped (b : Board) (cause epc value : Word) : Board :=
  (((b.setCsr .mcause cause).setCsr .mepc epc).setCsr .mtval value).trace
    (.tail .handler ([(Register.a0, cause), (.a1, epc), (.a2, value)].filter fun x => x.2 != 0))

/-- A run from `b` sent `text`, and after that it did nothing but wait for interrupts until its budget was used up. -/
def SendsAndParks {α : Type} (text : String) (b : Board) (result : EStateM.Result Stop Board α) : Prop :=
  ∃ c : Console, c.text = b.console.text ++ text ∧ c.locked = false ∧
    result = .error (.ended .parked) ((b.said c).waitedFor (max 1 b.wfiBudget))

/-- What the handler of a trap sends before its report: a newline if it finds the console held. -/
def freshLine (c : Console) : String := if c.locked then "\n" else ""

section
variable {α : Type} {b : Board}

theorem reclaim_freshLine {c : Console} (accepts : c.Accepts) :
    c.reclaimWith ["\n"] = some (c.unlock.told (freshLine c), c.locked) :=
  Console.reclaimWith_accepts accepts ["\n"]

/-- A trap that is taken at some moment of a script finds the console held, and makes the handler start a fresh line,
    exactly if it strikes a print. -/
theorem freshLine_taken {notice : List String} {c there : Console} {script : List Console.Step}
    {struck : Option (List String)} (taken : Console.Taken notice c script there struck) (free : c.locked = false) :
    freshLine there = if struck.isSome then "\n" else "" := by
  rw [freshLine, Console.taken_locked taken free]

/-- The handler starts a fresh line exactly if the console is held; then it reports the trap and parks. -/
theorem runHandler_reports (accepts : b.console.Accepts) (admits : b.filter.admits .error = true)
    (cause epc value : Word) : SendsAndParks (freshLine b.console ++ (trapRecord b cause epc value).text) b
      (Image.runHandler cause epc value b : EStateM.Result Stop Board α) := by
  have taking : b.console.unlock.Accepts := accepts
  have free : (b.console.unlock.told (freshLine b.console)).locked = false := Console.locked_told _ _
  have logged := log_sends (b := b.said (b.console.unlock.told (freshLine b.console))) free (taking.told _) .error
    (Image.trapReport cause epc value)
  have sent : sentText b.filter [trapRecord b cause epc value] = (trapRecord b cause epc value).text :=
    sentText_admitted admits
  refine ⟨b.console.unlock.told (freshLine b.console ++ (trapRecord b cause epc value).text), taking.text_told _,
    Console.locked_told _ _, ?_⟩
  unfold Image.runHandler
  rw [bind_of_ok (onConsole_run (reclaim_freshLine accepts)), bind_of_ok logged, park_run, ← Console.told_told, ← sent]
  rfl

/-- The code at the trap vector hands the registers of the trap over to the handler. -/
theorem trap_handled (image : Image) (cause epc value : Word) (vectored : b.csr .mtvec = image.trapVector) :
    (image.trap cause epc value b : EStateM.Result Stop Board α) =
      Image.runHandler cause epc value (b.trapped cause epc value) := by
  have still : (((b.setCsr .mcause cause).setCsr .mepc epc).setCsr .mtval value).csr .mtvec = image.trapVector :=
    vectored
  have entered : runCode image.symbols trapCode trapCode.length
      (((b.setCsr .mcause cause).setCsr .mepc epc).setCsr .mtval value) =
        .ok (.handler, ((RegisterFile.initial.set .a0 cause).set .a1 epc).set .a2 value) (b.trapped cause epc value) :=
    rfl
  unfold Image.trap
  refine (bind_of_ok rfl).trans ?_
  rw [bind_of_ok (get_run _), if_pos still, bind_of_ok entered]
  rfl

theorem trap_reports (image : Image) (accepts : b.console.Accepts) (admits : b.filter.admits .error = true)
    (vectored : b.csr .mtvec = image.trapVector) (cause epc value : Word) :
    SendsAndParks (freshLine b.console ++ (trapRecord b cause epc value).text) (b.trapped cause epc value)
      (image.trap cause epc value b : EStateM.Result Stop Board α) := by
  rw [trap_handled image cause epc value vectored]
  exact runHandler_reports (b := b.trapped cause epc value) accepts admits cause epc value

/-- At whatever moment of a script a trap is taken, a newline comes before its report exactly if it strikes a print. -/
theorem taken_reports {notice : List String} {c : Console} {script : List Console.Step} {struck : Option (List String)}
    (taken : Console.Taken notice c script b.console struck) (free : c.locked = false)
    (accepts : b.console.Accepts) (admits : b.filter.admits .error = true) (image : Image)
    (vectored : b.csr .mtvec = image.trapVector) (cause epc value : Word) :
    SendsAndParks ((if struck.isSome then "\n" else "") ++ (trapRecord b cause epc value).text)
      (b.trapped cause epc value) (image.trap cause epc value b : EStateM.Result Stop Board α) := by
  rw [← freshLine_taken taken free]
  exact trap_reports image accepts admits vectored cause epc value

/-- A print that is struck by a trap has sent its pieces and holds the console when the trap is taken. -/
theorem interruptedPrint_reports (image : Image) (free : b.console.locked = false) (accepts : b.console.Accepts)
    (admits : b.filter.admits .error = true) (vectored : b.csr .mtvec = image.trapVector) (pieces : List String)
    (cause epc value : Word) :
    SendsAndParks (String.join pieces ++ "\n" ++ (trapRecord b cause epc value).text) (b.trapped cause epc value)
      (image.runInterruptedPrint pieces cause epc value b) := by
  have holds := Console.hold_accepts free accepts pieces
  have struck : image.runInterruptedPrint pieces cause epc value b =
      image.trap cause epc value (b.said (b.console.told (String.join pieces)).busy) :=
    bind_of_ok (onConsole_run holds)
  obtain ⟨c, text, left, ended⟩ := trap_reports (α := Unit) (b := b.said (b.console.told (String.join pieces)).busy)
    image (accepts.told (String.join pieces)) admits vectored cause epc value
  have written : (b.console.told (String.join pieces)).busy.text = b.console.text ++ String.join pieces :=
    accepts.text_told _
  refine ⟨c, ?_, left, struck.trans ended⟩
  calc c.text
    _ = (b.console.told (String.join pieces)).busy.text ++ ("\n" ++ (trapRecord b cause epc value).text) := text
    _ = b.console.text ++ (String.join pieces ++ "\n" ++ (trapRecord b cause epc value).text) := by
      rw [written]
      simp only [String.append_assoc]

end

/-- What a console shows that takes everything. A script sends the texts of its steps in order, if nobody holds the
    console: of each print its pieces, with the color around them if it has one, and of each trap the pieces of the
    print that it struck, one newline and the text of its handler; a reclaim that interrupts nothing and the
    installation of a port send nothing. And when records of errors are admitted, a trap that the handler of the image
    reports adds a newline exactly if a print was interrupted, then one whole record, and the hart only parks. -/
theorem trap_text {c : Console} (accepts : c.Accepts) :
    (c.locked = false → ∀ script, Console.AllUnbounded script →
      Console.EndsSending (Console.sentAll ["\n"] script) c (Console.performAll ["\n"] c script)) ∧
    ∀ b : Board, b.console = c → b.filter.admits .error = true → ∀ cause epc value,
      SendsAndParks (freshLine c ++ (trapRecord b cause epc value).text) b
        (Image.runHandler cause epc value b : EStateM.Result Stop Board Unit) ∧
      ∀ image : Image, b.csr .mtvec = image.trapVector →
        SendsAndParks (freshLine c ++ (trapRecord b cause epc value).text) (b.trapped cause epc value)
          (image.trap cause epc value b : EStateM.Result Stop Board Unit) ∧
        (c.locked = false → ∀ pieces,
          SendsAndParks (String.join pieces ++ "\n" ++ (trapRecord b cause epc value).text) (b.trapped cause epc value)
            (image.runInterruptedPrint pieces cause epc value b)) := by
  refine ⟨fun free script unbounded => Console.performAll_sends ["\n"] free accepts script unbounded, ?_⟩
  rintro b rfl admits cause epc value
  refine ⟨runHandler_reports accepts admits cause epc value, ?_⟩
  intro image vectored
  refine ⟨trap_reports image accepts admits vectored cause epc value, ?_⟩
  intro free pieces
  exact interruptedPrint_reports image free accepts admits vectored pieces cause epc value

/-- A print that is struck, whose handler installs a port, is struck itself and reclaims a console that nobody holds. -/
def tellingScript : List Console.Step :=
  [.print ["a", "b"], .trap ["c"] [.install none, .trap ["d"] [.printInColor 31 ["e"]], .reclaim], .reclaim]

/-- A board out of reset whose traps lead to the trap vector of an image and that logs errors. -/
def tellingBoard : Board :=
  { (Board.atReset Platform.bootHart 2 ⟨none, none⟩).setCsr .mtvec smallImage.trapVector with filter := .upTo .error }

theorem trap_text_telling :
    (tellingBoard.console.Accepts ∧ Console.AllUnbounded tellingScript ∧ tellingBoard.filter.admits .error = true ∧
      tellingBoard.csr .mtvec = smallImage.trapVector) ∧
    Console.sentAll ["\n"] tellingScript = "abc\nd\n\x1b[31me\x1b[0m" ∧
    Console.EndsSending (Console.sentAll ["\n"] tellingScript) tellingBoard.console
      (Console.performAll ["\n"] tellingBoard.console tellingScript) ∧
    SendsAndParks (String.join ["a", "b"] ++ "\n" ++ (trapRecord tellingBoard 2 0x80 0).text)
      (tellingBoard.trapped 2 0x80 0) (smallImage.runInterruptedPrint ["a", "b"] 2 0x80 0 tellingBoard) := by
  have accepts : tellingBoard.console.Accepts := ⟨"", [], rfl⟩
  have unbounded : Console.AllUnbounded tellingScript :=
    ⟨trivial, ⟨rfl, ⟨trivial, trivial⟩, trivial, trivial⟩, trivial, trivial⟩
  obtain ⟨sends, reports⟩ := trap_text accepts
  have handled := (reports tellingBoard rfl rfl 2 0x80 0).2 smallImage rfl
  exact ⟨⟨accepts, unbounded, rfl, rfl⟩, by decide, sends rfl tellingScript unbounded, handled.2 rfl ["a", "b"]⟩

end HartBoot.Machine
