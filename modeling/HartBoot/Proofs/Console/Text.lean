import HartBoot.Proofs.Console.Lock

/-!
What is sent to a console whose port takes everything. There a print adds its pieces to the text and a reclaim that
takes the lock back adds its notice, and neither changes anything else (`hold_accepts`, `print_accepts`,
`reclaimWith_accepts`). So the text of a script is put together from its steps in order, and each trap in it adds
the pieces of the print that it struck, one notice and the text of its handler, however deep handlers are struck
themselves (`performAll_sends`).
-/
namespace HartBoot.Console

/-- The port in use takes whatever is written to it. -/
def Accepts (c : Console) : Prop := ∃ received older, c.sinks = ⟨none, received⟩ :: older

/-- A console after more text has gone to the port in use. -/
def told (c : Console) (more : String) : Console :=
  match c.sinks with
  | [] => c
  | sink :: older => { c with sinks := { sink with received := sink.received ++ more } :: older }

/-- A console whose lock is held. -/
def busy (c : Console) : Console := { c with locked := true }

section
variable {c : Console}

theorem told_empty (c : Console) : c.told "" = c := by
  obtain ⟨locked, sinks⟩ := c
  cases sinks <;> simp [told]

theorem told_told (c : Console) (first second : String) : (c.told first).told second = c.told (first ++ second) := by
  obtain ⟨locked, sinks⟩ := c
  cases sinks <;> simp [told, String.append_assoc]

@[simp] theorem locked_told (c : Console) (more : String) : (c.told more).locked = c.locked := by
  obtain ⟨locked, sinks⟩ := c
  cases sinks <;> rfl

/-- Whoever held it, a console that was free before is as it was. -/
theorem unlock_busy (free : c.locked = false) : c.busy.unlock = c := by
  obtain ⟨locked, sinks⟩ := c
  cases free
  rfl

theorem unlock_free (free : c.locked = false) : c.unlock = c := by
  obtain ⟨locked, sinks⟩ := c
  cases free
  rfl

theorem Accepts.told (accepts : c.Accepts) (more : String) : (c.told more).Accepts := by
  obtain ⟨received, older, sinks⟩ := accepts
  exact ⟨received ++ more, older, by simp [Console.told, sinks]⟩

theorem Accepts.text_told (accepts : c.Accepts) (more : String) : (c.told more).text = c.text ++ more := by
  obtain ⟨received, older, sinks⟩ := accepts
  simp [Console.told, text, Console.received, sinks, String.append_assoc]

/-- A port that takes everything takes all the pieces of a print. -/
theorem writeAll_unbounded (received : String) (pieces : List String) :
    Sink.writeAll ⟨none, received⟩ pieces = (⟨none, received ++ String.join pieces⟩, true) := by
  induction pieces generalizing received with
  | nil => simp [Sink.writeAll]
  | cons piece pieces ih => simp [Sink.writeAll, Sink.write, ih, String.append_assoc]

/-! ### The operations -/

theorem hold_accepts (free : c.locked = false) (accepts : c.Accepts) (pieces : List String) :
    c.hold pieces = some ((c.told (String.join pieces)).busy, true) := by
  obtain ⟨received, older, sinks⟩ := accepts
  unfold hold
  rw [lock_free free]
  simp [sinks, writeAll_unbounded, told, busy]

theorem print_accepts (free : c.locked = false) (accepts : c.Accepts) (pieces : List String) :
    c.print pieces = some (c.told (String.join pieces)) := by
  have left : (c.told (String.join pieces)).busy.unlock = c.told (String.join pieces) :=
    unlock_busy (by rw [locked_told, free])
  simp [print, hold_accepts free accepts, left]

/-- A reclaim frees the lock, and sends its notice exactly if it was held. -/
theorem reclaimWith_accepts (accepts : c.Accepts) (notice : List String) :
    c.reclaimWith notice = some (c.unlock.told (if c.locked then String.join notice else ""), c.locked) := by
  by_cases held : c.locked = true
  · have printed : c.unlock.print notice = some (c.unlock.told (String.join notice)) :=
      print_accepts (c := c.unlock) rfl accepts notice
    simp [reclaimWith, reclaim, held, printed]
  · have free : c.locked = false := Bool.eq_false_iff.mpr held
    simp [reclaim_free free, free, unlock_free free, told_empty]

/-- A print that is struck has sent its pieces, and its handler sends the notice before anything else. -/
theorem struck_accepts (free : c.locked = false) (accepts : c.Accepts) (pieces notice : List String) :
    ∃ held, c.hold pieces = some (held, true) ∧
      held.reclaimWith notice = some (c.told (String.join pieces ++ String.join notice), true) := by
  have left : (c.told (String.join pieces)).busy.unlock = c.told (String.join pieces) :=
    unlock_busy (by rw [locked_told, free])
  have taken : (c.told (String.join pieces)).busy.Accepts := accepts.told (String.join pieces)
  have held : (c.told (String.join pieces)).busy.locked = true := rfl
  refine ⟨_, hold_accepts free accepts pieces, ?_⟩
  rw [reclaimWith_accepts taken, left, held, if_pos rfl, told_told]

end

/-! ### Steps and scripts -/

mutual

/-- The text that a step sends when ports take everything. -/
def Step.sent (notice : List String) : Step → String
  | .install _ => ""
  | .print pieces => String.join pieces
  | .printInColor color pieces => Log.colorStart color ++ String.join pieces ++ Log.colorEnd
  | .reclaim => ""
  | .strike _ pieces handler => String.join pieces ++ String.join notice ++ sentAll notice handler

/-- The text that steps send one after the other. -/
def sentAll (notice : List String) : List Step → String
  | [] => ""
  | step :: steps => step.sent notice ++ sentAll notice steps

end

mutual

/-- All the ports that a step installs take everything. -/
def Step.Unbounded : Step → Prop
  | .install room => room = none
  | .print _ => True
  | .printInColor _ _ => True
  | .reclaim => True
  | .strike _ _ handler => AllUnbounded handler

def AllUnbounded : List Step → Prop
  | [] => True
  | step :: steps => step.Unbounded ∧ AllUnbounded steps

end

/-- A run from `c` came to its end with the lock free and a port that takes everything, and has sent `text`. -/
def EndsSending (text : String) (c : Console) (result : Option (Console × List Item)) : Prop :=
  ∃ after items, result = some (after, items) ∧ after.locked = false ∧ after.Accepts ∧ after.text = c.text ++ text

mutual

theorem perform_sends (notice : List String) {c : Console} (free : c.locked = false) (accepts : c.Accepts) :
    ∀ step : Step, step.Unbounded → EndsSending (step.sent notice) c (perform notice c step)
  | .install room, unbounded => by
    have installed : c.install room = some ⟨false, ⟨room, ""⟩ :: c.sinks⟩ := by
      simp [install, lock_free free, unlock]
    refine ⟨⟨false, ⟨room, ""⟩ :: c.sinks⟩, [⟨.installed, _⟩], by simp [perform, installed]; rfl, rfl, ?_, ?_⟩
    · rw [Step.Unbounded] at unbounded
      exact ⟨"", c.sinks, by rw [unbounded]⟩
    · simp [Step.sent, text, received]
  | .print pieces, _ => by
    have printed := print_accepts free accepts pieces
    refine ⟨c.told (String.join pieces), [⟨.printed, _⟩], by simp [perform, printed]; rfl, ?_, accepts.told _, ?_⟩
    · rw [locked_told, free]
    · rw [accepts.text_told, Step.sent]
  | .printInColor color pieces, _ => by
    have printed := print_accepts free accepts (Log.inColor color pieces)
    refine ⟨c.told (String.join (Log.inColor color pieces)), [⟨.printedInColor, _⟩], by simp [perform, printed]; rfl,
      ?_, accepts.told _, ?_⟩
    · rw [locked_told, free]
    · rw [accepts.text_told, Step.sent, Log.join_inColor]
  | .reclaim, _ => by
    refine ⟨c, [⟨.reclaimed false, c.received⟩], by simp [perform, reclaim_free free], free, accepts, ?_⟩
    rw [Step.sent, String.append_empty]
  | .strike moment pieces handler, unbounded => by
    obtain ⟨held, holds, first⟩ := struck_accepts free accepts pieces notice
    have left : (c.told (String.join pieces ++ String.join notice)).locked = false := by rw [locked_told, free]
    -- The handler runs on a console with a free lock, so its own traps send their notices just once too.
    obtain ⟨after, items, handled, _, still, sent⟩ :=
      performAll_sends notice left (accepts.told _) handler unbounded
    refine ⟨after.unlock, ⟨.handler true, _⟩ :: items ++ [⟨.trapped true, after.unlock.received⟩],
      by simp [perform, holds, first, handled]; rfl, rfl, still, ?_⟩
    have same : after.unlock.text = after.text := rfl
    rw [same, sent, accepts.text_told, Step.sent, String.append_assoc]

theorem performAll_sends (notice : List String) {c : Console} (free : c.locked = false) (accepts : c.Accepts) :
    ∀ steps : List Step, AllUnbounded steps → EndsSending (sentAll notice steps) c (performAll notice c steps)
  | [], _ => ⟨c, [], rfl, free, accepts, by simp [sentAll]⟩
  | step :: steps, unbounded => by
    obtain ⟨next, items, performed, left, taking, sent⟩ := perform_sends notice free accepts step unbounded.1
    obtain ⟨after, rest, followed, ended, still, more⟩ := performAll_sends notice left taking steps unbounded.2
    refine ⟨after, items ++ rest, by simp [performAll, performed, followed], ended, still, ?_⟩
    rw [more, sent, sentAll, String.append_assoc]

end

end HartBoot.Console
