import HartBoot.Console.Script

/-!
The lock of a console under traps. A step that is started while the lock is free takes it at once whenever it needs it
and leaves it free, also where a sink refuses a piece and however deep traps strike the prints of handlers
(`perform_ends`). In a script on a new console every step is started like that, at the top and in every handler
(`lock_always_free`), so nothing ever waits for the lock. Of all the moments at which a trap can be taken it is held at
those at which a print is struck (`taken_locked`).
-/
namespace HartBoot.Console

/-- A reclaim tells that it took the lock just when it is the first act of a handler. -/
def Act.Reclaims : Act → Prop
  | .handler taken => taken = true
  | .reclaimed taken => taken = false
  | _ => True

/-- The steps came to their end with the lock free, and their reclaims told what they should. -/
def EndsFree (result : Option (Console × List Item)) : Prop :=
  ∃ after items, result = some (after, items) ∧ after.locked = false ∧ ∀ item ∈ items, item.act.Reclaims

/-- The step `started` is started on the console `at` while a script is performed, at the top or in a handler. -/
inductive Starts (notice : List String) : Console → List Step → Console → Step → Prop
  | first {c : Console} {step : Step} {steps : List Step} : Starts notice c (step :: steps) c step
  | later {c next there : Console} {step started : Step} {steps : List Step} {items : List Item}
      (performed : perform notice c step = some (next, items)) (rest : Starts notice next steps there started) :
      Starts notice c (step :: steps) there started
  | inHandler {c held freed there : Console} {moment : Moment} {pieces : List String} {handler steps : List Step}
      {started : Step} {complete taken : Bool} (holds : c.hold pieces = some (held, complete))
      (struck : moment.comes complete = true) (first : held.reclaimWith notice = some (freed, taken))
      (within : Starts notice freed handler there started) :
      Starts notice c (.strike moment pieces handler :: steps) there started

/-- The text that a step prints while it holds the lock, piece by piece. -/
def Step.pieces? : Step → Option (List String)
  | .print pieces => some pieces
  | .printInColor color pieces => some (Log.inColor color pieces)
  | .strike _ pieces _ => some pieces
  | .install _ => none
  | .reclaim => none

/-- A trap can be taken while a script is performed, on the console that it finds, and strikes a print that has come to
    these pieces, or no print. -/
inductive Taken (notice : List String) (c : Console) (script : List Step) : Console → Option (List String) → Prop
  | between {there : Console} {step : Step} (start : Starts notice c script there step) :
      Taken notice c script there none
  | atEnd {after : Console} {items : List Item} (performed : performAll notice c script = some (after, items)) :
      Taken notice c script after none
  | inPrint {there held : Console} {step : Step} {pieces whole : List String} {complete : Bool}
      (start : Starts notice c script there step) (prints : step.pieces? = some whole) (begun : pieces <+: whole)
      (holds : there.hold pieces = some (held, complete)) : Taken notice c script held (some pieces)

section
variable {c : Console}

/-! ### The operations -/

theorem lock_free (free : c.locked = false) : c.lock = some { c with locked := true } := by
  simp [lock, free]

theorem install_free (free : c.locked = false) (room : Option Nat) :
    ∃ after, c.install room = some after ∧ after.locked = false := by
  simp [install, lock_free free, unlock]

/-- A print gets the lock and holds it while it writes, whether or not everything is written. -/
theorem hold_free (free : c.locked = false) (pieces : List String) :
    ∃ held complete, c.hold pieces = some (held, complete) ∧ held.locked = true := by
  unfold hold
  rw [lock_free free]
  cases sinks : c.sinks with
  | nil => exact ⟨_, _, rfl, rfl⟩
  | cons sink older => exact ⟨_, _, rfl, rfl⟩

theorem print_free (free : c.locked = false) (pieces : List String) :
    ∃ after, c.print pieces = some after ∧ after.locked = false := by
  obtain ⟨held, complete, holds, _⟩ := hold_free free pieces
  exact ⟨held.unlock, by simp [print, holds], rfl⟩

theorem reclaim_free (free : c.locked = false) (notice : List String) : c.reclaimWith notice = some (c, false) := by
  have same : c.unlock = c := by
    cases c
    cases free
    rfl
  simp [reclaimWith, reclaim, free, same]

/-- A lock that is held is taken back, and the notice then finds it free. -/
theorem reclaim_held (held : c.locked = true) (notice : List String) :
    ∃ freed, c.reclaimWith notice = some (freed, true) ∧ freed.locked = false := by
  obtain ⟨freed, printed, free⟩ := print_free (c := c.unlock) rfl notice
  exact ⟨freed, by simp [reclaimWith, reclaim, held, printed], free⟩

/-- Whenever a print is struck while it holds the lock, the handler takes the lock back before it does anything else. -/
theorem struck_free (free : c.locked = false) (pieces notice : List String) :
    ∃ held complete freed, c.hold pieces = some (held, complete) ∧ held.reclaimWith notice = some (freed, true) ∧
      freed.locked = false := by
  obtain ⟨held, complete, holds, locked⟩ := hold_free free pieces
  obtain ⟨freed, first, left⟩ := reclaim_held locked notice
  exact ⟨held, complete, freed, holds, first, left⟩

end

/-! ### Steps and scripts -/

theorem endsFree_one {result : Option (Console × List Item)} {after : Console} {item : Item}
    (ended : result = some (after, [item])) (left : after.locked = false) (told : item.act.Reclaims) :
    EndsFree result :=
  ⟨after, [item], ended, left, List.forall_mem_singleton.mpr told⟩

mutual

theorem perform_ends (notice : List String) {c : Console} (free : c.locked = false) :
    ∀ step : Step, EndsFree (perform notice c step)
  | .install room => by
    obtain ⟨after, installed, left⟩ := install_free free room
    have ended : perform notice c (.install room) = some (after, [⟨.installed, after.received⟩]) := by
      simp [perform, installed]
    exact endsFree_one ended left trivial
  | .print pieces => by
    obtain ⟨after, printed, left⟩ := print_free free pieces
    have ended : perform notice c (.print pieces) = some (after, [⟨.printed, after.received⟩]) := by
      simp [perform, printed]
    exact endsFree_one ended left trivial
  | .printInColor color pieces => by
    obtain ⟨after, printed, left⟩ := print_free free (Log.inColor color pieces)
    have ended : perform notice c (.printInColor color pieces) = some (after, [⟨.printedInColor, after.received⟩]) := by
      simp [perform, printed]
    exact endsFree_one ended left trivial
  | .reclaim => by
    have ended : perform notice c .reclaim = some (c, [⟨.reclaimed false, c.received⟩]) := by
      simp [perform, reclaim_free free]
    exact endsFree_one ended free rfl
  | .strike moment pieces handler => by
    obtain ⟨held, complete, freed, holds, first, left⟩ := struck_free free pieces notice
    cases struck : moment.comes complete with
    | false =>
      have ended : perform notice c (.strike moment pieces handler) =
          some (held.unlock, [⟨.trapped false, held.unlock.received⟩]) := by
        simp [perform, holds, struck]
      exact endsFree_one ended rfl trivial
    | true =>
      -- The handler runs on a console with a free lock, so its own traps are no different.
      obtain ⟨after, items, handled, _, told⟩ := performAll_ends notice left handler
      refine ⟨after.unlock, ⟨.handler true, freed.received⟩ :: items ++ [⟨.trapped true, after.unlock.received⟩],
        ?_, rfl, ?_⟩
      · simp [perform, holds, struck, first, handled]
      · intro item member
        rw [List.mem_append, List.mem_cons, List.mem_singleton] at member
        rcases member with (rfl | inside) | rfl
        · exact rfl
        · exact told item inside
        · exact trivial

theorem performAll_ends (notice : List String) {c : Console} (free : c.locked = false) :
    ∀ steps : List Step, EndsFree (performAll notice c steps)
  | [] => ⟨c, [], rfl, free, by simp⟩
  | step :: steps => by
    obtain ⟨next, items, performed, left, told⟩ := perform_ends notice free step
    obtain ⟨after, rest, followed, free, more⟩ := performAll_ends notice left steps
    refine ⟨after, items ++ rest, ?_, free, ?_⟩
    · simp [performAll, performed, followed]
    · intro item member
      rcases List.mem_append.mp member with before | behind
      · exact told item before
      · exact more item behind

end

theorem starts_free {notice : List String} {c there : Console} {script : List Step} {started : Step}
    (start : Starts notice c script there started) (free : c.locked = false) : there.locked = false := by
  induction start with
  | first => exact free
  | @later c next there step started steps items performed rest ih =>
    obtain ⟨after, items, ended, left, _⟩ := perform_ends notice free step
    rw [performed] at ended
    cases ended
    exact ih left
  | @inHandler c held freed there moment pieces handler steps started complete taken holds struck first within ih =>
    obtain ⟨_, _, _, same, reclaimed, left⟩ := struck_free free pieces notice
    rw [holds] at same
    cases same
    rw [first] at reclaimed
    cases reclaimed
    exact ih left

/-- The lock is held at exactly those moments of a script at which a trap strikes a print. -/
theorem taken_locked {notice : List String} {c there : Console} {script : List Step} {struck : Option (List String)}
    (taken : Taken notice c script there struck) (free : c.locked = false) : there.locked = struck.isSome := by
  cases taken with
  | between start => exact starts_free start free
  | atEnd performed =>
    obtain ⟨after, items, ended, left, _⟩ := performAll_ends notice free script
    rw [performed] at ended
    cases ended
    exact left
  | inPrint start prints begun holds =>
    obtain ⟨held, complete, same, locked⟩ := hold_free (starts_free start free) _
    rw [holds] at same
    cases same
    exact locked

/-- A script on a new console comes to its end. Every step of it, at the top or in a handler, starts with the lock free
    and leaves it free; just the first reclaim of each handler takes the lock back. That holds at whatever moment of a
    print a trap strikes, with or without a sink and with or without a refused piece. -/
theorem lock_always_free (notice : List String) (script : List Step) :
    EndsFree (performAll notice new script) ∧
      ∀ c step, Starts notice new script c step →
        c.locked = false ∧ EndsFree (perform notice c step) ∧
          ∀ pieces, ∃ held complete freed, c.hold pieces = some (held, complete) ∧
            held.reclaimWith notice = some (freed, true) ∧ ∀ handler, EndsFree (performAll notice freed handler) := by
  refine ⟨performAll_ends notice rfl script, ?_⟩
  intro c step start
  have free : c.locked = false := starts_free start rfl
  refine ⟨free, perform_ends notice free step, ?_⟩
  intro pieces
  obtain ⟨held, complete, freed, holds, first, left⟩ := struck_free free pieces notice
  exact ⟨held, complete, freed, holds, first, fun handler => performAll_ends notice left handler⟩

/-- A print that is struck, whose handler prints to a new sink that is too small and is struck again. -/
def nestedTraps : List Step :=
  [.install none, .trap ["ab"] [.install (some 1), .print ["long"], .trap ["c"] [.reclaim, .print ["d"]], .reclaim],
    .reclaim]

/-- The reclaim in the handler of the second trap. -/
theorem lock_always_free_nested :
    ∃ c, Starts ["\n"] new nestedTraps c .reclaim ∧ c.locked = false ∧ EndsFree (perform ["\n"] c .reclaim) ∧
      ∀ pieces, ∃ held complete freed, c.hold pieces = some (held, complete) ∧
        held.reclaimWith ["\n"] = some (freed, true) ∧ ∀ handler, EndsFree (performAll ["\n"] freed handler) := by
  have start : ∃ c, Starts ["\n"] new nestedTraps c .reclaim :=
    ⟨_, .later rfl (.inHandler rfl rfl rfl (.later rfl (.later rfl (.inHandler rfl rfl rfl .first))))⟩
  obtain ⟨c, start⟩ := start
  exact ⟨c, start, (lock_always_free ["\n"] nestedTraps).2 c .reclaim start⟩

end HartBoot.Console
