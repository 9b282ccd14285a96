import HartBoot.Log.Record
import HartBoot.Sim.Event
import HartBoot.Sim.Registers
import HartBoot.Sim.Routine

/-!
The history of a simulated hart: all that was done by it and to it, in order. The trace of its events
(`History.events`), its log (`History.log`) and the account of its routines (`History.notes`) are views of
the one history, so that what happened between what is never lost.
-/
namespace HartBoot.Sim

/-- What can be seen of a hart at one moment. -/
structure Snapshot where
  registers : Registers
  eventCount : Nat
deriving DecidableEq

inductive Note
  | entered (entry : Word) (run : Nat)
  | performed (step : Step) (answer : Answer)
  | left (entry : Word) (exit : Exit)

/-- One thing that was done by a hart or to it. -/
inductive Happening
  | event (e : Event)
  /-- A word was put into memory without a trace. -/
  | filled (addr value : Word)
  /-- A return from machine mode set out for `entry`, to go on as told when the routine there returns. -/
  | mret (entry : Word) (resume : Resume)
  | logged (record : Log.Record)
  | noted (note : Note) (state : Snapshot)

abbrev History := List Happening

namespace History

def events (h : History) : List Event :=
  h.filterMap fun
    | .event e => some e
    | _ => none

def log (h : History) : List Log.Record :=
  h.filterMap fun
    | .logged record => some record
    | _ => none

/-- The account of the routines. -/
def notes (h : History) : List (Note × Snapshot) :=
  h.filterMap fun
    | .noted note state => some (note, state)
    | _ => none

@[simp] theorem events_append (h k : History) : events (h ++ k) = events h ++ events k :=
  List.filterMap_append

@[simp] theorem log_append (h k : History) : log (h ++ k) = log h ++ log k :=
  List.filterMap_append

@[simp] theorem notes_append (h k : History) : notes (h ++ k) = notes h ++ notes k :=
  List.filterMap_append

end History
end HartBoot.Sim
