/-!
A console: a sink for text behind a lock. A print takes the lock, writes its pieces to the sink until one is
refused and frees the lock; output before a sink is installed is dropped. A handler that interrupted a print
for good takes the lock back (`reclaim`). Taking a lock that is not free never ends, which is `none`.
-/
namespace HartBoot

/-- A sink takes `room` more bytes of text, or any number; `received` is the text that it has taken. -/
structure Sink where
  room : Option Nat
  received : String
deriving DecidableEq

namespace Sink

/-- Writes a piece of text as a whole, or not at all when it is longer than the room left. -/
def write (s : Sink) (piece : String) : Option Sink :=
  match s.room with
  | none => some { s with received := s.received ++ piece }
  | some room =>
    if piece.utf8ByteSize ≤ room then some ⟨some (room - piece.utf8ByteSize), s.received ++ piece⟩ else none

/-- Writes pieces up to the first that is refused, and tells whether none was. -/
def writeAll (s : Sink) : List String → Sink × Bool
  | [] => (s, true)
  | piece :: pieces =>
    match s.write piece with
    | none => (s, false)
    | some s => s.writeAll pieces

end Sink

/-- A console with the sinks installed so far, the newest first; the newest is the one in use. -/
structure Console where
  locked : Bool
  sinks : List Sink
deriving DecidableEq

namespace Console

def new : Console := ⟨false, []⟩

/-- Takes the lock; a lock that is not free is waited for, for ever. -/
def lock (c : Console) : Option Console := if c.locked then none else some { c with locked := true }

def unlock (c : Console) : Console := { c with locked := false }

/-- Puts a new sink into use. -/
def install (c : Console) (room : Option Nat) : Option Console := do
  let c ← c.lock
  return { c with sinks := ⟨room, ""⟩ :: c.sinks }.unlock

/-- A print up to the end of its writing, when it still holds the lock, and whether everything was written. -/
def hold (c : Console) (pieces : List String) : Option (Console × Bool) := do
  let c ← c.lock
  match c.sinks with
  | [] => return (c, false)
  | sink :: older =>
    let (sink, complete) := sink.writeAll pieces
    return ({ c with sinks := sink :: older }, complete)

def print (c : Console) (pieces : List String) : Option Console := do
  let (c, _) ← c.hold pieces
  return c.unlock

/-- Frees a lock that is held, and tells whether it was. Whoever held it must never go on. -/
def reclaim (c : Console) : Console × Bool := (c.unlock, c.locked)

/-- Frees a lock that is held, and then prints a notice. -/
def reclaimWith (c : Console) (notice : List String) : Option (Console × Bool) := do
  match c.reclaim with
  | (c, false) => return (c, false)
  | (c, true) => return (← c.print notice, true)

/-- What each sink has received, in the order of installation. -/
def received (c : Console) : List String := (c.sinks.map (·.received)).reverse

def text (c : Console) : String := String.join c.received

end Console
end HartBoot
