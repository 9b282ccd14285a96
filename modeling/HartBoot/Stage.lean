import HartBoot.Inspect

/-!
The stages of the boot of one hart. They follow each other in one line, except that a hart that is not
elected goes to its end at once.
-/
namespace HartBoot

/-- Where a hart is in its boot. -/
inductive Stage
  | electing
  | clearingBss
  | awaitingEarlyInit
  | awaitingMain
  | idle
deriving DecidableEq

namespace Stage

def all : List Stage := [.electing, .clearingBss, .awaitingEarlyInit, .awaitingMain, .idle]

/-- The name that messages use. -/
def text : Stage → String
  | .electing => "Electing"
  | .clearingBss => "ClearingBSS"
  | .awaitingEarlyInit => "AwaitingEarlyInit"
  | .awaitingMain => "AwaitingMain"
  | .idle => "Idle"

instance : Inspect Stage :=
  ⟨fun
    | .clearingBss => "ClearingBss"
    | stage => stage.text⟩

/-- The place of a stage in the line. -/
def rank : Stage → Nat
  | .electing => 0
  | .clearingBss => 1
  | .awaitingEarlyInit => 2
  | .awaitingMain => 3
  | .idle => 4

instance : Ord Stage := ⟨fun s t => compare s.rank t.rank⟩

/-- The stage after a successful step; the last stage has none. -/
def successor : Stage → Option Stage
  | .electing => some .clearingBss
  | .clearingBss => some .awaitingEarlyInit
  | .awaitingEarlyInit => some .awaitingMain
  | .awaitingMain => some .idle
  | .idle => none

/-- Whether a hart may go from `s` to `next`: to the successor, or from the election straight to the end. -/
def canMoveTo (s next : Stage) : Bool :=
  s.successor == some next || (s == .electing && next == .idle)

/-- A stage and all that follow it. -/
def walk (s : Stage) : List Stage := all.drop s.rank

/-- Stages in the order of the line. -/
def sort (stages : List Stage) : List Stage := stages.mergeSort fun s t => s.rank ≤ t.rank

end Stage
end HartBoot
