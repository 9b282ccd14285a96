import HartBoot.Log.Level

/-!
Log records and the text they are written as: one line in the color of the level, which gives the level, the
source position and the message.
-/
namespace HartBoot.Log

/-- Where in the sources a record comes from, as far as it is known. -/
structure Position where
  file : Option String
  line : Option Nat
deriving DecidableEq

/-- No file is written `?` and no line 0. -/
def Position.text (p : Position) : String :=
  "[" ++ p.file.getD "?" ++ ":" ++ toString (p.line.getD 0) ++ "]"

structure Record where
  level : Level
  message : String
  position : Position
deriving DecidableEq

/-- The terminal sequence that starts a color, piece by piece as it is printed. -/
def startPieces (color : Nat) : List String := ["\x1b[", toString color, "m"]

/-- The terminal sequence that starts a color. -/
def colorStart (color : Nat) : String := String.join (startPieces color)

def colorEnd : String := "\x1b[0m"

/-- Pieces of text with the color around them. -/
def inColor (color : Nat) (pieces : List String) : List String := startPieces color ++ pieces ++ [colorEnd]

theorem join_inColor (color : Nat) (pieces : List String) :
    String.join (inColor color pieces) = colorStart color ++ String.join pieces ++ colorEnd := by
  simp [inColor, colorStart, String.append_assoc]

namespace Record

/-- The line of a record. It counts as one piece of text: the ports that records go to take everything, so that they
    cannot tell its pieces apart. -/
def line (r : Record) : String := r.level.label ++ r.position.text ++ " " ++ r.message ++ "\n"

def text (r : Record) : String := String.join (inColor r.level.color [r.line])

end Record
end HartBoot.Log
