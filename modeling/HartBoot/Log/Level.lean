/-!
Log levels, and the filter that admits the records up to a level.
-/
namespace HartBoot.Log

inductive Level
  | error
  | warn
  | info
  | debug
  | trace
deriving DecidableEq

namespace Level

def all : List Level := [.error, .warn, .info, .debug, .trace]

def name : Level → String
  | .error => "ERROR"
  | .warn => "WARN"
  | .info => "INFO"
  | .debug => "DEBUG"
  | .trace => "TRACE"

def color : Level → Nat
  | .error => 31
  | .warn => 93
  | .info => 36
  | .debug => 32
  | .trace => 90

/-- How much a filter has to admit to admit the level. -/
def rank : Level → Nat
  | .error => 1
  | .warn => 2
  | .info => 3
  | .debug => 4
  | .trace => 5

/-- The level at the head of a line: right-aligned to the longest name, in brackets. -/
def label (l : Level) : String :=
  "[" ++ String.ofList (List.replicate (5 - l.name.length) ' ') ++ l.name ++ "]"

end Level

/-- The records that are written out. -/
inductive Filter
  | off
  /-- Those of this level and the graver ones. -/
  | upTo (level : Level)
deriving DecidableEq

namespace Filter

def name : Filter → String
  | .off => "OFF"
  | .upTo level => level.name

/-- The filter that a setting names; anything but the five lower-case names of levels turns logging off. -/
def ofSetting : Option String → Filter
  | some "trace" => .upTo .trace
  | some "debug" => .upTo .debug
  | some "info" => .upTo .info
  | some "warn" => .upTo .warn
  | some "error" => .upTo .error
  | _ => .off

def admits : Filter → Level → Bool
  | .off, _ => false
  | .upTo most, level => level.rank ≤ most.rank

end Filter
end HartBoot.Log
