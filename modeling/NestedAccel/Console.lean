/-!
# `NestedAccel.Console` — leveled messages

The console shows messages of four levels. A message is shown if it is at least as severe as the
console's maximum level, on a line of its own after a tag with its level.
-/

namespace NestedAccel

/-- How severe a message is, from the most severe level down. -/
inductive LogLevel where
  | error
  | warn
  | info
  | debug
deriving DecidableEq, Repr, Inhabited

namespace LogLevel

/-- The level's rank: the more severe, the smaller. -/
def rank : LogLevel → Nat
  | error => 0
  | warn => 1
  | info => 2
  | debug => 3

/-- The level's name. -/
def name : LogLevel → String
  | error => "Error"
  | warn => "Warn"
  | info => "Info"
  | debug => "Debug"

/-- The tag in front of messages of the level. -/
def tag : LogLevel → String
  | error => "ERROR"
  | warn => "WARN"
  | info => "INFO"
  | debug => "DEBUG"

end LogLevel

/-- The console: its maximum level and the text shown so far. -/
structure Console where
  maxLevel : LogLevel := .info
  output : String := ""
deriving DecidableEq, Repr, Inhabited

namespace Console

/-- Messages of level `l` are shown. -/
def enabled (c : Console) (l : LogLevel) : Bool := decide (l.rank ≤ c.maxLevel.rank)

/-- Shows `text` as it is. -/
def print (c : Console) (text : String) : Console := { c with output := c.output ++ text }

/-- Shows `text` as a line. -/
def printLine (c : Console) (text : String) : Console := c.print (text ++ "\n")

/-- Shows `text` as a message of level `l` if such messages are shown. -/
def log (c : Console) (l : LogLevel) (text : String) : Console :=
  if c.enabled l then c.printLine ("[" ++ l.tag ++ "] " ++ text) else c

end Console

end NestedAccel
