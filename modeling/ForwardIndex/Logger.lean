import ForwardIndex.Text

/-!
# Log lines

A logger has a level and may have a tag. It turns a message into the text that reaches the error
stream: one line, or nothing if the message's level is above the logger's. Tag and message end at
their first NUL byte.
-/
set_option autoImplicit false
namespace ForwardIndex

structure Logger where
  level : Nat := 2
  tag : Text := []
  deriving DecidableEq, Repr

namespace Logger

def errorLevel : Nat := 0
def warnLevel : Nat := 1
def infoLevel : Nat := 2
def debugLevel : Nat := 3

def isVerbose (l : Logger) : Bool := debugLevel ≤ l.level

/-- The same level with a tag of its own. -/
def withTag (l : Logger) (tag : Text) : Logger := { level := l.level, tag }

/-- The line of a message at a level with a name. -/
def line (l : Logger) (level : Nat) (name message : Text) : Text :=
  if l.level < level then []
  else
    let body := if l.tag = [] then message.untilNul else l.tag.untilNul ++ ": " ++ message.untilNul
    "[" ++ name ++ "] " ++ body ++ "\n"

def error (l : Logger) (message : Text) : Text := l.line errorLevel "ERROR" message
def warn (l : Logger) (message : Text) : Text := l.line warnLevel "WARN" message
def info (l : Logger) (message : Text) : Text := l.line infoLevel "INFO" message
def debug (l : Logger) (message : Text) : Text := l.line debugLevel "DEBUG" message

end Logger
end ForwardIndex
