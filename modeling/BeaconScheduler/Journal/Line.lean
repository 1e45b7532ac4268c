import BeaconScheduler.Journal.Noted

/-!
# Lines of the journal

How entries of the journal read as lines, and which of them are for the screen. All of them are
for the log file.
-/

set_option autoImplicit false

namespace BeaconScheduler.Journal

namespace Level

def name : Level → String
  | .error => "ERROR"
  | .warn => "WARN"
  | .info => "INFO"
  | .debug => "DEBUG"
  | .trace => "TRACE"

def rank : Level → Nat
  | .error => 0
  | .warn => 1
  | .info => 2
  | .debug => 3
  | .trace => 4

end Level

def Channel.threshold : Channel → Level
  | .admission | .cycle => .debug
  | _ => .info

structure Line where
  level : Level
  time : Option String
  message : String
deriving DecidableEq, Repr

namespace Entry

/-- What trails the text of an event that happens at `time`: a blank, and the padded time but for
one blank of its padding. A time that has no padding is not repeated. -/
def trailer (time : Time) : String :=
  match time.text.toList with
  | ' ' :: rest => " " ++ String.ofList rest
  | _ => " "

def line (entry : Entry) : Line where
  level := entry.event.level
  time := entry.time.map Time.plainText
  message := entry.event.text ++ (entry.time.map trailer).getD ""

def isShown (entry : Entry) : Bool :=
  entry.event.level.rank ≤ entry.event.channel.threshold.rank

end Entry

def Line.text (line : Line) : String :=
  Text.padRight 5 line.level.name ++ " " ++ Text.padLeft 11 ' ' (line.time.getD "") ++ " " ++
    line.message

end BeaconScheduler.Journal
