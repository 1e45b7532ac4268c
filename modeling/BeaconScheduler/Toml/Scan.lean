/-!
# Blanks, comments and line ends

A reader takes a list of characters and gives what it read with the rest of the list, or
nothing if the text is malformed.
-/

set_option autoImplicit false

namespace BeaconScheduler.Toml

abbrev Input := List Char

abbrev Reader (α : Type) := Input → Option (α × Input)

def isBlank (c : Char) : Bool :=
  c == ' ' || c == '\t'

/-- Characters that a comment can hold: all but control characters, of which only the tab. -/
def isCommentChar (c : Char) : Bool :=
  c == '\t' || (0x20 ≤ c.toNat && c.toNat != 0x7f)

def skipBlanks (input : Input) : Input :=
  input.dropWhile isBlank

/-- The input after a line feed, or after a carriage return with its line feed. -/
def lineFeed? : Input → Option Input
  | '\n' :: rest => some rest
  | '\r' :: '\n' :: rest => some rest
  | _ => none

def skipComment : Input → Input
  | '#' :: rest => rest.dropWhile isCommentChar
  | input => input

/-- The input after the end of a line, before which only blanks and a comment may stand. The end
of the input ends a line too. -/
def lineEnd? (input : Input) : Option Input :=
  match skipComment (skipBlanks input) with
  | [] => some []
  | rest => lineFeed? rest

/-- Skips blanks, line ends and whole comments, as they may stand between the elements of an
array. -/
def skipFiller (inComment : Bool) : Input → Input
  | [] => []
  | '\n' :: rest => skipFiller false rest
  | '\r' :: '\n' :: rest => skipFiller false rest
  | c :: rest =>
      if inComment then
        if isCommentChar c then skipFiller true rest else c :: rest
      else if c == '#' then skipFiller true rest
      else if isBlank c then skipFiller false rest
      else c :: rest

end BeaconScheduler.Toml
