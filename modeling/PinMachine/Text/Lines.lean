/-!
Lines of a text. In a source text carriage return, line feed, and the pair of
both in that order each end one line. Empty lines count, so a text always has at
least one line, and the position of a line in the result is its index in the
text. In a written journal only a line feed ends a line.
-/

namespace PinMachine

/-- Cuts the rest of a text into lines. The characters of the line being read
and the lines already finished are held newest first. -/
def splitLinesFrom (finished : List (List Char)) (current : List Char) :
    List Char → List (List Char)
  | [] => (current.reverse :: finished).reverse
  | '\r' :: '\n' :: rest => splitLinesFrom (current.reverse :: finished) [] rest
  | '\r' :: rest => splitLinesFrom (current.reverse :: finished) [] rest
  | '\n' :: rest => splitLinesFrom (current.reverse :: finished) [] rest
  | char :: rest => splitLinesFrom finished (char :: current) rest

def splitLines (text : List Char) : List (List Char) :=
  splitLinesFrom [] [] text

/-- Cuts the rest of a written text into lines, held as in a source text. -/
def writtenLinesFrom (finished : List (List Char)) (current : List Char) :
    List Char → List (List Char)
  | [] =>
      if current.isEmpty then finished.reverse
      else (current.reverse :: finished).reverse
  | '\n' :: rest =>
      let line :=
        match current with
        | '\r' :: before => before
        | other => other
      writtenLinesFrom (line.reverse :: finished) [] rest
  | char :: rest => writtenLinesFrom finished (char :: current) rest

/-- The lines of a written text. A line feed ends a line, a carriage return right
before it belongs to it, and the text after the last line feed is a line only if
it is not empty. -/
def writtenLines (text : List Char) : List (List Char) :=
  writtenLinesFrom [] [] text

end PinMachine
