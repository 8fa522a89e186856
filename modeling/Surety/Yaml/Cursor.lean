/-!
# A place in a YAML text

What lies ahead of a place, with its line and its column, and the classes of characters that decide
where a token ends.  A column counts from the last line feed; a carriage return ends a line only for
the text of scalars.  Nothing behind a NUL character is read.
-/

namespace Surety.Yaml

/-- A character that ends a line. -/
def isBreak (c : Char) : Bool := c == '\n' || c == '\r'

/-- A character that separates words of a line. -/
def isBlank (c : Char) : Bool := c == ' ' || c == '\t'

/-- A character between words. -/
def isGap (c : Char) : Bool := isBlank c || isBreak c

/-- A character that delimits the parts of a collection in brackets. -/
def isFlowMark (c : Char) : Bool :=
  c == ',' || c == '[' || c == ']' || c == '\x7b' || c == '\x7d'

/-- A character of a name. -/
def isNameChar (c : Char) : Bool := c.isAlphanum || c == '_' || c == '-'

/-- Whether a word ends in front of a text. -/
def endsWord : List Char → Bool
  | [] => true
  | c :: _ => isGap c

/-- Whether a line ends in front of a text. -/
def endsLine : List Char → Bool
  | [] => true
  | c :: _ => isBreak c

/-- The number of line ends in a text; a carriage return and a line feed together are one. -/
def breakCount : List Char → Nat
  | '\r' :: '\n' :: rest => breakCount rest + 1
  | c :: rest => if isBreak c then breakCount rest + 1 else breakCount rest
  | [] => 0

/-- What a gap inside a scalar stands for: blanks stand for themselves, one line end for a space, and
more line ends for all but the first. -/
def foldGap (gap : List Char) : List Char :=
  match breakCount gap with
  | 0 => gap
  | 1 => [' ']
  | ends => List.replicate (ends - 1) '\n'

/-- A place in a text. -/
structure Cursor where
  rest : List Char
  index : Nat
  line : Nat
  column : Nat

namespace Cursor

/-- The start of a text. -/
def start (text : String) : Cursor := ⟨text.toList.takeWhile (· != '\x00'), 0, 0, 0⟩

/-- The place behind the next character. -/
def advance (c : Cursor) : Cursor :=
  match c.rest with
  | [] => c
  | '\n' :: rest => ⟨rest, c.index + 1, c.line + 1, 0⟩
  | _ :: rest => ⟨rest, c.index + 1, c.line, c.column + 1⟩

/-- The place behind a number of characters. -/
def advanceBy (count : Nat) (c : Cursor) : Cursor := Nat.repeat advance count c

/-- The characters ahead that satisfy a condition. -/
def ahead (condition : Char → Bool) (c : Cursor) : List Char := c.rest.takeWhile condition

/-- The place behind the characters that satisfy a condition. -/
def advanceWhile (condition : Char → Bool) (c : Cursor) : Cursor :=
  c.advanceBy (c.ahead condition).length

/-- The place behind a line end, if there is one. -/
def advanceBreak (c : Cursor) : Cursor :=
  match c.rest with
  | '\r' :: '\n' :: _ => c.advanceBy 2
  | next :: _ => if isBreak next then c.advance else c
  | [] => c

/-- The place behind blanks and a comment, when nothing else is left on the line. -/
def lineEnd? (c : Cursor) : Option Cursor :=
  let c := c.advanceWhile isBlank
  let c := if c.rest.head? = some '#' then c.advanceWhile (!isBreak ·) else c
  if endsLine c.rest then some c.advanceBreak else none

/-- Whether a mark of three characters stands alone at the start of the line. -/
def atMark (mark : Char) (c : Cursor) : Bool :=
  c.column == 0 &&
    match c.rest with
    | x :: y :: z :: rest => x == mark && y == mark && z == mark && endsWord rest
    | _ => false

/-- Whether a document starts or ends here. -/
def atDocumentMark (c : Cursor) : Bool := c.atMark '-' || c.atMark '.'

end Cursor

end Surety.Yaml
