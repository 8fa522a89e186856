import Surety.Text.Digit
import Surety.Yaml.Cursor

/-!
# The three ways to write a scalar

Plain scalars end at the first mark that cannot belong to them, quoted scalars at the closing quote,
and block scalars at the first line that is indented less.  Each reader starts at the first character
of the scalar and gives its text and the place behind it.
-/

namespace Surety.Yaml

/-- How a scalar is written. -/
inductive Style where
  | plain
  | quoted
  | block
  deriving DecidableEq

/-! ## Plain scalars -/

/-- The longest word of a plain scalar.  A colon ends it in front of a gap, and inside brackets also
in front of a delimiter; a delimiter ends it inside brackets. -/
def plainWord (inFlow : Bool) : List Char → List Char
  | [] => []
  | c :: rest =>
      if isGap c || (inFlow && isFlowMark c)
          || (c == ':' && (endsWord rest || (inFlow && rest.head?.any isFlowMark))) then []
      else c :: plainWord inFlow rest

/-- Whether a gap that starts here has a tab in the indentation of a later line. -/
def tabInIndentation (indent : Nat) (c : Cursor) (gap : List Char) : Bool :=
  (List.range gap.length).any fun count =>
    let here := c.advanceBy count
    (gap.take count).any isBreak && here.rest.head? == some '\t' && decide (here.column < indent)

/-- What a reader of plain scalars has found. -/
structure Plain where
  text : List Char
  /-- the scalar is followed by a line end -/
  endsLine : Bool
  next : Cursor

/-- The words of a plain scalar from here on, when `gap` stands in front of them. -/
def plainFrom (inFlow : Bool) (indent : Nat) : (fuel : Nat) → (gap : List Char) → Cursor →
    Option Plain
  | 0, _, _ => none
  | fuel + 1, gap, c =>
      if c.atDocumentMark || c.rest.head? == some '#' then some ⟨[], gap.any isBreak, c⟩
      else
        let word := plainWord inFlow c.rest
        let text := if word.isEmpty then [] else foldGap gap ++ word
        let gap := if word.isEmpty then gap else []
        let c := c.advanceBy word.length
        match c.ahead isGap with
        | [] => some ⟨text, gap.any isBreak, c⟩
        | more =>
            if tabInIndentation indent c more then none
            else
              let next := c.advanceBy more.length
              if !inFlow && decide (next.column < indent) then
                some ⟨text, more.any isBreak, next⟩
              else
                (plainFrom inFlow indent fuel more next).map fun found =>
                  { found with text := text ++ found.text }

/-- Read a plain scalar whose later lines have to be indented. -/
def plain? (inFlow : Bool) (indent : Nat) (c : Cursor) : Option Plain :=
  plainFrom inFlow indent (c.rest.length + 1) [] c

/-! ## Quoted scalars -/

/-- The character with the number given by the next `width` hexadecimal digits. -/
def numberedChar? (width : Nat) (text : List Char) : Option Char := do
  guard (width ≤ text.length)
  let n ← Digit.number? 16 (text.take width)
  if n.isValidChar then some (Char.ofNat n) else none

/-- The character of a one-letter escape. -/
def letterEscape? : Char → Option Char
  | '0' => some '\x00'
  | 'a' => some '\x07'
  | 'b' => some '\x08'
  | 't' => some '\t'
  | '\t' => some '\t'
  | 'n' => some '\n'
  | 'v' => some '\x0b'
  | 'f' => some '\x0c'
  | 'r' => some '\r'
  | 'e' => some '\x1b'
  | ' ' => some ' '
  | '"' => some '"'
  | '\'' => some '\''
  | '\\' => some '\\'
  | 'N' => some '\u0085'
  | '_' => some '\u00a0'
  | 'L' => some '\u2028'
  | 'P' => some '\u2029'
  | _ => none

/-- The character of an escape and the number of characters behind the backslash. -/
def escape? : List Char → Option (Char × Nat)
  | [] => none
  | kind :: digits =>
      match kind with
      | 'x' => (numberedChar? 2 digits).map (·, 3)
      | 'u' => (numberedChar? 4 digits).map (·, 5)
      | 'U' => (numberedChar? 8 digits).map (·, 9)
      | letter => (letterEscape? letter).map (·, 1)

/-- A part of a quoted scalar. -/
inductive QuotedPart where
  | text (chars : List Char) (next : Cursor)
  | close (next : Cursor)

/-- The next part of a quoted scalar.  A document cannot start or end inside quotes. -/
def quotedPart? (double : Bool) (c : Cursor) : Option QuotedPart :=
  let behindGap (chars : List Char) (next : Cursor) : Option QuotedPart :=
    if next.atDocumentMark then none else some (.text chars next)
  match c.rest with
  | [] => none
  | char :: rest =>
      if isGap char then
        let gap := c.ahead isGap
        behindGap (foldGap gap) (c.advanceBy gap.length)
      else if double then
        match char with
        | '"' => some (.close c.advance)
        | '\\' =>
            if rest.head?.any isBreak then
              let next := c.advance.advanceBreak
              let gap := next.ahead isGap
              behindGap (List.replicate (breakCount gap) '\n') (next.advanceBy gap.length)
            else (escape? rest).map fun (meant, width) => .text [meant] (c.advanceBy (width + 1))
        | _ => some (.text [char] c.advance)
      else if char == '\'' then
        if rest.head? == some '\'' then some (.text ['\''] (c.advanceBy 2))
        else some (.close c.advance)
      else some (.text [char] c.advance)

/-- The text up to the closing quote and the place behind it. -/
def quotedFrom (double : Bool) : (fuel : Nat) → Cursor → Option (List Char × Cursor)
  | 0, _ => none
  | fuel + 1, c =>
      match quotedPart? double c with
      | none => none
      | some (.close next) => some ([], next)
      | some (.text chars next) =>
          (quotedFrom double fuel next).map fun (text, next) => (chars ++ text, next)

/-- Read a scalar in single or double quotes. -/
def quoted? (double : Bool) (c : Cursor) : Option (List Char × Cursor) :=
  quotedFrom double (c.rest.length + 1) c.advance

/-! ## Block scalars -/

/-- What happens to the line ends behind the last line. -/
inductive Chomping where
  | strip
  | clip
  | keep
  deriving DecidableEq

/-- The head of a block scalar. -/
structure BlockHead where
  chomping : Chomping
  /-- the indentation of the lines beyond that of the parent, when it is given -/
  extra : Option Nat
  next : Cursor

/-- Read a chomping mark. -/
def chomping? (c : Cursor) : Option (Chomping × Cursor) :=
  match c.rest with
  | '+' :: _ => some (.keep, c.advance)
  | '-' :: _ => some (.strip, c.advance)
  | _ => none

/-- Read an indentation mark, which is not zero. -/
def extraIndent? (c : Cursor) : Option (Option Nat × Cursor) :=
  match c.rest with
  | digit :: _ =>
      if digit == '0' then none
      else if digit.isDigit then some (some (digit.toNat - 48), c.advance)
      else some (none, c)
  | [] => some (none, c)

/-- Read the two marks in either order, and the rest of the line. -/
def blockHead? (c : Cursor) : Option BlockHead := do
  match chomping? c with
  | some (chomping, c) =>
      let (extra, c) ← extraIndent? c
      return ⟨chomping, extra, ← c.lineEnd?⟩
  | none =>
      let (extra, c) ← extraIndent? c
      match extra, chomping? c with
      | some _, some (chomping, c) => return ⟨chomping, extra, ← c.lineEnd?⟩
      | _, _ => return ⟨.clip, extra, ← c.lineEnd?⟩

/-- Empty lines in front of a line of a block scalar. -/
structure EmptyLines where
  count : Nat
  /-- the widest indentation among them and the line behind them -/
  widest : Nat
  next : Cursor

/-- Skip indentation and empty lines; no indentation means that it is not known yet. -/
def emptyLinesFrom (indent : Option Nat) : (fuel : Nat) → EmptyLines → Option EmptyLines
  | 0, _ => none
  | fuel + 1, lines =>
      let spaces := lines.next.ahead (· == ' ')
      let width :=
        match indent with
        | none => spaces.length
        | some indent => min spaces.length (indent - lines.next.column)
      let c := lines.next.advanceBy width
      let widest := max lines.widest c.column
      let inIndent := indent.all (c.column < ·)
      if inIndent && c.rest.head? == some '\t' then none
      else if c.rest.head?.any isBreak then
        emptyLinesFrom indent fuel ⟨lines.count + 1, widest, c.advanceBreak⟩
      else some ⟨lines.count, widest, c⟩

/-- Skip indentation and empty lines. -/
def emptyLines? (indent : Option Nat) (c : Cursor) : Option EmptyLines :=
  emptyLinesFrom indent (c.rest.length + 1) ⟨0, 0, c⟩

/-- The lines of a block scalar read so far. -/
structure BlockText where
  text : List Char
  /-- the last line has an end that is not written yet -/
  pendingEnd : Bool
  /-- empty lines behind the last line -/
  emptyLines : Nat
  /-- the last line starts with a blank -/
  blankStart : Bool
  next : Cursor

/-- Read the lines that are indented to the given column. -/
def blockLinesFrom (literal : Bool) (indent : Nat) : (fuel : Nat) → BlockText → Option BlockText
  | 0, _ => none
  | fuel + 1, block =>
      let c := block.next
      if c.column != indent || c.rest.isEmpty then some block
      else
        let blankStart := c.rest.head?.any isBlank
        let folds := !literal && block.pendingEnd && !block.blankStart && !blankStart
        let joint : List Char :=
          if folds then (if block.emptyLines = 0 then [' '] else [])
          else if block.pendingEnd then ['\n']
          else []
        let line := c.ahead (!isBreak ·)
        let text := block.text ++ joint ++ List.replicate block.emptyLines '\n' ++ line
        let c := c.advanceBy line.length
        if c.rest.isEmpty then some ⟨text, false, 0, blankStart, c⟩
        else
          match emptyLines? (some indent) c.advanceBreak with
          | none => none
          | some lines =>
              blockLinesFrom literal indent fuel ⟨text, true, lines.count, blankStart, lines.next⟩

/-- Read a block scalar inside a collection at the given column, if there is one. -/
def block? (literal : Bool) (parent : Option Nat) (c : Cursor) : Option (List Char × Cursor) := do
  let head ← blockHead? c.advance
  let given := head.extra.map fun extra => parent.getD 0 + extra
  let lines ← emptyLines? given head.next
  let least := (parent.map (· + 1)).getD 0
  let indent := given.getD (max 1 (max least lines.widest))
  let block ← blockLinesFrom literal indent (lines.next.rest.length + 1)
    ⟨[], false, lines.count, false, lines.next⟩
  let lastEnd : List Char := if block.pendingEnd && head.chomping ≠ .strip then ['\n'] else []
  let kept : List Char :=
    if head.chomping = .keep then List.replicate block.emptyLines '\n' else []
  return (block.text ++ lastEnd ++ kept, block.next)

end Surety.Yaml
