import Surety.Yaml.Scalar

/-!
# The tokens of a YAML text

A text is cut into tokens from left to right.  Indentation opens and closes block collections, and a
colon turns the scalar in front of it into a key, so the tokens of a key are put in front of tokens
that are already there.  Inside brackets indentation has no meaning.
-/

namespace Surety.Yaml

/-- A type annotation. -/
inductive Tag where
  /-- a type of the core schema -/
  | core (name : String)
  | custom
  deriving DecidableEq

/-- A token; the end of the text is the end of the list. -/
inductive Token where
  | directive
  | documentStart
  | documentEnd
  | blockSequence
  | blockMapping
  | blockEnd
  | flowSequence
  | flowSequenceEnd
  | flowMapping
  | flowMappingEnd
  | blockEntry
  | flowEntry
  | key
  | value
  | alias (name : String)
  | anchor (name : String)
  | tag (tag : Tag)
  | scalar (style : Style) (text : String)
  deriving DecidableEq

/-- A token that becomes a key when a colon follows in the same line, at most 1024 characters on. -/
structure KeyCandidate where
  /-- the number of tokens in front of it -/
  tokenIndex : Nat
  index : Nat
  line : Nat
  column : Nat
  /-- no other reading is possible -/
  required : Bool

/-- The state of cutting a text into tokens. -/
structure Scan where
  cursor : Cursor
  tokens : Array Token
  /-- the columns of the open block collections, innermost first -/
  indents : List Nat
  /-- the candidate inside the innermost brackets -/
  candidate : Option KeyCandidate
  /-- the candidates outside, one for each open bracket, innermost first -/
  outer : List (Option KeyCandidate)
  /-- a key may start here -/
  keyAllowed : Bool
  /-- the place behind the last quoted scalar, where a colon needs no blank inside brackets -/
  adjacentAt : Option Nat

namespace Scan

/-- The state at the start of a text. -/
def start (text : String) : Scan := ⟨Cursor.start text, #[], [], none, [], true, none⟩

/-- Whether brackets are open. -/
def inFlow (s : Scan) : Bool := !s.outer.isEmpty

/-- The deepest nesting of brackets. -/
def maxDepth : Nat := 255

/-- Append a token and move on. -/
def emit (s : Scan) (token : Token) (next : Cursor) : Scan :=
  { s with tokens := s.tokens.push token, cursor := next }

/-- Permit or forbid a key at the next token. -/
def allowKey (s : Scan) (allowed : Bool) : Scan := { s with keyAllowed := allowed }

/-! ## Candidates for keys -/

/-- Give up a candidate that has no other reading only with an error. -/
def dropCandidate : Option KeyCandidate → Option (Option KeyCandidate)
  | some candidate => if candidate.required then none else some none
  | none => some none

/-- Give up the candidate inside the innermost brackets. -/
def forgetCandidate (s : Scan) : Option Scan :=
  (dropCandidate s.candidate).map fun candidate => { s with candidate := candidate }

/-- Whether a colon at a place comes too late for a candidate. -/
def KeyCandidate.isStale (candidate : KeyCandidate) (c : Cursor) : Bool :=
  decide (candidate.line < c.line) || decide (candidate.index + 1024 < c.index)

/-- Give up all candidates for which a colon would come too late. -/
def dropStale (s : Scan) : Option Scan := do
  let check (candidate : Option KeyCandidate) : Option (Option KeyCandidate) :=
    if candidate.any (KeyCandidate.isStale · s.cursor) then dropCandidate candidate
    else some candidate
  let candidate ← check s.candidate
  let outer ← s.outer.mapM check
  return { s with candidate := candidate, outer := outer }

/-- Remember the token that starts here as a candidate, where a key is permitted. -/
def saveCandidate (s : Scan) : Option Scan :=
  if s.keyAllowed then
    s.forgetCandidate.map fun s =>
      { s with
        candidate := some
          { tokenIndex := s.tokens.size
            index := s.cursor.index
            line := s.cursor.line
            column := s.cursor.column
            required := s.inFlow && s.indents.head? == some s.cursor.column } }
  else some s

/-! ## Indentation -/

/-- Open a block collection when the column is further right than the innermost one. -/
def openBlock (s : Scan) (column position : Nat) (token : Token) : Scan :=
  if s.inFlow || s.indents.head?.any (column ≤ ·) then s
  else
    { s with
      indents := column :: s.indents
      tokens := s.tokens.insertIdxIfInBounds position token }

/-- Close the block collections further right than a column, or all of them. -/
def closeBlocks (s : Scan) (column : Option Nat) : Scan :=
  if s.inFlow then s
  else
    let closed (indent : Nat) : Bool := column.all (· < indent)
    { s with
      indents := s.indents.dropWhile closed
      tokens := s.tokens ++ (s.indents.takeWhile closed).map fun _ => Token.blockEnd }

/-! ## Between tokens -/

/-- Skip blanks, comments and line ends; outside brackets a key may start on a new line.  A tab is
skipped only where no key may start. -/
def skipFillFrom : (fuel : Nat) → Scan → Scan
  | 0, s => s
  | fuel + 1, s =>
      match s.cursor.rest with
      | ' ' :: _ => skipFillFrom fuel { s with cursor := s.cursor.advance }
      | '#' :: _ => skipFillFrom fuel { s with cursor := s.cursor.advanceWhile (!isBreak ·) }
      | '\t' :: _ =>
          if s.inFlow || !s.keyAllowed then
            skipFillFrom fuel { s with cursor := s.cursor.advance }
          else s
      | c :: _ =>
          if isBreak c then
            skipFillFrom fuel
              { s with
                cursor := s.cursor.advanceBreak
                keyAllowed := s.keyAllowed || !s.inFlow }
          else s
      | [] => s

/-- Skip to the start of the next token. -/
def skipFill (s : Scan) : Scan := skipFillFrom (s.cursor.rest.length + 1) s

/-! ## Directives and tags -/

/-- Skip a number of at most nine digits. -/
def versionNumber? (c : Cursor) : Option Cursor :=
  let digits := c.ahead Char.isDigit
  if digits.isEmpty || digits.length > 9 then none else some (c.advanceBy digits.length)

/-- Skip the two numbers of a version. -/
def version? (c : Cursor) : Option Cursor := do
  let c ← versionNumber? (c.advanceWhile isBlank)
  guard (c.rest.head? = some '.')
  versionNumber? c.advance

/-- Read the handle of a tag: a mark, a name, and a second mark if there is one. -/
def tagHandle? (c : Cursor) : Option (List Char × Cursor) :=
  if c.rest.head? = some '!' then
    let name := c.advance.ahead isNameChar
    let c := c.advance.advanceBy name.length
    if c.rest.head? = some '!' then some ('!' :: name ++ ['!'], c.advance)
    else some ('!' :: name, c)
  else none

/-- A character of the rest of a tag. -/
def isTagChar (c : Char) : Bool := isNameChar c || ";/?:@&=+$,.!~*'()[]".toList.contains c

/-- The number of octets of a character whose encoding starts with the given one. -/
def octetCount? (octet : Nat) : Option Nat :=
  if octet < 0x80 then some 1
  else if octet < 0xc0 then none
  else if octet < 0xe0 then some 2
  else if octet < 0xf0 then some 3
  else if octet < 0xf8 then some 4
  else none

/-- Read an octet that is written with a percent sign. -/
def octet? (c : Cursor) : Option (Nat × Cursor) :=
  match c.rest with
  | '%' :: high :: low :: _ => (Digit.number? 16 [high, low]).map (·, c.advanceBy 3)
  | _ => none

/-- Read octets that continue a character. -/
def trailingOctets? : (count value : Nat) → Cursor → Option (Nat × Cursor)
  | 0, value, c => some (value, c)
  | count + 1, value, c => do
      let (octet, c) ← octet? c
      guard (0x80 ≤ octet ∧ octet < 0xc0)
      trailingOctets? count (256 * value + octet) c

/-- Read a character that is written as octets; its number is the octets put together. -/
def escapedChar? (c : Cursor) : Option (Char × Cursor) := do
  let (first, c) ← octet? c
  let count ← octetCount? first
  let (n, c) ← trailingOctets? (count - 1) first c
  if n.isValidChar then some (Char.ofNat n, c) else none

/-- Read the rest of a tag. -/
def tagRestFrom : (fuel : Nat) → Cursor → Option (List Char × Cursor)
  | 0, _ => none
  | fuel + 1, c =>
      match c.rest with
      | [] => some ([], c)
      | char :: _ =>
          if char == '%' then do
            let (char, c) ← escapedChar? c
            let (text, c) ← tagRestFrom fuel c
            return (char :: text, c)
          else if isTagChar char then
            (tagRestFrom fuel c.advance).map fun (text, c) => (char :: text, c)
          else some ([], c)

/-- Read the rest of a tag. -/
def tagRest? (c : Cursor) : Option (List Char × Cursor) := tagRestFrom (c.rest.length + 1) c

/-- Skip the handle and the meaning that a directive gives it. -/
def tagMeaning? (c : Cursor) : Option Cursor := do
  let (handle, c) ← tagHandle? (c.advanceWhile isBlank)
  guard (handle.length = 1 ∨ (1 < handle.length ∧ handle.getLast? = some '!'))
  let (meaning, c) ← tagRest? (c.advanceWhile isBlank)
  guard (!meaning.isEmpty && endsWord c.rest)
  return c

/-- Skip a directive.  Directives of an unknown name are skipped unseen. -/
def directive? (c : Cursor) : Option Cursor := do
  let name := c.advance.ahead isNameChar
  let c := c.advance.advanceBy name.length
  guard (!name.isEmpty && endsWord c.rest)
  let c ←
    if name = "YAML".toList then version? c
    else if name = "TAG".toList then tagMeaning? c
    else some (c.advanceWhile (!isBreak ·))
  c.lineEnd?

/-- Read a tag.  Only the handle of two marks stands for the core schema. -/
def tag? (c : Cursor) : Option (Tag × Cursor) := do
  let (tag, c) ←
    match c.rest with
    | '!' :: '<' :: _ => do
        let (meaning, c) ← tagRest? (c.advanceBy 2)
        guard (!meaning.isEmpty && decide (c.rest.head? = some '>'))
        pure (Tag.custom, c.advance)
    | _ => do
        let (handle, c) ← tagHandle? c
        let (name, c) ← tagRest? c
        if 1 < handle.length ∧ handle.getLast? = some '!' then
          guard (!name.isEmpty)
          pure (if handle = ['!', '!'] then Tag.core (String.ofList name) else Tag.custom, c)
        else pure (Tag.custom, c)
  guard (endsWord c.rest)
  return (tag, c)

/-- Read the name of an anchor. -/
def anchorName? (c : Cursor) : Option (String × Cursor) :=
  let name := c.advance.ahead isNameChar
  let c := c.advance.advanceBy name.length
  let ends := endsWord c.rest || c.rest.head?.any ("?:,]\x7d%@\x60".toList.contains ·)
  if !name.isEmpty && ends then some (String.ofList name, c) else none

/-! ## Tokens -/

/-- A directive or a mark between documents, which closes all block collections. -/
def betweenDocuments (s : Scan) (token : Token) (next : Cursor) : Option Scan :=
  (s.closeBlocks none).forgetCandidate.map fun s => (s.allowKey false).emit token next

/-- An opening bracket. -/
def openFlow (s : Scan) (token : Token) : Option Scan := do
  let s ← s.saveCandidate
  guard (s.outer.length < maxDepth)
  let s := { s with candidate := none, outer := s.candidate :: s.outer }
  return (s.allowKey true).emit token s.cursor.advance

/-- A closing bracket; its kind is checked later. -/
def closeFlow (s : Scan) (token : Token) : Option Scan := do
  let s ← s.forgetCandidate
  let s :=
    match s.outer with
    | candidate :: outer => { s with candidate := candidate, outer := outer }
    | [] => s
  return (s.allowKey false).emit token s.cursor.advance

/-- A comma. -/
def flowEntry (s : Scan) : Option Scan := do
  let s ← s.forgetCandidate
  return (s.allowKey true).emit .flowEntry s.cursor.advance

/-- A dash in front of an element. -/
def blockEntry (s : Scan) : Option Scan := do
  guard (!s.inFlow && s.keyAllowed)
  let s ← (s.openBlock s.cursor.column s.tokens.size .blockSequence).forgetCandidate
  return (s.allowKey true).emit .blockEntry s.cursor.advance

/-- A question mark in front of a key. -/
def explicitKey (s : Scan) : Option Scan := do
  guard (s.inFlow || s.keyAllowed)
  let s ← (s.openBlock s.cursor.column s.tokens.size .blockMapping).forgetCandidate
  return (s.allowKey (!s.inFlow)).emit .key s.cursor.advance

/-- A colon in front of a value. -/
def value (s : Scan) : Option Scan :=
  match s.candidate with
  | some candidate =>
      let s := { s with
        candidate := none
        tokens := s.tokens.insertIdxIfInBounds candidate.tokenIndex .key }
      let s := s.openBlock candidate.column candidate.tokenIndex .blockMapping
      some ((s.allowKey false).emit .value s.cursor.advance)
  | none => do
      guard (s.inFlow || s.keyAllowed)
      let s := s.openBlock s.cursor.column s.tokens.size .blockMapping
      return (s.allowKey (!s.inFlow)).emit .value s.cursor.advance

/-- An anchor. -/
def anchor (s : Scan) (token : String → Token) : Option Scan := do
  let s ← s.saveCandidate
  let (name, next) ← anchorName? s.cursor
  return (s.allowKey false).emit (token name) next

/-- A tag. -/
def tag (s : Scan) : Option Scan := do
  let s ← s.saveCandidate
  let (tag, next) ← tag? s.cursor
  return (s.allowKey false).emit (.tag tag) next

/-- A plain scalar. -/
def plain (s : Scan) : Option Scan := do
  let s ← s.saveCandidate
  let indent := (s.indents.head?.map (· + 1)).getD 0
  let found ← plain? s.inFlow indent s.cursor
  return (s.allowKey found.endsLine).emit (.scalar .plain (String.ofList found.text)) found.next

/-- A quoted scalar. -/
def quoted (s : Scan) (double : Bool) : Option Scan := do
  let s ← s.saveCandidate
  let (text, next) ← quoted? double s.cursor
  let s := (s.allowKey false).emit (.scalar .quoted (String.ofList text)) next
  return { s with adjacentAt := some next.index }

/-- A block scalar. -/
def block (s : Scan) (literal : Bool) : Option Scan := do
  let s ← s.saveCandidate
  let (text, next) ← block? literal s.indents.head? s.cursor
  return (s.allowKey true).emit (.scalar .block (String.ofList text)) next

/-- Whether a colon in front of a text starts a value. -/
def startsValue (s : Scan) (rest : List Char) : Bool :=
  endsWord rest
    || (s.inFlow && (rest.head?.any isFlowMark || s.adjacentAt == some s.cursor.index))

/-- The token that starts with the given character. -/
def token (s : Scan) (char : Char) (rest : List Char) : Option Scan :=
  match char with
  | '[' => s.openFlow .flowSequence
  | '\x7b' => s.openFlow .flowMapping
  | ']' => s.closeFlow .flowSequenceEnd
  | '\x7d' => s.closeFlow .flowMappingEnd
  | ',' => s.flowEntry
  | '-' => if endsWord rest then s.blockEntry else s.plain
  | '?' => if endsWord rest then s.explicitKey else s.plain
  | ':' => if s.startsValue rest then s.value else s.plain
  | '*' => s.anchor .alias
  | '&' => s.anchor .anchor
  | '!' => s.tag
  | '|' => if s.inFlow then s.plain else s.block true
  | '>' => if s.inFlow then s.plain else s.block false
  | '\'' => s.quoted false
  | '"' => s.quoted true
  | '%' => none
  | '@' => none
  | '\x60' => none
  | _ => s.plain

/-- The token at the cursor; marks between documents stand at the start of a line. -/
def next (s : Scan) : Option Scan :=
  match s.cursor.rest with
  | [] => some s
  | char :: rest =>
      if s.cursor.column = 0 ∧ char = '%' then do
        s.betweenDocuments .directive (← directive? s.cursor)
      else if s.cursor.atMark '-' then s.betweenDocuments .documentStart (s.cursor.advanceBy 3)
      else if s.cursor.atMark '.' then s.betweenDocuments .documentEnd (s.cursor.advanceBy 3)
      else s.token char rest

/-- Cut the rest of a text; every token takes at least one character. -/
def run : (fuel : Nat) → Scan → Option (List Token)
  | 0, _ => none
  | fuel + 1, s => do
      let s ← s.skipFill.dropStale
      let s := s.closeBlocks (some s.cursor.column)
      if s.cursor.rest.isEmpty then
        let s ← (s.closeBlocks none).forgetCandidate
        return s.tokens.toList
      else
        run fuel (← s.next)

end Scan

/-- The tokens of a text. -/
def tokens? (text : String) : Option (List Token) :=
  let s := Scan.start text
  s.run (s.cursor.rest.length + 1)

end Surety.Yaml
