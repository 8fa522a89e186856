import Surety.Yaml.Token

/-!
# YAML nodes

The tree that the tokens of one document describe.  An alias stands for the node that its anchor
names; inside that node, which is then a collection, it stands for a collection that is still open.
A text holds one document, and whatever follows it is refused.
-/

namespace Surety.Yaml

/-- A node of a document. -/
inductive Node where
  | scalar (style : Style) (tag : Option Tag) (text : String)
  | list (items : List Node)
  | map (entries : List (Node × Node))
  /-- a collection that contains this reference to it -/
  | enclosing

namespace Node

/-- The value that is left out. -/
def missing : Node := .scalar .plain none "~"

/-- The anchors of a document: latest first, with the nodes that are complete. -/
abbrev Anchors := List (String × Option Node)

/-- The tokens that are left and the anchors seen so far. -/
structure Source where
  tokens : List Token
  anchors : Anchors

namespace Source

/-- The source without its first token. -/
def skip (s : Source) : Source := { s with tokens := s.tokens.tail }

/-- The node that an alias stands for. -/
def resolve? (s : Source) (name : String) : Option Node :=
  (s.anchors.find? (·.1 == name)).map fun anchor => anchor.2.getD .enclosing

/-- Open an anchor whose node is about to be read. -/
def openAnchor (s : Source) (name : String) : Source :=
  { s with anchors := (name, none) :: s.anchors }

/-- Complete the anchor that was opened as the one after `count` others. -/
def closeAnchor (s : Source) (count : Nat) (node : Node) : Source :=
  { s with
    anchors := s.anchors.modify (s.anchors.length - 1 - count) fun anchor => (anchor.1, some node) }

end Source

/-- What stands in front of the content of a node. -/
structure Properties where
  anchor : Option String
  tag : Option Tag

/-- Read an anchor and a tag in either order. -/
def properties : List Token → Properties × List Token
  | .anchor name :: .tag tag :: rest => (⟨some name, some tag⟩, rest)
  | .anchor name :: rest => (⟨some name, none⟩, rest)
  | .tag tag :: .anchor name :: rest => (⟨some name, some tag⟩, rest)
  | .tag tag :: rest => (⟨none, some tag⟩, rest)
  | tokens => (⟨none, none⟩, tokens)

/-- Where a node stands, which decides how it may be written. -/
inductive Place where
  /-- inside brackets -/
  | flow
  | block
  /-- behind a key, where the elements of a list need no indentation -/
  | behindKey
  deriving DecidableEq

/-- Whether the value that should come next is left out. -/
def isMissing (ends : List Token) : List Token → Bool
  | [] => false
  | token :: _ => ends.contains token

mutual

/-- Read a node. -/
def read (place : Place) : (fuel : Nat) → Source → Option (Node × Source)
  | 0, _ => none
  | fuel + 1, s =>
      match s.tokens with
      | .alias name :: _ => (s.resolve? name).map (·, s.skip)
      | tokens => do
          let (properties, rest) := properties tokens
          let count := s.anchors.length
          let s := { s with tokens := rest }
          match properties.anchor with
          | none => readContent place properties fuel s
          | some name =>
              let (node, s) ← readContent place properties fuel (s.openAnchor name)
              return (node, s.closeAnchor count node)

/-- Read the content of a node; behind an anchor or a tag it may be missing. -/
def readContent (place : Place) (properties : Properties) :
    (fuel : Nat) → Source → Option (Node × Source)
  | 0, _ => none
  | fuel + 1, s =>
      let absent : Option (Node × Source) :=
        if properties.anchor.isSome || properties.tag.isSome then
          some (.scalar .plain properties.tag "", s)
        else none
      match s.tokens with
      | .scalar style text :: _ => some (.scalar style properties.tag text, s.skip)
      | .flowSequence :: _ => readFlowItems true fuel s.skip []
      | .flowMapping :: _ => readFlowEntries true fuel s.skip []
      | .blockSequence :: _ => if place = .flow then absent else readItems fuel s.skip []
      | .blockMapping :: _ => if place = .flow then absent else readEntries fuel s.skip []
      | .blockEntry :: _ => if place = .behindKey then readAlignedItems fuel s [] else absent
      | _ => absent

/-- Read the elements of an indented list. -/
def readItems : (fuel : Nat) → Source → List Node → Option (Node × Source)
  | 0, _, _ => none
  | fuel + 1, s, items =>
      match s.tokens with
      | .blockEnd :: _ => some (.list items, s.skip)
      | .blockEntry :: rest => do
          if isMissing [.blockEntry, .blockEnd] rest then
            readItems fuel s.skip (items ++ [missing])
          else
            let (item, s) ← read .block fuel s.skip
            readItems fuel s (items ++ [item])
      | _ => none

/-- Read the elements of a list that is not indented, up to anything else. -/
def readAlignedItems : (fuel : Nat) → Source → List Node → Option (Node × Source)
  | 0, _, _ => none
  | fuel + 1, s, items =>
      match s.tokens with
      | .blockEntry :: rest => do
          if isMissing [.blockEntry, .key, .value, .blockEnd] rest then
            readAlignedItems fuel s.skip (items ++ [missing])
          else
            let (item, s) ← read .block fuel s.skip
            readAlignedItems fuel s (items ++ [item])
      | _ => some (.list items, s)

/-- Read the entries of an indented map. -/
def readEntries : (fuel : Nat) → Source → List (Node × Node) → Option (Node × Source)
  | 0, _, _ => none
  | fuel + 1, s, entries =>
      match s.tokens with
      | .blockEnd :: _ => some (.map entries, s.skip)
      | .key :: rest => do
          if isMissing [.key, .value, .blockEnd] rest then
            let (value, s) ← readValue fuel s.skip
            readEntries fuel s (entries ++ [(missing, value)])
          else
            let (key, s) ← read .behindKey fuel s.skip
            let (value, s) ← readValue fuel s
            readEntries fuel s (entries ++ [(key, value)])
      | .value :: _ => do
          let (value, s) ← readValue fuel s
          readEntries fuel s (entries ++ [(missing, value)])
      | _ => none

/-- Read the value of an entry of an indented map. -/
def readValue : (fuel : Nat) → Source → Option (Node × Source)
  | 0, _ => none
  | fuel + 1, s =>
      match s.tokens with
      | .value :: rest =>
          if isMissing [.key, .value, .blockEnd] rest then some (missing, s.skip)
          else read .behindKey fuel s.skip
      | _ => some (missing, s)

/-- Read the elements of a list in brackets.  An element may be a single entry of a map. -/
def readFlowItems (first : Bool) :
    (fuel : Nat) → Source → List Node → Option (Node × Source)
  | 0, _, _ => none
  | fuel + 1, s, items =>
      match s.tokens with
      | .flowSequenceEnd :: _ => some (.list items, s.skip)
      | tokens => do
          let s ←
            if first then some s
            else if tokens.head? = some .flowEntry then some s.skip
            else none
          match s.tokens with
          | .flowSequenceEnd :: _ => return (.list items, s.skip)
          | .key :: rest =>
              if isMissing [.value, .flowEntry, .flowSequenceEnd] rest then
                let (value, s) ← readFlowValue [.flowEntry, .flowSequenceEnd] fuel s.skip.skip
                readFlowItems false fuel s (items ++ [.map [(missing, value)]])
              else
                let (key, s) ← read .flow fuel s.skip
                let (value, s) ← readFlowValue [.flowEntry, .flowSequenceEnd] fuel s
                readFlowItems false fuel s (items ++ [.map [(key, value)]])
          | _ =>
              let (item, s) ← read .flow fuel s
              readFlowItems false fuel s (items ++ [item])

/-- Read the entries of a map in braces.  A key may stand alone. -/
def readFlowEntries (first : Bool) :
    (fuel : Nat) → Source → List (Node × Node) → Option (Node × Source)
  | 0, _, _ => none
  | fuel + 1, s, entries =>
      match s.tokens with
      | .flowMappingEnd :: _ => some (.map entries, s.skip)
      | tokens => do
          let s ←
            if first then some s
            else if tokens.head? = some .flowEntry then some s.skip
            else none
          match s.tokens with
          | .flowMappingEnd :: _ => return (.map entries, s.skip)
          | .key :: rest =>
              if isMissing [.value, .flowEntry, .flowMappingEnd] rest then
                let (value, s) ← readFlowValue [.flowEntry, .flowMappingEnd] fuel s.skip
                readFlowEntries false fuel s (entries ++ [(missing, value)])
              else
                let (key, s) ← read .flow fuel s.skip
                let (value, s) ← readFlowValue [.flowEntry, .flowMappingEnd] fuel s
                readFlowEntries false fuel s (entries ++ [(key, value)])
          | .value :: _ =>
              let (value, s) ← readFlowValue [.flowEntry, .flowMappingEnd] fuel s
              readFlowEntries false fuel s (entries ++ [(missing, value)])
          | _ =>
              let (key, s) ← read .flow fuel s
              readFlowEntries false fuel s (entries ++ [(key, missing)])

/-- Read the value of an entry inside brackets, which one of the given tokens ends. -/
def readFlowValue (ends : List Token) : (fuel : Nat) → Source → Option (Node × Source)
  | 0, _ => none
  | fuel + 1, s =>
      match s.tokens with
      | .value :: rest =>
          if isMissing ends rest then some (missing, s.skip) else read .flow fuel s.skip
      | _ => some (missing, s)

end

/-- Skip the marks that end documents. -/
def skipEnds : List Token → List Token
  | .documentEnd :: rest => skipEnds rest
  | tokens => tokens

/-- Read the content of a document that starts with a mark; it may be missing. -/
def readMarked (fuel : Nat) (tokens : List Token) : Option (Node × Source) :=
  match tokens with
  | [] => some (missing, ⟨[], []⟩)
  | token :: _ =>
      if [Token.directive, .documentStart, .documentEnd].contains token then
        some (missing, ⟨tokens, []⟩)
      else read .block fuel ⟨tokens, []⟩

/-- The node of the only document of some tokens.  A document that starts with directives has to have
a mark; a text without content has no document. -/
def ofTokens? (tokens : List Token) : Option Node := do
  let fuel := 3 * tokens.length + 4
  let (node, s) ←
    match tokens with
    | [] => none
    | .directive :: _ =>
        match tokens.dropWhile (· == .directive) with
        | .documentStart :: rest => readMarked fuel rest
        | _ => none
    | .documentStart :: rest => readMarked fuel rest
    | tokens => read .block fuel ⟨tokens, []⟩
  guard (skipEnds s.tokens).isEmpty
  return node

/-- The node of the only document of a text. -/
def ofText? (text : String) : Option Node := (tokens? text).bind ofTokens?

end Node

end Surety.Yaml
