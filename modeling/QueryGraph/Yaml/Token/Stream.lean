import QueryGraph.Yaml.Token.Properties
import QueryGraph.Yaml.Scalar.Plain
import QueryGraph.Yaml.Scalar.Quoted
import QueryGraph.Yaml.Scalar.Block

/-!
# From characters to tokens

`TokenStream.ofText` reads a whole text. Two rules make it more than a lexer. In block
context the column of a token opens and closes collections. And anything that
may be a key is remembered until its line ends, because only the colon after it
shows that a key token has to stand before it.

A token is released once no key token can come to stand before it. What was released
before a defect was met is still read, and the defect comes after it.
-/

namespace QueryGraph
namespace Yaml

/-- A token that becomes a key if a colon follows. -/
structure KeyCandidate where
  /-- Where the key token would be inserted. -/
  position : Nat
  /-- Whether the token can be nothing but a key. -/
  required : Bool
  mark : Mark
  deriving Repr

/-- The state between two tokens. -/
structure Lexer where
  cursor : Cursor
  tokens : Array Lexeme := #[]
  /-- Column of the innermost block collection; `-1` outside of every one. -/
  indent : Int := -1
  /-- Columns of the enclosing block collections, innermost first. -/
  outer : List Int := []
  /-- The key candidates of the enclosing flow collections, innermost first,
  each with the state that its collection interrupted. -/
  flows : List (Option KeyCandidate) := []
  /-- The key candidate of the innermost collection. -/
  candidate : Option KeyCandidate := none
  /-- Whether a key may begin here. -/
  keyAllowed : Bool := true
  /-- Whether the whole text is read. -/
  ended : Bool := false

namespace Lexer

/-- Whether the innermost collection is a flow collection. -/
def inFlow (lexer : Lexer) : Bool :=
  !lexer.flows.isEmpty

/-- The column of the next character. -/
def column (lexer : Lexer) : Int :=
  lexer.cursor.mark.column

/-- Adds a token that ends at a cursor. -/
def emit (lexer : Lexer) (token : Token) (cursor : Cursor) : Lexer :=
  { lexer with
    tokens := lexer.tokens.push ⟨token, lexer.cursor.mark, cursor.mark⟩
    cursor := cursor }

/-- Adds an indicator token and skips its characters. -/
def indicator
    (lexer : Lexer)
    (token : Token)
    (length : Nat) : Lexer :=
  lexer.emit token (lexer.cursor.drop length)

/-- Closes the block collections that are indented beyond a column. -/
def closeBlocks
    (mark : Mark)
    (column : Int) :
    List Int -> Int -> Array Lexeme -> Int × List Int × Array Lexeme
  | [], indent, tokens => (indent, [], tokens)
  | next :: outer, indent, tokens =>
      if column < indent then
        closeBlocks mark column outer next (tokens.push ⟨.blockEnd, mark, mark⟩)
      else (indent, next :: outer, tokens)

/-- Closes the block collections that end before a column. Inside a flow
collection indentation has no meaning. -/
def unroll (lexer : Lexer) (column : Int) : Lexer :=
  if lexer.inFlow then lexer
  else
    let (indent, outer, tokens) :=
      closeBlocks lexer.cursor.mark column lexer.outer lexer.indent lexer.tokens
    { lexer with indent := indent, outer := outer, tokens := tokens }

/-- Opens a block collection when the column of a place is indented beyond the innermost
one. Its start token is inserted at the given position. -/
def roll
    (lexer : Lexer)
    (mark : Mark)
    (position : Nat)
    (start : Token) : Lexer :=
  if lexer.inFlow || (mark.column : Int) ≤ lexer.indent then lexer
  else
    { lexer with
      indent := mark.column
      outer := lexer.indent :: lexer.outer
      tokens := lexer.tokens.insertIdxIfInBounds position ⟨start, mark, mark⟩ }

/-- Opens a block collection at the next character. -/
def rollHere (lexer : Lexer) (start : Token) : Lexer :=
  lexer.roll lexer.cursor.mark lexer.tokens.size start

/-- Gives up the key candidate of the innermost collection. -/
def dropCandidate (lexer : Lexer) : Except Defect Lexer :=
  match lexer.candidate with
  | some candidate =>
      if candidate.required then
        .error (.during .simpleKey candidate.mark lexer.cursor.mark .missingColon)
      else .ok { lexer with candidate := none }
  | none => .ok lexer

/-- Whether a candidate is still on its line and near enough to be a key. A key has
at most 1024 bytes. -/
def isFresh (mark : Mark) (candidate : KeyCandidate) : Bool :=
  candidate.mark.line == mark.line && mark.index ≤ candidate.mark.index + 1024

/-- Gives up a candidate that is no longer fresh. -/
def refresh
    (mark : Mark) : Option KeyCandidate -> Except Defect (Option KeyCandidate)
  | none => .ok none
  | some candidate =>
      if isFresh mark candidate then .ok (some candidate)
      else if candidate.required then
        .error (.during .simpleKey candidate.mark mark .missingColon)
      else .ok none

/-- Gives up every candidate that is no longer fresh. -/
def dropStale (lexer : Lexer) : Except Defect Lexer := do
  let candidate ← refresh lexer.cursor.mark lexer.candidate
  let flows ← lexer.flows.mapM (refresh lexer.cursor.mark)
  return { lexer with candidate := candidate, flows := flows }

/-- Remembers that the next token may be a key. -/
def saveCandidate (lexer : Lexer) : Except Defect Lexer :=
  if lexer.keyAllowed then do
    let required := !lexer.inFlow && lexer.indent == lexer.column
    let lexer ← lexer.dropCandidate
    return { lexer with
      candidate := some ⟨lexer.tokens.size, required, lexer.cursor.mark⟩ }
  else .ok lexer

/-- Skips blanks, comments and line breaks between tokens, and a byte order mark
that begins a line. A tab may separate tokens but not indent a line that could
begin a key. -/
def skipFrom
    (inFlow : Bool) :
    (rest : List Char) ->
    (mark : Mark) ->
    (keyAllowed : Bool) ->
    (inComment : Bool) ->
    Cursor × Bool
  | [], mark, keyAllowed, _ => (⟨[], mark⟩, keyAllowed)
  | character :: rest, mark, keyAllowed, inComment =>
      let next := mark.next character
      if isBreak character then skipFrom inFlow rest next (keyAllowed || !inFlow) false
      else if inComment || character == '#' then skipFrom inFlow rest next keyAllowed true
      else if character == ' ' || (character == '\t' && (inFlow || !keyAllowed)) ||
          (character == '\ufeff' && mark.column == 0) then
        skipFrom inFlow rest next keyAllowed false
      else (⟨character :: rest, mark⟩, keyAllowed)

/-- Moves to the next token. -/
def skipBlanks (lexer : Lexer) : Lexer :=
  let (cursor, keyAllowed) :=
    skipFrom lexer.inFlow lexer.cursor.rest lexer.cursor.mark lexer.keyAllowed false
  { lexer with cursor := cursor, keyAllowed := keyAllowed }

/-- Opens a flow collection. -/
def openFlow (lexer : Lexer) (token : Token) : Except Defect Lexer := do
  let lexer ← lexer.saveCandidate
  return { lexer with
    flows := lexer.candidate :: lexer.flows
    candidate := none
    keyAllowed := true }.indicator token 1

/-- Closes a flow collection. -/
def closeFlow (lexer : Lexer) (token : Token) : Except Defect Lexer := do
  let lexer ← lexer.dropCandidate
  let lexer :=
    match lexer.flows with
    | [] => lexer
    | candidate :: flows => { lexer with candidate := candidate, flows := flows }
  return { lexer with keyAllowed := false }.indicator token 1

/-- Reads the hyphen before an entry of a block sequence. -/
def blockEntry (lexer : Lexer) : Except Defect Lexer := do
  let lexer ←
    if lexer.inFlow then .ok lexer
    else if lexer.keyAllowed then
      .ok (lexer.rollHere .blockSequenceStart)
    else .error { fault := .misplacedEntry, mark := lexer.cursor.mark }
  let lexer ← lexer.dropCandidate
  return { lexer with keyAllowed := true }.indicator .blockEntry 1

/-- Reads the question mark before a key. -/
def keyIndicator (lexer : Lexer) : Except Defect Lexer := do
  let lexer ←
    if lexer.inFlow then .ok lexer
    else if lexer.keyAllowed then
      .ok (lexer.rollHere .blockMappingStart)
    else .error { fault := .misplacedKey, mark := lexer.cursor.mark }
  let lexer ← lexer.dropCandidate
  return { lexer with keyAllowed := !lexer.inFlow }.indicator .key 1

/-- Reads the colon before a value, and inserts the key token that was missing
before the candidate. -/
def valueIndicator (lexer : Lexer) : Except Defect Lexer :=
  match lexer.candidate with
  | some candidate =>
      let key : Lexeme := ⟨.key, candidate.mark, candidate.mark⟩
      let lexer :=
        { lexer with
          tokens := lexer.tokens.insertIdxIfInBounds candidate.position key }
      let lexer := lexer.roll candidate.mark candidate.position .blockMappingStart
      .ok ({ lexer with candidate := none, keyAllowed := false }.indicator .value 1)
  | none => do
      let lexer ←
        if lexer.inFlow then .ok lexer
        else if lexer.keyAllowed then
          .ok (lexer.rollHere .blockMappingStart)
        else .error { fault := .misplacedValue, mark := lexer.cursor.mark }
      return { lexer with keyAllowed := !lexer.inFlow }.indicator .value 1

/-- Adds a token that may be, or may stand before, a key. -/
def property
    (lexer : Lexer)
    (read : Cursor -> Except Defect (Token × Cursor)) : Except Defect Lexer := do
  let lexer ← lexer.saveCandidate
  let (token, cursor) ← read lexer.cursor
  return { lexer with keyAllowed := false }.emit token cursor

/-- Adds a plain scalar. -/
def plainScalar (lexer : Lexer) : Except Defect Lexer := do
  let lexer ← lexer.saveCandidate
  let scalar ← lexer.cursor.plainScalar lexer.inFlow (lexer.indent + 1).toNat
  return { lexer with keyAllowed := scalar.broken }.emit (.scalar .plain scalar.text)
    scalar.cursor

/-- Adds a block scalar. -/
def blockScalar (lexer : Lexer) (style : Style) : Except Defect Lexer := do
  let lexer ← lexer.dropCandidate
  let (text, cursor) ← lexer.cursor.blockScalar (style == .folded) lexer.indent
  return { lexer with keyAllowed := true }.emit (.scalar style text) cursor

/-- Ends every block collection before a document marker or directive. -/
def leaveBlocks (lexer : Lexer) : Except Defect Lexer := do
  let lexer ← (lexer.unroll (-1)).dropCandidate
  return { lexer with keyAllowed := false }

/-- Whether a character begins a plain scalar, given the text after it. -/
def beginsPlain
    (inFlow : Bool)
    (character : Char)
    (rest : List Char) : Bool :=
  if character == '-' then !(rest.head?.any isBlank)
  else if character == '?' || character == ':' then !inFlow && !startsBlank rest
  else
    !(isBlank character || isFlowIndicator character ||
      "#&*!|>'\"%@".contains character || character == '\x60')

/-- Reads the next token, which begins with the given character. -/
def token
    (lexer : Lexer)
    (character : Char)
    (rest : List Char) : Except Defect Lexer :=
  if lexer.cursor.mark.column == 0 && character == '%' then do
    let lexer ← lexer.leaveBlocks
    let (token, cursor) ← lexer.cursor.directive
    return lexer.emit token cursor
  else if lexer.cursor.atMarker '-' then
    return (← lexer.leaveBlocks).indicator .documentStart 3
  else if lexer.cursor.atMarker '.' then
    return (← lexer.leaveBlocks).indicator .documentEnd 3
  else if character == '[' then lexer.openFlow .flowSequenceStart
  else if character == '\x7b' then lexer.openFlow .flowMappingStart
  else if character == ']' then lexer.closeFlow .flowSequenceEnd
  else if character == '\x7d' then lexer.closeFlow .flowMappingEnd
  else if character == ',' then do
    let lexer ← lexer.dropCandidate
    return { lexer with keyAllowed := true }.indicator .flowEntry 1
  else if character == '-' && startsBlank rest then lexer.blockEntry
  else if character == '?' && (lexer.inFlow || startsBlank rest) then lexer.keyIndicator
  else if character == ':' && (lexer.inFlow || startsBlank rest) then lexer.valueIndicator
  else if character == '*' then
    lexer.property fun cursor => do
      let (name, cursor) ← cursor.anchorName .reference
      return (.reference name, cursor)
  else if character == '&' then
    lexer.property fun cursor => do
      let (name, cursor) ← cursor.anchorName .anchor
      return (.anchor name, cursor)
  else if character == '!' then
    lexer.property fun cursor => do
      let (tag, cursor) ← cursor.tagText lexer.inFlow
      return (.tag tag, cursor)
  else if character == '|' && !lexer.inFlow then lexer.blockScalar .literal
  else if character == '>' && !lexer.inFlow then lexer.blockScalar .folded
  else if character == '\'' then
    lexer.property fun cursor => do
      let (text, cursor) ← cursor.quotedScalar .single
      return (.scalar .quoted text, cursor)
  else if character == '"' then
    lexer.property fun cursor => do
      let (text, cursor) ← cursor.quotedScalar .double
      return (.scalar .quoted text, cursor)
  else if beginsPlain lexer.inFlow character rest then lexer.plainScalar
  else .error (.during .token lexer.cursor.mark lexer.cursor.mark .unexpectedCharacter)

/-- Ends the stream: every line is over and every block is closed. -/
def finish (lexer : Lexer) : Except Defect Lexer := do
  let mark := lexer.cursor.mark
  let stop : Mark := if mark.column == 0 then mark else ⟨mark.index, mark.line + 1, 0⟩
  let lexer ← ({ lexer with cursor := ⟨[], stop⟩ }.unroll (-1)).dropCandidate
  return { lexer with keyAllowed := false, ended := true }.indicator .streamEnd 0

/-- Reads the next token, and the block ends before it. -/
def fetch (lexer : Lexer) : Except Defect Lexer := do
  let lexer ← lexer.skipBlanks.dropStale
  let lexer := lexer.unroll lexer.column
  match lexer.cursor.rest with
  | [] => lexer.finish
  | character :: rest => lexer.token character rest

/-- Whether a key token may still come to stand before the token at a position. -/
def awaitsKey (lexer : Lexer) (position : Nat) : Bool :=
  (lexer.candidate :: lexer.flows).any fun candidate =>
    candidate.any fun candidate => candidate.position == position

end Lexer

/-- The tokens of a text up to its end, or up to a defect. -/
structure TokenStream where
  tokens : List Lexeme
  defect : Option Defect := none

namespace Lexer

/-- The tokens released before a defect was met. -/
def brokenOff (lexer : Lexer) (released : Nat) (defect : Defect) : TokenStream :=
  ⟨lexer.tokens.toList.take released, some defect⟩

/-- Releases one token after the other. Each step takes at least one character or
releases a token, and a character makes at most four tokens. -/
def run : (fuel : Nat) -> (released : Nat) -> Lexer -> TokenStream
  | 0, released, lexer => lexer.brokenOff released { fault := .unfinished }
  | fuel + 1, released, lexer =>
      if released < lexer.tokens.size then
        match lexer.dropStale with
        | .error defect => lexer.brokenOff released defect
        | .ok lexer =>
            if lexer.awaitsKey released && !lexer.ended then
              match lexer.fetch with
              | .error defect => lexer.brokenOff released defect
              | .ok lexer => run fuel released lexer
            else run fuel (released + 1) lexer
      else if lexer.ended then ⟨lexer.tokens.toList, none⟩
      else
        match lexer.fetch with
        | .error defect => lexer.brokenOff released defect
        | .ok lexer => run fuel released lexer

end Lexer

/-- The tokens of a text. -/
def TokenStream.ofText (text : String) : TokenStream :=
  match Cursor.ofText text with
  | .error defect => ⟨[], some defect⟩
  | .ok cursor => Lexer.run (5 * cursor.rest.length + 5) 0 { cursor := cursor }

end Yaml
end QueryGraph
