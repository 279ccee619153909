import QueryGraph.Yaml.Node
import QueryGraph.Yaml.Token.Stream

/-!
# From tokens to documents

`Yaml.read` gives the first document of a text; a text without a document counts as one
in which nothing was written. The reader follows the grammar of the token stream: every
function takes the tokens ahead and returns those that it left. Where a defect is met no
tokens are left, and whatever is still open ends with the missing node.

An anchor is numbered where its node begins, by the number of different names that
anchors had before. An alias refers to the number that its name has at that point.
A name that is used again takes a new number, which a later name may then share; the
last node with a number is the one that is referred to.
-/

namespace QueryGraph
namespace Yaml

/-- What is known while a document is read: the tokens ahead, the defect that is met
when they run out, the handles declared for tags, the numbers that the names of anchors
have now, and the anchored nodes in the order in which they begin. A node that is still
being read is empty so far. -/
structure Reader where
  tokens : List Lexeme
  defect : Defect
  handles : List (String × List UInt8) := []
  names : List (String × Nat) := []
  anchored : Array (Nat × Node) := #[]

namespace Reader

/-- Skips one token. -/
def skip (reader : Reader) : Reader :=
  { reader with tokens := reader.tokens.tail }

/-- Whether the next token is one of a list. -/
def sees (reader : Reader) (tokens : List Token) : Bool :=
  reader.tokens.head?.any fun lexeme => tokens.contains lexeme.token

/-- Where the next token begins. -/
def mark (reader : Reader) : Mark :=
  (reader.tokens.head?.map Lexeme.start).getD {}

/-- Gives up the tokens ahead because of a defect. -/
def fail (reader : Reader) (defect : Defect) : Reader :=
  { reader with tokens := [], defect := defect }

/-- Finds something wrong with the next token, while reading what begins at a place. -/
def failDuring
    (reader : Reader)
    (activity : Activity)
    (start : Mark)
    (fault : Fault) : Reader :=
  reader.fail (.during activity start reader.mark fault)

/-- The handles that every document knows. -/
def standardHandles : List (String × List UInt8) :=
  [("!", [0x21]), ("!!", Tag.coreNamespace)]

/-- The tag that a handle and a suffix stand for. -/
def tagOf? (reader : Reader) (tag : TagText) : Option Tag :=
  if tag.handle.isEmpty then some (Tag.ofBytes tag.suffix)
  else
    ((reader.handles ++ standardHandles).lookup tag.handle).map fun expansion =>
      Tag.ofBytes (expansion ++ tag.suffix)

/-- What is written before a node: an anchor, and a tag with its place. -/
structure Properties where
  anchor : Option String := none
  tag : Option (TagText × Mark) := none

/-- Whether nothing is written before a node. -/
def Properties.isBare (properties : Properties) : Bool :=
  properties.anchor.isNone && properties.tag.isNone

/-- Reads the anchor and the tag before a node, in either order. -/
def properties (reader : Reader) : Properties × Reader :=
  match reader.tokens with
  | ⟨.anchor name, _, _⟩ :: tokens =>
      match tokens with
      | ⟨.tag tag, mark, _⟩ :: tokens =>
          (⟨some name, some (tag, mark)⟩, { reader with tokens })
      | _ => (⟨some name, none⟩, { reader with tokens })
  | ⟨.tag tag, mark, _⟩ :: tokens =>
      match tokens with
      | ⟨.anchor name, _, _⟩ :: tokens =>
          (⟨some name, some (tag, mark)⟩, { reader with tokens })
      | _ => (⟨none, some (tag, mark)⟩, { reader with tokens })
  | _ => ({}, reader)

/-- Numbers the anchor of a node that begins here. -/
def enter (reader : Reader) : (anchor : Option String) -> Reader
  | none => reader
  | some name =>
      let number := reader.names.length
      { reader with
        names := (name, number) :: reader.names.filter fun known => known.1 != name
        anchored := reader.anchored.push (number, Node.missing) }

/-- Keeps a complete node that is anchored and was the given one to begin. -/
def leave
    (reader : Reader)
    (anchor : Option String)
    (begun : Nat)
    (node : Node) : Reader :=
  if anchor.isNone then reader
  else
    { reader with
      anchored := reader.anchored.modify begun fun (number, _) => (number, node) }

mutual

/-- Reads a node. `inBlock` admits block collections, and `indentless` a block
sequence at the indentation of its key. -/
def node
    (fuel : Nat)
    (inBlock indentless : Bool)
    (reader : Reader) : Node × Reader :=
  match fuel with
  | 0 => (.missing, reader.fail { fault := .unfinished })
  | fuel + 1 =>
      match reader.tokens with
      | [] => (.missing, reader)
      | ⟨.reference name, mark, _⟩ :: tokens =>
          match reader.names.lookup name with
          | some number => (.reference mark number, { reader with tokens })
          | none => (.missing, reader.fail { fault := .unknownAnchor, mark := mark })
      | ⟨_, mark, _⟩ :: _ =>
          let (properties, reader) := reader.properties
          let tag := properties.tag.bind fun (tag, _) => reader.tagOf? tag
          match reader.tokens, properties.tag, tag with
          | [], _, _ => (.missing, reader)
          | _ :: _, some (_, place), none =>
              (.missing, reader.fail (.during .node mark place .unknownHandle))
          | ⟨token, _, _⟩ :: tokens, _, _ =>
              let begun := reader.anchored.size
              let reader := reader.enter properties.anchor
              let (node, reader) : Node × Reader :=
                match token, inBlock, indentless with
                | .scalar style text, _, _ =>
                    (.scalar mark tag style text, { reader with tokens })
                | .blockEntry, _, true =>
                    let (items, reader) := entries fuel none reader
                    (.sequence mark tag items, reader)
                | .flowSequenceStart, _, _ =>
                    let (items, reader) := flowItems fuel reader.mark true reader.skip
                    (.sequence mark tag items, reader)
                | .flowMappingStart, _, _ =>
                    let (entries, reader) := flowMembers fuel reader.mark true reader.skip
                    (.mapping mark tag entries, reader)
                | .blockSequenceStart, true, _ =>
                    let (items, reader) := entries fuel (some reader.mark) reader.skip
                    (.sequence mark tag items, reader)
                | .blockMappingStart, true, _ =>
                    let (entries, reader) := members fuel reader.mark reader.skip
                    (.mapping mark tag entries, reader)
                | _, _, _ =>
                    if properties.isBare then
                      let activity := if inBlock then .blockNode else .flowNode
                      (.missing, reader.failDuring activity mark .missingContent)
                    else (Node.empty mark tag, reader)
              (node, reader.leave properties.anchor begun node)

/-- Reads the entries of a block sequence that begins at a place. An indentless one has
neither a start nor an end token. -/
def entries
    (fuel : Nat)
    (start : Option Mark)
    (reader : Reader) : List Node × Reader :=
  match fuel with
  | 0 => ([.missing], reader.fail { fault := .unfinished })
  | fuel + 1 =>
      match reader.tokens with
      | [] => ([.missing], reader)
      | ⟨.blockEntry, _, stop⟩ :: _ =>
          let reader := reader.skip
          let ends : List Token :=
            if start.isNone then [.blockEntry, .key, .value, .blockEnd]
            else [.blockEntry, .blockEnd]
          let (item, reader) :=
            if reader.sees ends then (Node.empty stop none, reader)
            else node fuel true false reader
          let (items, reader) := entries fuel start reader
          (item :: items, reader)
      | ⟨token, _, _⟩ :: _ =>
          match start with
          | none => ([], reader)
          | some start =>
              if token == .blockEnd then ([], reader.skip)
              else ([.missing], reader.failDuring .blockSequence start .missingEntry)

/-- Reads the members of a block mapping that begins at a place. -/
def members
    (fuel : Nat)
    (start : Mark)
    (reader : Reader) : List (Node × Node) × Reader :=
  match fuel with
  | 0 => ([(.missing, .missing)], reader.fail { fault := .unfinished })
  | fuel + 1 =>
      let ends : List Token := [.key, .value, .blockEnd]
      match reader.tokens with
      | [] => ([(.missing, .missing)], reader)
      | ⟨.key, _, stop⟩ :: _ =>
          let reader := reader.skip
          let (key, reader) :=
            if reader.sees ends then (Node.empty stop none, reader)
            else node fuel true true reader
          let (value, reader) :=
            match reader.tokens with
            | [] => (.missing, reader)
            | ⟨.value, _, stop⟩ :: _ =>
                let reader := reader.skip
                if reader.sees ends then (Node.empty stop none, reader)
                else node fuel true true reader
            | _ => (Node.empty reader.mark none, reader)
          let (members, reader) := members fuel start reader
          ((key, value) :: members, reader)
      | ⟨.blockEnd, _, _⟩ :: _ => ([], reader.skip)
      | _ => ([(.missing, .missing)], reader.failDuring .blockMapping start .missingKey)

/-- Reads the value of a flow member that ends before one of some tokens. A member
without a colon has an empty value. -/
def flowValue
    (fuel : Nat)
    (ends : List Token)
    (reader : Reader) : Node × Reader :=
  match fuel with
  | 0 => (.missing, reader.fail { fault := .unfinished })
  | fuel + 1 =>
      let isWritten := reader.sees [.value]
      let reader := if isWritten then reader.skip else reader
      if reader.tokens.isEmpty then (.missing, reader)
      else if isWritten && !reader.sees ends then node fuel false false reader
      else (Node.empty reader.mark none, reader)

/-- Reads the items of a flow sequence that begins at a place. An item with a colon is a
mapping of one member. A question mark without a key takes the colon, comma or bracket
after it in place of the key. -/
def flowItems
    (fuel : Nat)
    (start : Mark)
    (first : Bool)
    (reader : Reader) : List Node × Reader :=
  match fuel with
  | 0 => ([.missing], reader.fail { fault := .unfinished })
  | fuel + 1 =>
      if reader.sees [.flowSequenceEnd] then ([], reader.skip)
      else
        let reader :=
          if first then reader
          else if reader.sees [.flowEntry] then reader.skip
          else if reader.tokens.isEmpty then reader
          else reader.failDuring .flowSequence start .missingItem
        match reader.tokens with
        | [] => ([.missing], reader)
        | ⟨.flowSequenceEnd, _, _⟩ :: _ => ([], reader.skip)
        | ⟨.key, mark, _⟩ :: _ =>
            let reader := reader.skip
            let ends : List Token := [.flowEntry, .flowSequenceEnd]
            let (key, reader) :=
              match reader.tokens with
              | ⟨token, _, stop⟩ :: _ =>
                  if token == .value || ends.contains token then
                    (Node.empty stop none, reader.skip)
                  else node fuel false false reader
              | [] => (.missing, reader)
            let (value, reader) := flowValue fuel ends reader
            let (items, reader) := flowItems fuel start false reader
            (.mapping mark none [(key, value)] :: items, reader)
        | _ =>
            let (item, reader) := node fuel false false reader
            let (items, reader) := flowItems fuel start false reader
            (item :: items, reader)

/-- Reads the members of a flow mapping that begins at a place. -/
def flowMembers
    (fuel : Nat)
    (start : Mark)
    (first : Bool)
    (reader : Reader) : List (Node × Node) × Reader :=
  match fuel with
  | 0 => ([(.missing, .missing)], reader.fail { fault := .unfinished })
  | fuel + 1 =>
      if reader.sees [.flowMappingEnd] then ([], reader.skip)
      else
        let reader :=
          if first then reader
          else if reader.sees [.flowEntry] then reader.skip
          else if reader.tokens.isEmpty then reader
          else reader.failDuring .flowMapping start .missingMember
        let ends : List Token := [.flowEntry, .flowMappingEnd]
        match reader.tokens with
        | [] => ([(.missing, .missing)], reader)
        | ⟨.flowMappingEnd, _, _⟩ :: _ => ([], reader.skip)
        | ⟨.key, _, _⟩ :: _ =>
            let reader := reader.skip
            let (key, reader) :=
              if reader.sees (.value :: ends) then (Node.empty reader.mark none, reader)
              else node fuel false false reader
            let (value, reader) := flowValue fuel ends reader
            let (members, reader) := flowMembers fuel start false reader
            ((key, value) :: members, reader)
        | _ =>
            let (key, reader) := node fuel false false reader
            let value := if reader.tokens.isEmpty then .missing else Node.empty reader.mark none
            let (members, reader) := flowMembers fuel start false reader
            ((key, value) :: members, reader)

end

/-- Reads the directives before a document. -/
def directives : List Lexeme -> Reader -> (versioned : Bool) -> Reader
  | [], reader, _ => { reader with tokens := [] }
  | ⟨token, mark, stop⟩ :: tokens, reader, versioned =>
      match token with
      | .versionDirective major minor =>
          if versioned then reader.fail { fault := .repeatedVersion, mark := mark }
          else if major == 1 && (minor == 1 || minor == 2) then directives tokens reader true
          else reader.fail { fault := .foreignVersion, mark := mark }
      | .tagDirective handle expansion =>
          if (reader.handles.lookup handle).isSome then
            reader.fail { fault := .repeatedHandle, mark := mark }
          else
            directives tokens { reader with handles := (handle, expansion) :: reader.handles }
              versioned
      | _ => { reader with tokens := ⟨token, mark, stop⟩ :: tokens }

/-- Whether a token begins a document or ends the stream. -/
def isBoundary : Token -> Bool
  | .versionDirective _ _ | .tagDirective _ _ | .documentStart | .documentEnd
  | .streamEnd => true
  | _ => false

/-- Reads the outermost node of a document. Only after a start marker may it be
missing. -/
def root (reader : Reader) (marked : Bool) : Node × Reader :=
  if marked && reader.tokens.head?.any (fun lexeme => isBoundary lexeme.token) then
    (Node.empty reader.mark none, reader)
  else node (4 * reader.tokens.length + 4) true false reader

/-- The document whose outermost node was read. A stream may end after it, and after end
markers; anything else begins another document. -/
def close (root : Node) (reader : Reader) : Serialization :=
  let rest := reader.tokens.dropWhile fun lexeme => lexeme.token == .documentEnd
  { root := root
    anchored := reader.anchored.toList
    defect := if reader.tokens.isEmpty then some reader.defect else none
    followed := !rest.head?.any fun lexeme => lexeme.token == .streamEnd }

/-- Reads the first document. Directives have to be followed by a start marker. -/
def document (reader : Reader) : Serialization :=
  match reader.tokens with
  | ⟨.streamEnd, mark, _⟩ :: _ => { root := Node.empty mark none }
  | tokens =>
      let reader := directives tokens reader false
      let (root, reader) : Node × Reader :=
        match reader.tokens with
        | ⟨.documentStart, _, _⟩ :: rest => root { reader with tokens := rest } true
        | rest =>
            if rest.length == tokens.length then root reader false
            else if rest.isEmpty then (.missing, reader)
            else
              (.missing, reader.fail { fault := .missingDocumentStart, mark := reader.mark })
      close root reader

end Reader

/-- The first document of a text. -/
def read (text : String) : Serialization :=
  let stream := TokenStream.ofText text
  Reader.document
    { tokens := stream.tokens
      defect := stream.defect.getD { fault := .unfinished } }

end Yaml
end QueryGraph
