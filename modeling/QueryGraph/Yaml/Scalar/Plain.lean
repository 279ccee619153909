import QueryGraph.Yaml.Scalar.Folding

/-!
# Plain scalars

A plain scalar runs to a colon that is followed by a blank, to a comment, to a
document marker, to an indicator of the surrounding flow collection, or to a
line that is not indented below the enclosing block.
-/

namespace QueryGraph
namespace Yaml

/-- A plain scalar with the cursor after it and after the blanks that follow it.
`broken` tells whether those blanks hold a line break. -/
structure PlainScalar where
  text : String
  cursor : Cursor
  broken : Bool

/-- Reads on from inside a plain scalar. `indent` is the least column of a
continuation line, and `words` holds what was read so far, newest first. -/
def plainFrom
    (start : Mark)
    (inFlow : Bool)
    (indent : Nat) :
    (rest : List Char) ->
    (mark : Mark) ->
    (gap : Gap) ->
    (words : List Char) ->
    Except Defect PlainScalar
  | [], mark, gap, words =>
      .ok ⟨String.ofList words.reverse, ⟨[], mark⟩, gap.isBroken⟩
  | character :: rest, mark, gap, words =>
      let stop : Except Defect PlainScalar :=
        .ok ⟨String.ofList words.reverse, ⟨character :: rest, mark⟩, gap.isBroken⟩
      if isBlank character then
        if gap.isBroken && mark.column < indent && character == '\t' then
          .error (.during .plainScalar start mark .tabInIndentation)
        else
          plainFrom start inFlow indent rest (mark.next character) (gap.addBlank character)
            words
      else if isBreak character then
        plainFrom start inFlow indent rest (mark.next character) (gap.addBreak character) words
      else if gap.isBroken && !inFlow && mark.column < indent then stop
      else if (Cursor.mk (character :: rest) mark).atDocumentMarker then stop
      else if !gap.isEmpty && character == '#' then stop
      else if character == ':' && inFlow && (rest.head?.any fun next =>
          isFlowIndicator next || next == '?') then
        .error (.during .plainScalar start mark .unexpectedColon)
      else if character == ':' && startsBlank rest then stop
      else if inFlow && isFlowIndicator character then stop
      else
        plainFrom start inFlow indent rest (mark.next character) Gap.empty
          (character :: (gap.folded ++ words))

/-- Reads a plain scalar. -/
def Cursor.plainScalar
    (inFlow : Bool)
    (indent : Nat)
    (cursor : Cursor) : Except Defect PlainScalar :=
  plainFrom cursor.mark inFlow indent cursor.rest cursor.mark Gap.empty []

end Yaml
end QueryGraph
