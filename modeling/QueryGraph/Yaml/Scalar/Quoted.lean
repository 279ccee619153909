import QueryGraph.Yaml.Scalar.Folding

/-!
# Quoted scalars

In single quotes the only escape is a doubled quote. In double quotes a
backslash escapes a line break, names a control character, or introduces two,
four or eight hexadecimal digits of a code point. Line breaks fold in both.
-/

namespace QueryGraph
namespace Yaml

/-- The two kinds of quotes. -/
inductive Quote
  | single
  | double
  deriving DecidableEq, Repr

/-- The character that opens and closes a quoted scalar. -/
def Quote.character : Quote -> Char
  | .single => '\''
  | .double => '"'

/-- What the next character of a quoted scalar means. -/
inductive QuoteState
  | text
  /-- The first of two single quotes, or the closing one. -/
  | quoteSeen
  /-- The character after a backslash, with the place of the backslash. -/
  | escape (place : Mark)
  /-- The place of the first digit, how many digits are missing, and the value of those
  read. -/
  | digits
      (place : Mark)
      (missing : Nat)
      (value : Nat)
  deriving DecidableEq, Repr

/-- The character named by a one-letter escape. -/
def escapedCharacter? : Char -> Option Char
  | '0' => some (Char.ofNat 0x00)
  | 'a' => some (Char.ofNat 0x07)
  | 'b' => some (Char.ofNat 0x08)
  | 't' => some '\t'
  | '\t' => some '\t'
  | 'n' => some '\n'
  | 'v' => some (Char.ofNat 0x0b)
  | 'f' => some (Char.ofNat 0x0c)
  | 'r' => some '\r'
  | 'e' => some (Char.ofNat 0x1b)
  | ' ' => some ' '
  | '"' => some '"'
  | '/' => some '/'
  | '\\' => some '\\'
  | 'N' => some (Char.ofNat 0x85)
  | '_' => some (Char.ofNat 0xa0)
  | 'L' => some (Char.ofNat 0x2028)
  | 'P' => some (Char.ofNat 0x2029)
  | _ => none

/-- How many hexadecimal digits an escape letter announces. -/
def escapeLength? : Char -> Option Nat
  | 'x' => some 2
  | 'u' => some 4
  | 'U' => some 8
  | _ => none

/-- The character with a code point, unless it is a surrogate or too large. -/
def codePoint? (value : Nat) : Option Char :=
  if 0xd800 ≤ value && value ≤ 0xdfff || 0x10ffff < value then none
  else some (Char.ofNat value)

/-- Reads on from inside a quoted scalar. -/
def quotedFrom
    (start : Mark)
    (quote : Quote) :
    (rest : List Char) ->
    (mark : Mark) ->
    (state : QuoteState) ->
    (gap : Gap) ->
    (words : List Char) ->
    Except Defect (String × Cursor)
  | [], mark, state, gap, words =>
      match state with
      | .quoteSeen => .ok (String.ofList (gap.folded ++ words).reverse, ⟨[], mark⟩)
      | .text => .error (.during .quotedScalar start mark .unclosedQuote)
      | .escape place => .error (.during .quotedEscape start place .unknownEscape)
      | .digits place _ _ => .error (.during .quotedEscape start place .badHexadecimal)
  | character :: rest, mark, state, gap, words =>
      let next := mark.next character
      match state with
      | .quoteSeen =>
          if character == '\'' then
            quotedFrom start quote rest next .text Gap.empty ('\'' :: (gap.folded ++ words))
          else
            .ok (String.ofList (gap.folded ++ words).reverse, ⟨character :: rest, mark⟩)
      | .digits place missing value =>
          match hexDigit? character with
          | none => .error (.during .quotedEscape start place .badHexadecimal)
          | some digit =>
              let value := 16 * value + digit
              if missing ≤ 1 then
                match codePoint? value with
                | none => .error (.during .quotedEscape start place .badCodePoint)
                | some point => quotedFrom start quote rest next .text Gap.empty (point :: words)
              else
                quotedFrom start quote rest next (.digits place (missing - 1) value) Gap.empty
                  words
      | .escape place =>
          if isBreak character then
            quotedFrom start quote rest next .text (.breaks none []) words
          else
            match escapedCharacter? character, escapeLength? character with
            | some point, _ => quotedFrom start quote rest next .text Gap.empty (point :: words)
            | none, some length =>
                quotedFrom start quote rest next (.digits next length 0) Gap.empty words
            | none, none => .error (.during .quotedEscape start place .unknownEscape)
      | .text =>
          if isBlank character then
            quotedFrom start quote rest next .text (gap.addBlank character) words
          else if isBreak character then
            quotedFrom start quote rest next .text (gap.addBreak character) words
          else if (Cursor.mk (character :: rest) mark).atDocumentMarker then
            .error (.during .quotedScalar start mark .markerInQuotes)
          else if character == quote.character then
            match quote with
            | .single => quotedFrom start quote rest next .quoteSeen gap words
            | .double =>
                .ok (String.ofList (gap.folded ++ words).reverse, ⟨rest, next⟩)
          else if character == '\\' && quote == .double then
            quotedFrom start quote rest next (.escape mark) Gap.empty (gap.folded ++ words)
          else
            quotedFrom start quote rest next .text Gap.empty (character :: (gap.folded ++ words))

/-- Reads a quoted scalar whose opening quote is at the cursor. -/
def Cursor.quotedScalar
    (quote : Quote)
    (cursor : Cursor) : Except Defect (String × Cursor) :=
  let start := cursor.mark
  let cursor := cursor.drop 1
  quotedFrom start quote cursor.rest cursor.mark .text Gap.empty []

end Yaml
end QueryGraph
