import QueryGraph.Yaml.Text

/-!
# Blanks between the words of a scalar

Inside a plain or quoted scalar a run of blanks without a line break is kept. A
run with line breaks is folded: a single line feed becomes a space, and of
several the first is dropped. A first break that is a Unicode separator stays.
-/

namespace QueryGraph
namespace Yaml

/-- A run of blanks and line breaks, newest character first. -/
inductive Gap
  | blanks (reversed : List Char)
  /-- A run with a line break. An escaped break leaves `first` empty. -/
  | breaks
      (first : Option Char)
      (reversed : List Char)
  deriving DecidableEq, Repr

namespace Gap

/-- No blank at all. -/
def empty : Gap := .blanks []

/-- Whether the run holds a line break. -/
def isBroken : Gap -> Bool
  | .blanks _ => false
  | .breaks _ _ => true

/-- Whether nothing stands between two words. -/
def isEmpty : Gap -> Bool
  | .blanks [] => true
  | _ => false

/-- Adds a blank. After a line break it is indentation and is dropped. -/
def addBlank : Gap -> Char -> Gap
  | .blanks reversed, character => .blanks (character :: reversed)
  | .breaks first reversed, _ => .breaks first reversed

/-- Adds a line break. The blanks before the first one are dropped. -/
def addBreak : Gap -> Char -> Gap
  | .blanks _, character => .breaks (some character) []
  | .breaks first reversed, character => .breaks first (character :: reversed)

/-- The text that stands for the run, newest character first. -/
def folded : Gap -> List Char
  | .blanks reversed => reversed
  | .breaks none reversed => reversed
  | .breaks (some first) reversed =>
      if first == '\n' then
        if reversed.isEmpty then [' '] else reversed
      else reversed ++ [first]

end Gap
end Yaml
end QueryGraph
