/-!
# Classes of characters

A class of characters is the list of the ranges of its code points, in order. The
tables follow version 17 of the Unicode character database.
-/

namespace QueryGraph
namespace Unicode

/-- Whether a character lies in one of some ranges, each given by its first and its
last code point. -/
def isIn (ranges : List (Nat × Nat)) (character : Char) : Bool :=
  ranges.any fun (first, last) => first ≤ character.toNat && character.toNat ≤ last

end Unicode
end QueryGraph
