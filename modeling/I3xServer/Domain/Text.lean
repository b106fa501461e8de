import Mathlib.Tactic.Common

/-!
# Text operations of the source language

The code compares, folds, strips and classifies strings with operations that
follow Unicode. They are collected in one structure, so that every result holds
for whatever Unicode version the server runs on; `Text.ascii` computes them for
ASCII strings, where all versions agree.
-/
namespace I3x

structure Text where
  lower : String → String
  strip : String → String
  isPrintable : String → Bool

namespace Text

def asciiSpace (c : Char) : Bool :=
  c.val = 32 || (9 ≤ c.val && c.val ≤ 13) || (28 ≤ c.val && c.val ≤ 31)

def ascii : Text where
  lower s := String.ofList (s.toList.map Char.toLower)
  strip s := String.ofList (((s.toList.dropWhile asciiSpace).reverse.dropWhile asciiSpace).reverse)
  isPrintable s := s.toList.all fun c => 32 ≤ c.val && c.val ≤ 126

end Text
end I3x
