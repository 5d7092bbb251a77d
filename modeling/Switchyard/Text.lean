/-!
# Cutting text

Command files and command lines are cut into lines and words. A blank is any character that Unicode
calls white space. All functions work on lists of characters.
-/

namespace Switchyard

namespace Text

/-- The code points with the Unicode property White_Space, as inclusive ranges. -/
def blankRanges : List (Nat × Nat) :=
  [(0x09, 0x0D), (0x20, 0x20), (0x85, 0x85), (0xA0, 0xA0), (0x1680, 0x1680), (0x2000, 0x200A),
    (0x2028, 0x2029), (0x202F, 0x202F), (0x205F, 0x205F), (0x3000, 0x3000)]

/-- Is the character white space? -/
def isBlank (c : Char) : Bool :=
  blankRanges.any fun (low, high) => low ≤ c.toNat && c.toNat ≤ high

/-- One more character in front of a cut text. -/
def pushFront (isCut : Char → Bool) (c : Char) : List (List Char) → List (List Char)
  | [] => if isCut c then [[], []] else [[c]]
  | part :: parts => if isCut c then [] :: part :: parts else (c :: part) :: parts

/-- Cuts a text at every character that `isCut` picks; the cuts themselves are dropped. There is one
part more than there are cuts. -/
def cut (isCut : Char → Bool) (text : List Char) : List (List Char) :=
  text.foldr (pushFront isCut) [[]]

/-- The lines of a text, without their line ends. -/
def lines (text : List Char) : List (List Char) := cut (· == '\n') text

/-- The maximal runs of characters that are not blank. -/
def words (text : List Char) : List (List Char) := (cut isBlank text).filter (!·.isEmpty)

/-- The text without the blanks at its two ends. -/
def trim (text : List Char) : List Char :=
  ((text.dropWhile isBlank).reverse.dropWhile isBlank).reverse

end Text

end Switchyard
