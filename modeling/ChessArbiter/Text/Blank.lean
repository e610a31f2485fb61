/-! # Blank characters and the fields of a line

The blank characters are the twenty-five of the Unicode property White_Space. `trim` removes them
from both ends of a text, `words` keeps the stretches between them, and `fields` cuts at single
spaces only: two spaces in a row leave an empty field between them, and a tab separates nothing.
-/

namespace ChessArbiter.Text

/-- The characters with the Unicode property White_Space. -/
def isBlank (c : Char) : Bool :=
  let n := c.toNat
  (0x09 ≤ n && n ≤ 0x0D) || n == 0x20 || n == 0x85 || n == 0xA0 || n == 0x1680 ||
    (0x2000 ≤ n && n ≤ 0x200A) || n == 0x2028 || n == 0x2029 || n == 0x202F || n == 0x205F ||
    n == 0x3000

/-- A text without the blank characters at its two ends. -/
def trimList (text : List Char) : List Char :=
  ((text.dropWhile isBlank).reverse.dropWhile isBlank).reverse

/-- A text without the blank characters at its two ends. -/
def trim (text : String) : String :=
  String.ofList (trimList text.toList)

/-- The maximal stretches of a text that hold no blank character. -/
def words (text : List Char) : List (List Char) :=
  (text.splitOnP isBlank).filter (!·.isEmpty)

/-- The parts of a text between single spaces, empty ones included. -/
def fields (text : List Char) : List (List Char) :=
  text.splitOn ' '

/-- A text with its ASCII capitals made small. -/
def lowerAscii (text : List Char) : List Char :=
  text.map Char.toLower

end ChessArbiter.Text
