import Liquid.Text.CharRange

/-!
# Blank characters

The characters with the White_Space property, and the trimming of blanks from both ends of a text.
-/

namespace Liquid.Text

/-- The code points with the White_Space property. -/
def blankRanges : List CharRange :=
  [(0x9, 0xd), (0x20, 0x20), (0x85, 0x85), (0xa0, 0xa0), (0x1680, 0x1680), (0x2000, 0x200a),
   (0x2028, 0x2029), (0x202f, 0x202f), (0x205f, 0x205f), (0x3000, 0x3000)]

def isBlank (c : Char) : Bool := inRanges blankRanges c

def dropBlanks (cs : List Char) : List Char := cs.dropWhile isBlank

def dropBlanksEnd (cs : List Char) : List Char := (cs.reverse.dropWhile isBlank).reverse

def trimChars (cs : List Char) : List Char := dropBlanksEnd (dropBlanks cs)

def trim (s : String) : String := String.ofList (trimChars s.toList)

def isAllBlank (s : String) : Bool := s.toList.all isBlank

theorem length_dropBlanks_le (cs : List Char) : (dropBlanks cs).length ≤ cs.length :=
  (List.dropWhile_sublist isBlank).length_le

end Liquid.Text
