/-
White space of Unicode: the blanks of every script and the ends of lines.
-/
import PipeQuery.Unicode.CharSet

namespace PipeQuery

/-- The characters with the property White_Space. -/
def whiteSpace : CharSet :=
  ⟨[⟨0x9, 0xD⟩, ⟨0x20, 0x20⟩, ⟨0x85, 0x85⟩, ⟨0xA0, 0xA0⟩, ⟨0x1680, 0x1680⟩, ⟨0x2000, 0x200A⟩,
    ⟨0x2028, 0x2029⟩, ⟨0x202F, 0x202F⟩, ⟨0x205F, 0x205F⟩, ⟨0x3000, 0x3000⟩]⟩

def isSpace (c : Char) : Bool :=
  whiteSpace.contains c

/-- The text without white space at its ends. -/
def trimSpace (text : List Char) : List Char :=
  ((text.dropWhile isSpace).reverse.dropWhile isSpace).reverse

/-- The words of a text, white space between them. -/
def words (text : List Char) : List (List Char) :=
  pieces isSpace text

end PipeQuery
