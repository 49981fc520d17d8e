/-!
# Blank text

The characters that count as white space in any script, and the texts that hold nothing else.
-/

namespace Switchboard

namespace Text

/-- Whether a character is white space, in the sense of the Unicode property of that name. -/
def isSpace (c : Char) : Bool :=
  let n := c.toNat
  (0x09 ≤ n && n ≤ 0x0D) || n == 0x20 || n == 0x85 || n == 0xA0 || n == 0x1680 ||
    (0x2000 ≤ n && n ≤ 0x200A) || n == 0x2028 || n == 0x2029 || n == 0x202F || n == 0x205F ||
    n == 0x3000

/-- Whether a text is empty or holds nothing but white space. -/
def isBlank (text : String) : Bool := text.toList.all isSpace

end Text

end Switchboard
