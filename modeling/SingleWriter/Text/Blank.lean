/-! Blank characters: those with the property White_Space.  `trim` takes them off both ends of a
text. -/

namespace SingleWriter.Text

/-- The characters with the property White_Space. -/
def isBlank (c : Char) : Bool :=
  let n := c.toNat
  (9 ≤ n && n ≤ 13) || n == 0x20 || n == 0x85 || n == 0xA0 || n == 0x1680
    || (0x2000 ≤ n && n ≤ 0x200A) || n == 0x2028 || n == 0x2029 || n == 0x202F || n == 0x205F
    || n == 0x3000

def trim (cs : List Char) : List Char :=
  ((cs.dropWhile isBlank).reverse.dropWhile isBlank).reverse

/-- The upper case of an ASCII letter, and every other character itself. -/
def upper (cs : List Char) : List Char := cs.map Char.toUpper

/-- The lower case of an ASCII letter, and every other character itself. -/
def lower (cs : List Char) : List Char := cs.map Char.toLower

end SingleWriter.Text
