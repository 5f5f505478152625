/-!
# Blank characters

The characters that Unicode counts as white space.
-/

set_option autoImplicit false

namespace BatchAuction.Text

/-- White space, of any script. -/
def isBlank (c : Char) : Bool :=
  let point := c.toNat
  (9 ≤ point && point ≤ 13) || point = 0x20 || point = 0x85 || point = 0xA0 ||
    point = 0x1680 || (0x2000 ≤ point && point ≤ 0x200A) || point = 0x2028 ||
    point = 0x2029 || point = 0x202F || point = 0x205F || point = 0x3000

def trimStart (cs : List Char) : List Char := cs.dropWhile isBlank

end BatchAuction.Text
