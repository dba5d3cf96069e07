/-! # White space

The characters with the White_Space property of Unicode, and texts without them at either end.
-/

namespace EntityQuery.Text

def isBlank (c : Char) : Bool :=
  let n := c.toNat
  (9 ≤ n && n ≤ 13) || n = 32 || n = 133 || n = 160 || n = 5760 || (8192 ≤ n && n ≤ 8202)
    || n = 8232 || n = 8233 || n = 8239 || n = 8287 || n = 12288

/-- The characters without the white space at either end. -/
def trimList (cs : List Char) : List Char :=
  ((cs.dropWhile isBlank).reverse.dropWhile isBlank).reverse

/-- The text without the white space at either end. -/
def trim (s : String) : String := String.ofList (trimList s.toList)

end EntityQuery.Text
