/-!
# Blank characters

The characters with the Unicode property White_Space, and their removal from
the ends of a text. Zero-width characters are not blank.
-/

set_option autoImplicit false

namespace DocAccess

/-- Whether a character has the Unicode property White_Space. -/
def isBlank (c : Char) : Bool :=
  let code := c.toNat
  (0x9 ≤ code && code ≤ 0xD) || code == 0x20 || code == 0x85 || code == 0xA0 ||
    code == 0x1680 || (0x2000 ≤ code && code ≤ 0x200A) || code == 0x2028 ||
    code == 0x2029 || code == 0x202F || code == 0x205F || code == 0x3000

def trimStart (source : List Char) : List Char :=
  source.dropWhile isBlank

def trim (source : List Char) : List Char :=
  (trimStart (trimStart source).reverse).reverse

/-- Every character that the core library calls whitespace is blank. -/
theorem isBlank_of_isWhitespace {c : Char} (white : c.isWhitespace = true) :
    isBlank c = true := by
  simp only [Char.isWhitespace, Bool.or_eq_true, decide_eq_true_eq] at white
  rcases white with ((rfl | rfl) | rfl) | rfl <;> decide

end DocAccess
