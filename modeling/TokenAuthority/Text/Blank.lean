/-!
# Blanks

The characters with the Unicode property `White_Space`, and cutting them off at
either end of a text.
-/

namespace TokenAuthority.Text

/-- Whether a character has the property `White_Space`. -/
def isBlank (c : Char) : Bool :=
  let n := c.toNat
  (0x09 ≤ n && n ≤ 0x0D) || n == 0x20 || n == 0x85 || n == 0xA0 || n == 0x1680 ||
    (0x2000 ≤ n && n ≤ 0x200A) || n == 0x2028 || n == 0x2029 || n == 0x202F ||
    n == 0x205F || n == 0x3000

/-- The text without the blanks it starts with. -/
def trimStart (cs : List Char) : List Char :=
  cs.dropWhile isBlank

/-- The text without the blanks it ends with. -/
def trimEnd (cs : List Char) : List Char :=
  (cs.reverse.dropWhile isBlank).reverse

/-- The text without the blanks at either end. -/
def trim (cs : List Char) : List Char :=
  trimEnd (trimStart cs)

@[simp] theorem trimStart_nil : trimStart [] = [] := rfl

@[simp] theorem trimEnd_nil : trimEnd [] = [] := rfl

@[simp] theorem trim_nil : trim [] = [] := rfl

/-- The part of a text before the first occurrence of a character, and the part
behind it if the character occurs. -/
def splitOnce (sep : Char) (cs : List Char) : List Char × Option (List Char) :=
  (cs.takeWhile (· != sep), (cs.dropWhile (· != sep)).tail?)

/-- The parts of a text between the occurrences of a character; at least one. -/
def split (sep : Char) (cs : List Char) : List (List Char) :=
  cs.foldr (fun c parts =>
    if c = sep then [] :: parts else (c :: parts.headD []) :: parts.tail) [[]]

@[simp] theorem split_nil (sep : Char) : split sep [] = [[]] := rfl

theorem split_cons (sep c : Char) (cs : List Char) :
    split sep (c :: cs) =
      if c = sep then [] :: split sep cs
      else (c :: (split sep cs).headD []) :: (split sep cs).tail := rfl

/-- Equality up to the case of the letters `a` to `z`. -/
def eqIgnoringCase (a b : List Char) : Bool :=
  a.map Char.toLower == b.map Char.toLower

end TokenAuthority.Text
