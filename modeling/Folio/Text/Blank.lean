/-!
# Blank characters

White space is the twenty-five characters of the Unicode property `White_Space`. The scanner
skips them between tokens, and a number written as text may be surrounded by them.

`dropBlanks` and `trim` are the two uses; `takeWhile_append_dropBlanks` says that dropping the
blanks in front loses nothing else.
-/

namespace Folio.Text

/-- The Unicode property `White_Space`. -/
def isBlank (c : Char) : Bool :=
  let n := c.toNat
  (0x09 ≤ n && n ≤ 0x0D) || n == 0x20 || n == 0x85 || n == 0xA0 || n == 0x1680 ||
    (0x2000 ≤ n && n ≤ 0x200A) || n == 0x2028 || n == 0x2029 || n == 0x202F || n == 0x205F ||
    n == 0x3000

/-- The text from its first character that is not blank. -/
def dropBlanks (cs : List Char) : List Char := cs.dropWhile isBlank

theorem length_dropBlanks_le (cs : List Char) : (dropBlanks cs).length ≤ cs.length :=
  (List.dropWhile_sublist _).length_le

theorem takeWhile_append_dropBlanks (cs : List Char) :
    cs.takeWhile isBlank ++ dropBlanks cs = cs := List.takeWhile_append_dropWhile

/-- The text without the blanks at its two ends. -/
def trim (cs : List Char) : List Char := (dropBlanks (dropBlanks cs).reverse).reverse

example : trim [' ', 'a', ' ', 'b', '\n'] = ['a', ' ', 'b'] := by decide

end Folio.Text
