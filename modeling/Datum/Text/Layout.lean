/-! # Blanks and lines

Texts are cut at their ends and into lines. What is blank is a matter of who asks: literals ignore
the five ASCII blanks around them, and scripts go by the characters with the Unicode property
`White_Space`, which has the ASCII blanks and the line tabulation among its members. So the class of
characters is a parameter of the cuts.

A line ends at a line feed or at the end of the text. A carriage return directly before the line
feed belongs to the line's end; one anywhere else is part of the line. A line feed at the very end
starts no further line.
-/

namespace Datum.Text

/-! ### Cutting off the ends -/

def trimStart (p : Char → Bool) (text : List Char) : List Char :=
  text.dropWhile p

def trimEnd (p : Char → Bool) (text : List Char) : List Char :=
  (text.reverse.dropWhile p).reverse

def trim (p : Char → Bool) (text : List Char) : List Char :=
  trimEnd p (trimStart p text)

theorem trimEnd_append_of_all {p : Char → Bool} {pad : List Char} (h : pad.all p = true)
    (text : List Char) : trimEnd p (text ++ pad) = trimEnd p text := by
  have hr : ∀ c ∈ pad.reverse, p c = true := by
    intro c hc
    exact List.all_eq_true.1 h c (List.mem_reverse.1 hc)
  simp only [trimEnd, List.reverse_append, List.dropWhile_append_of_pos hr]

theorem trimStart_append_of_all {p : Char → Bool} {pad : List Char} (h : pad.all p = true)
    (text : List Char) : trimStart p (pad ++ text) = trimStart p text :=
  List.dropWhile_append_of_pos (List.all_eq_true.1 h)

/-! ### Blanks -/

/-- Space, tab, line feed, form feed and carriage return. -/
def isAsciiBlank (c : Char) : Bool :=
  c == ' ' || c == '\t' || c == '\n' || c == '\x0c' || c == '\r'

/-- The code points with the property `White_Space`. -/
def isBlank (c : Char) : Bool :=
  let n := c.toNat
  (9 ≤ n && n ≤ 13) || n == 0x20 || n == 0x85 || n == 0xa0 || n == 0x1680 ||
    (0x2000 ≤ n && n ≤ 0x200a) || n == 0x2028 || n == 0x2029 || n == 0x202f || n == 0x205f ||
    n == 0x3000

def trimAscii (text : String) : List Char :=
  trim isAsciiBlank text.toList

def trimBlankEnd (text : String) : String :=
  String.ofList (trimEnd isBlank text.toList)

/-- All characters are blank; so is the empty text. -/
def allBlank (text : List Char) : Bool :=
  text.all isBlank

/-! ### Lines -/

def dropReturn (line : List Char) : List Char :=
  if line.getLast? = some '\r' then line.dropLast else line

/-- Splits into lines, given the reversed characters of the line under way. -/
def splitLines : List Char → List Char → List (List Char)
  | [], [] => []
  | c :: rev, [] => [(c :: rev).reverse]
  | rev, c :: rest =>
    if c = '\n' then dropReturn rev.reverse :: splitLines [] rest
    else splitLines (c :: rev) rest

def lines (text : String) : List String :=
  (splitLines [] text.toList).map String.ofList

end Datum.Text
