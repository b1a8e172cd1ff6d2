/-!
# Blanks, words and lines

A blank is a character of the Unicode property White_Space. `trim` takes blanks off both ends,
`words` are the runs between blanks, and `lines` are the pieces between line feeds.
-/

namespace RateTree.Text

/-- Whether a character is white space. -/
def isBlank (c : Char) : Bool :=
  let code := c.toNat
  (0x09 ≤ code && code ≤ 0x0D) || code == 0x20 || code == 0x85 || code == 0xA0 ||
    code == 0x1680 || (0x2000 ≤ code && code ≤ 0x200A) || code == 0x2028 || code == 0x2029 ||
    code == 0x202F || code == 0x205F || code == 0x3000

/-- The text without the blanks at its ends. -/
def trim (text : List Char) : List Char :=
  ((text.dropWhile isBlank).reverse.dropWhile isBlank).reverse

/-- The pieces of a text between occurrences of a separator; there is always one. -/
def splitOn (separator : Char) (text : List Char) : List (List Char) :=
  text.foldr
    (fun c pieces =>
      match pieces with
      | [] => if c = separator then [[], []] else [[c]]
      | piece :: later =>
        if c = separator then [] :: piece :: later else (c :: piece) :: later)
    [[]]

/-- The nonempty runs of characters between blanks. -/
def words (text : List Char) : List (List Char) :=
  let (word, later) := text.foldr
    (fun c (word, later) =>
      if isBlank c then ([], if word.isEmpty then later else word :: later)
      else (c :: word, later))
    (([], []) : List Char × List (List Char))
  if word.isEmpty then later else word :: later

/-- The lines of a text; a line feed at its end starts no further line. -/
def lines (text : List Char) : List (List Char) :=
  let pieces := splitOn '\n' text
  if pieces.getLast? = some [] then pieces.dropLast else pieces

/-- The text before and after the first occurrence of a separator, if it occurs. -/
def splitFirst? (separator : Char) (text : List Char) : Option (List Char × List Char) :=
  match text.dropWhile (· != separator) with
  | [] => none
  | _ :: rest => some (text.takeWhile (· != separator), rest)

end RateTree.Text
