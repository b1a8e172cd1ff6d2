import RateTree.Text.LetterCase

/-!
# Lower case of a text

`toLower` maps every character to its lower case. Two rules go beyond a character table: a capital
I with a dot becomes an i and a combining dot, and a capital sigma becomes the final small sigma at
the end of a word and the ordinary one elsewhere. A word ends where a cased character stands before
the sigma and none after it, looking through the characters that case ignores.
-/

namespace RateTree.Text

/-- Whether a code lies in one of some ranges, their ends included. -/
def inRanges (ranges : List (Nat × Nat)) (code : Nat) : Bool :=
  ranges.any fun range => range.1 ≤ code && code ≤ range.2

/-- Whether the first character that case does not ignore is a cased one. -/
def meetsCased (text : List Char) : Bool :=
  match text.dropWhile fun c => inRanges caseIgnorableRanges c.toNat with
  | [] => false
  | c :: _ => inRanges casedRanges c.toNat

/-- The lower case of one character, by the table. -/
def lowerChar (c : Char) : Char :=
  match CaseRun.all.find? fun run => run.contains c.toNat with
  | some run => Char.ofNat (run.lowerOf c.toNat)
  | none => c

/-- The lower case of a text whose earlier characters, last one first, are `before`. -/
def toLowerAfter (before : List Char) : List Char → List Char
  | [] => []
  | c :: rest =>
    let lowered :=
      if c = 'Σ' then [if meetsCased before && !meetsCased rest then 'ς' else 'σ']
      else if c = 'İ' then ['i', '\u0307']
      else [lowerChar c]
    lowered ++ toLowerAfter (c :: before) rest

/-- A text in lower case. -/
def toLower (text : List Char) : List Char :=
  toLowerAfter [] text

end RateTree.Text
