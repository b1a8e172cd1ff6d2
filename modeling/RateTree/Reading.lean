import RateTree.Error
import RateTree.Text.Blank
import RateTree.Text.Lowercase

/-!
# Reading names

Services and levels by name. Blanks around a name and the case of its letters do not matter; a name
that means nothing is reported the way it was compared.
-/

namespace RateTree

/-- A name as it is compared: without the blanks around it and in lower case. -/
def comparedName (text : String) : String :=
  String.ofList (Text.toLower (Text.trim text.toList))

/-- Reads the word for a service, in upper or lower case. -/
def Service.parse (text : String) : Except Error Service :=
  match Service.ofWord? (comparedName text) with
  | some service => .ok service
  | none => .error (.invalidArgument (.unknownService (comparedName text)))

/-- Reads the word for a kind of nodes, in upper or lower case. -/
def NodeKind.parse (text : String) : Except Error NodeKind :=
  match NodeKind.ofWord? (comparedName text) with
  | some kind => .ok kind
  | none => .error (.invalidArgument (.unknownNodeKind (comparedName text)))

end RateTree
