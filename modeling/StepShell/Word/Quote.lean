import StepShell.Text.Blank
import StepShell.Word.Region

/-! Writing the text of a word as shell source again. -/

namespace StepShell.Word

/-- Characters that a backslash guards also inside double quotes. -/
def isSpecial (c : Char) : Bool :=
  c == '$' || c == '\x60' || c == '\\'

/-- Characters that end a bare word or open a quote or comment. -/
def breaksWord (c : Char) : Bool :=
  Text.isBlank c || [';', '&', '|', '<', '>', '(', ')', '\'', '"', '#'].contains c

/-- The inside of the double quotes: substitutions are copied as they are, and a backslash stays
only where it is needed there. -/
def quotedInside : List Char → List Char
  | [] => []
  | '\\' :: c :: rest =>
    (if isSpecial c || c == '"' then ['\\', c] else [c]) ++ quotedInside rest
  | '$' :: '(' :: rest =>
    let text := '(' :: rest
    '$' :: text.take (groupLength text) ++ quotedInside (text.drop (groupLength text))
  | c :: rest => if c = '"' then '\\' :: '"' :: quotedInside rest else c :: quotedInside rest
termination_by text => text.length
decreasing_by all_goals simp only [List.length_cons, List.length_drop]; omega

/-- A word as it may stand in a script: bare if nothing in it would break it up. -/
def quoteChars (text : List Char) : List Char :=
  if text.isEmpty || text.any breaksWord then '"' :: quotedInside text ++ ['"'] else text

def quote (text : String) : String :=
  String.ofList (quoteChars text.toList)

end StepShell.Word
