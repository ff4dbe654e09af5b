import PipelineTraining.Text.Invisible

/-!
Texts between double quotes, as error messages show a refused name.
-/

namespace PipelineTraining.Text

def hex (least number : Nat) : String :=
  let digits := Nat.toDigits 16 number
  String.ofList (List.replicate (least - digits.length) '0' ++ digits)

/-- A character inside a quoted text. The quote and the backslash are escaped, the common
controls have a letter each and what shows no glyph is spelled by its number. -/
def quotedChar (char : Char) : String :=
  if char = '"' then "\\\""
  else if char = '\\' then "\\\\"
  else if char = '\n' then "\\n"
  else if char = '\r' then "\\r"
  else if char = '\t' then "\\t"
  else if char = '\x00' then "\\0"
  else if invisible char then "\\u\x7b" ++ hex 1 char.toNat ++ "\x7d"
  else char.toString

def quoted (text : String) : String :=
  "\"" ++ String.join (text.toList.map quotedChar) ++ "\""

end PipelineTraining.Text
