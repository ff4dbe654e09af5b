import PipelineTraining.Decimal.Style

/-!
Values of data files. Members keep their order and may repeat; what a repeated
member means is for the reader of a record to say. A whole number fits into 64
bits, with or without sign; every other number is a double.
-/

namespace PipelineTraining

inductive Json where
  | null
  | bool (value : Bool)
  | whole (value : Int)
  | real (value : Float)
  | string (text : String)
  | array (items : List Json)
  | object (members : List (String × Json))

namespace Json

def natural (value : Nat) : Json :=
  .whole value

def optional (value : Option Json) : Json :=
  value.getD .null

def escaped (char : Char) : String :=
  if char = '"' then "\\\""
  else if char = '\\' then "\\\\"
  else if char = '\n' then "\\n"
  else if char = '\r' then "\\r"
  else if char = '\t' then "\\t"
  else if char.toNat = 8 then "\\b"
  else if char.toNat = 12 then "\\f"
  else if char.toNat < 32 then
    "\\u" ++ String.ofList (List.replicate (4 - (Nat.toDigits 16 char.toNat).length) '0' ++
      Nat.toDigits 16 char.toNat)
  else char.toString

def quote (text : String) : String :=
  "\"" ++ String.join (text.toList.map escaped) ++ "\""

def brackets (parts : List String) : String :=
  "[" ++ ",".intercalate parts ++ "]"

def braces (parts : List String) : String :=
  "\x7b" ++ ",".intercalate parts ++ "\x7d"

mutual

def write : Json → String
  | .null => "null"
  | .bool true => "true"
  | .bool false => "false"
  | .whole value => toString value
  | .real value => Decimal.data.write value
  | .string text => quote text
  | .array items => brackets (writeItems items)
  | .object members => braces (writeMembers members)

def writeItems : List Json → List String
  | [] => []
  | item :: rest => write item :: writeItems rest

def writeMembers : List (String × Json) → List String
  | [] => []
  | (name, value) :: rest => (quote name ++ ":" ++ write value) :: writeMembers rest

end

end Json
end PipelineTraining
