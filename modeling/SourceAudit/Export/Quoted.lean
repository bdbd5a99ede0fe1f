namespace SourceAudit

namespace Quoted

def hexDigit (value : Nat) : Char :=
  if value < 10 then Char.ofNat ('0'.toNat + value) else Char.ofNat ('a'.toNat + (value - 10))

/-- Short escapes where there are any, numbers for other control characters, all else as it is. -/
def escape (c : Char) : List Char :=
  if c = '\x22' then ['\\', '\x22']
  else if c = '\\' then ['\\', '\\']
  else if c = '\n' then ['\\', 'n']
  else if c = '\r' then ['\\', 'r']
  else if c = '\t' then ['\\', 't']
  else if c = '\x08' then ['\\', 'b']
  else if c = '\x0c' then ['\\', 'f']
  else if c.toNat < 32 then
    ['\\', 'u', '0', '0', hexDigit (c.toNat / 16), hexDigit (c.toNat % 16)]
  else [c]

def encode (text : String) : String :=
  String.ofList ('\x22' :: text.toList.flatMap escape ++ ['\x22'])

end Quoted

namespace Export.Json

def margin (level : Nat) : String := String.ofList (List.replicate (2 * level) ' ')

def object (level : Nat) (fields : List (String × String)) : String :=
  let lines := fields.map fun (key, value) =>
    margin (level + 1) ++ Quoted.encode key ++ ": " ++ value
  "\x7b\n" ++ ",\n".intercalate lines ++ "\n" ++ margin level ++ "\x7d"

def array (level : Nat) : List String → String
  | [] => "[]"
  | values =>
    "[\n" ++ ",\n".intercalate (values.map (margin (level + 1) ++ ·)) ++ "\n" ++ margin level ++ "]"

end Export.Json
end SourceAudit
