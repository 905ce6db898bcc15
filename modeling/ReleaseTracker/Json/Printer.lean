import ReleaseTracker.Json.Basic
import ReleaseTracker.Number.Shortest

/-! Writing JSON values: in one line without blanks, or with a line for each item. -/

namespace ReleaseTracker.Json

def escapeChar (c : Char) : List Char :=
  if c = '"' then ['\\', '"']
  else if c = '\\' then ['\\', '\\']
  else if c = '\x08' then ['\\', 'b']
  else if c = '\x0c' then ['\\', 'f']
  else if c = '\n' then ['\\', 'n']
  else if c = '\r' then ['\\', 'r']
  else if c = '\t' then ['\\', 't']
  else if c.toNat < 0x20 then
    ['\\', 'u', '0', '0'] ++ Nat.toDigits 16 (c.toNat / 16) ++ Nat.toDigits 16 (c.toNat % 16)
  else [c]

def quote (s : String) : String :=
  String.ofList ('"' :: s.toList.flatMap escapeChar ++ ['"'])

def scalarText : Json → String
  | .bool true => "true"
  | .bool false => "false"
  | .int n => toString n
  | .float x => x.jsonText
  | .str s => quote s
  | _ => "null"

mutual

def compress : Json → String
  | .arr items => "[" ++ compressItems true items ++ "]"
  | .obj fields => "\x7b" ++ compressFields true fields ++ "\x7d"
  | v => scalarText v

def compressItems (first : Bool) : List Json → String
  | [] => ""
  | v :: rest => (if first then "" else ",") ++ v.compress ++ compressItems false rest

def compressFields (first : Bool) : List (String × Json) → String
  | [] => ""
  | (name, v) :: rest =>
    (if first then "" else ",") ++ quote name ++ ":" ++ v.compress ++ compressFields false rest

end

def prettyFields (fields : List (String × Json)) : List String :=
  if fields.isEmpty then ["\x7b\x7d"]
  else
    let line (last : Bool) (field : String × Json) : String :=
      "  " ++ quote field.1 ++ ": " ++ field.2.compress ++ (if last then "" else ",")
    ["\x7b"] ++ fields.dropLast.map (line false) ++
      (fields.drop (fields.length - 1)).map (line true)
      ++ ["\x7d"]

end ReleaseTracker.Json
