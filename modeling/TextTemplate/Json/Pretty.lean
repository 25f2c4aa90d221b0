/-!
# JSON documents

Documents printed over several lines, two blanks deeper for every level.
-/

namespace TextTemplate

/-- A JSON document. -/
inductive Json where
  | number (n : Nat)
  | string (s : String)
  | array (items : List Json)
  | object (fields : List (String × Json))

namespace Json

/-- A character in a string. -/
def escapeChar (c : Char) : List Char :=
  match c with
  | '\"' => ['\\', '\"']
  | '\\' => ['\\', '\\']
  | '\x08' => ['\\', 'b']
  | '\x0c' => ['\\', 'f']
  | '\n' => ['\\', 'n']
  | '\r' => ['\\', 'r']
  | '\t' => ['\\', 't']
  | c =>
    if c.toNat < 32 then
      ['\\', 'u', '0', '0', (c.toNat / 16).digitChar, (c.toNat % 16).digitChar]
    else [c]

/-- A string in its quotes. -/
def quoted (s : String) : String :=
  String.ofList ('\"' :: (s.toList.flatMap escapeChar ++ ['\"']))

/-- Lines between brackets, parted by commas; nothing stands between the brackets of no lines. -/
def enclose (opening closing indent : String) : List String → String
  | [] => opening ++ closing
  | ls => opening ++ "\n" ++ ",\n".intercalate (ls.map fun l => indent ++ "  " ++ l)
      ++ "\n" ++ indent ++ closing

mutual

/-- The document, where `indent` stands in front of its lines after the first. -/
def render (indent : String) : Json → String
  | number n => toString n
  | string s => quoted s
  | array vs => enclose "[" "]" indent (renderItems (indent ++ "  ") vs)
  | object fs => enclose "\x7b" "\x7d" indent (renderFields (indent ++ "  ") fs)

/-- The items of an array. -/
def renderItems (indent : String) : List Json → List String
  | [] => []
  | v :: vs => render indent v :: renderItems indent vs

/-- The fields of an object. -/
def renderFields (indent : String) : List (String × Json) → List String
  | [] => []
  | (k, v) :: fs => (quoted k ++ ": " ++ render indent v) :: renderFields indent fs

end

/-- The document as text. -/
def pretty (j : Json) : String := render "" j

end Json

end TextTemplate
