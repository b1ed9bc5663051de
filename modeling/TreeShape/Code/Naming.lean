/-!
The identifiers that generated code uses for the names of a schema. Those names are made of ASCII
letters, digits and underscores.
-/

namespace TreeShape.Code

/-- Words that are written as raw identifiers. -/
def keywords : List String :=
  ["abstract", "as", "async", "await", "become", "box", "break", "const", "continue", "do", "dyn",
   "else", "enum", "extern", "false", "final", "fn", "for", "gen", "if", "impl", "in", "let",
   "loop", "macro", "match", "mod", "move", "mut", "override", "priv", "pub", "ref", "return",
   "static", "struct", "trait", "true", "try", "type", "typeof", "unsafe", "unsized", "use",
   "virtual", "where", "while", "yield"]

/-- Words that cannot even be raw identifiers. -/
def reserved : List String :=
  ["crate", "self", "Self", "super", "_"]

/-- Whether a capital after `previous` and before `next` begins a word. In a run of capitals, only
the last one does, if a small letter follows it. -/
def beginsWord (previous next : Option Char) : Bool :=
  match previous with
  | none => false
  | some p =>
    p != '_' && (p.isLower || p.isDigit || p.isUpper && next.any Char.isLower)

def snakeChars (previous : Option Char) : List Char → List Char
  | [] => []
  | c :: rest =>
    if c.isUpper then
      if beginsWord previous rest.head? then '_' :: c.toLower :: snakeChars (some c) rest
      else c.toLower :: snakeChars (some c) rest
    else c :: snakeChars (some c) rest

def snakeCase (name : String) : String :=
  String.ofList (snakeChars none name.toList)

def camelChars (capital : Bool) : List Char → List Char
  | [] => []
  | c :: rest =>
    if c = '_' then camelChars true rest
    else (if capital then c.toUpper else c) :: camelChars false rest

/-- A capital at the start and after underscores, which are left out. -/
def upperCamelCase (name : String) : String :=
  String.ofList (camelChars true name.toList)

def unreserved (name : String) : String :=
  if reserved.contains name then name ++ "_" else name

def identifier (name : String) : String :=
  if keywords.contains name then "r#" ++ name else unreserved name

def fieldIdent (name : String) : String :=
  identifier (snakeCase name)

def typeIdent (name : String) : String :=
  identifier (upperCamelCase name)

/-- The name of the file of a rule, which is also what its functions end in. -/
def unitName (rule : String) : String :=
  unreserved (snakeCase rule)

/-- The names that generated functions use for themselves. -/
def ownLocals : List String := ["tree", "rest"]

def localIdent (field : String) : String :=
  if ownLocals.contains (fieldIdent field) then fieldIdent field ++ "_value" else fieldIdent field

end TreeShape.Code
