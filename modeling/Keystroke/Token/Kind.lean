/-!
# Kinds of Protobuf tokens

Words with a fixed spelling are grouped into types, keywords and punctuation. `Kind.spelling?`
spells them, `Kind.name` names a kind in answers, and `Kind.category` sorts the kinds into the
groups that an editor colours.
-/

namespace Keystroke

inductive TypeWord where
  | double | float | int32 | int64 | uint32 | uint64 | sint32 | sint64
  | fixed32 | fixed64 | sfixed32 | sfixed64 | bool | string | bytes | map
deriving DecidableEq

namespace TypeWord

def spelling : TypeWord → String
  | double => "double"
  | float => "float"
  | int32 => "int32"
  | int64 => "int64"
  | uint32 => "uint32"
  | uint64 => "uint64"
  | sint32 => "sint32"
  | sint64 => "sint64"
  | fixed32 => "fixed32"
  | fixed64 => "fixed64"
  | sfixed32 => "sfixed32"
  | sfixed64 => "sfixed64"
  | bool => "bool"
  | string => "string"
  | bytes => "bytes"
  | map => "map"

def name : TypeWord → String
  | string => "StringKw"
  | word => word.spelling.capitalize

def all : List TypeWord :=
  [double, float, int32, int64, uint32, uint64, sint32, sint64,
   fixed32, fixed64, sfixed32, sfixed64, bool, string, bytes, map]

end TypeWord

inductive Keyword where
  | syntaxWord | importWord | weak | publicWord | package | option | repeated | optional
  | required | oneof | message | enum | service | rpc | returns | stream
  | reserved | toWord | max | extend | extensions | group
deriving DecidableEq

namespace Keyword

def spelling : Keyword → String
  | syntaxWord => "syntax"
  | importWord => "import"
  | weak => "weak"
  | publicWord => "public"
  | package => "package"
  | option => "option"
  | repeated => "repeated"
  | optional => "optional"
  | required => "required"
  | oneof => "oneof"
  | message => "message"
  | enum => "enum"
  | service => "service"
  | rpc => "rpc"
  | returns => "returns"
  | stream => "stream"
  | reserved => "reserved"
  | toWord => "to"
  | max => "max"
  | extend => "extend"
  | extensions => "extensions"
  | group => "group"

def name : Keyword → String
  | option => "OptionKw"
  | word => word.spelling.capitalize

def all : List Keyword :=
  [syntaxWord, importWord, weak, publicWord, package, option, repeated, optional,
   required, oneof, message, enum, service, rpc, returns, stream,
   reserved, toWord, max, extend, extensions, group]

end Keyword

/-- Punctuation, the assignment sign apart. -/
inductive Mark where
  | lParen | rParen | lBrace | rBrace | lBracket | rBracket | lChevron | rChevron
  | semi | comma | dot | minus | plus
deriving DecidableEq

namespace Mark

def spelling : Mark → String
  | lParen => "("
  | rParen => ")"
  | lBrace => "\x7b"
  | rBrace => "\x7d"
  | lBracket => "["
  | rBracket => "]"
  | lChevron => "<"
  | rChevron => ">"
  | semi => ";"
  | comma => ","
  | dot => "."
  | minus => "-"
  | plus => "+"

def name : Mark → String
  | lParen => "LParen"
  | rParen => "RParen"
  | lBrace => "LBrace"
  | rBrace => "RBrace"
  | lBracket => "LBracket"
  | rBracket => "RBracket"
  | lChevron => "LChevron"
  | rChevron => "RChevron"
  | semi => "Semi"
  | comma => "Comma"
  | dot => "Dot"
  | minus => "Minus"
  | plus => "Plus"

def all : List Mark :=
  [lParen, rParen, lBrace, rBrace, lBracket, rBracket, lChevron, rChevron,
   semi, comma, dot, minus, plus]

end Mark

inductive Category where
  | whitespace | comment | type | keyword | identifier | number
  | boolean | string | separator | operator | error
deriving DecidableEq

namespace Category

def name : Category → String
  | whitespace => "whitespace"
  | comment => "comment"
  | type => "type"
  | keyword => "keyword"
  | identifier => "identifier"
  | number => "number"
  | boolean => "boolean"
  | string => "string"
  | separator => "separator"
  | operator => "operator"
  | error => "error"

end Category

inductive Kind where
  | whitespace
  | newline
  | blockComment
  | lineComment
  | type (word : TypeWord)
  | keyword (word : Keyword)
  | boolLit
  | ident
  | intLit
  | floatLit
  | strLit
  /-- A string literal that its line ends before its closing quote. -/
  | unterminatedStrLit
  /-- The literal that names the language version, between double quotes. -/
  | proto3Double
  /-- The literal that names the language version, between single quotes. -/
  | proto3Single
  | mark (mark : Mark)
  | assign
  /-- A character that starts no token. -/
  | error
  /-- The empty token at the end of every token list. -/
  | eof
deriving DecidableEq

namespace Kind

/-- Every kind, in the order in which they are numbered. -/
def all : List Kind :=
  [whitespace, newline, blockComment, lineComment] ++
  TypeWord.all.map type ++
  Keyword.all.map keyword ++
  [boolLit, ident, intLit, floatLit, strLit, unterminatedStrLit, proto3Double, proto3Single] ++
  Mark.all.map mark ++
  [assign, error, eof]

def name : Kind → String
  | whitespace => "Whitespace"
  | newline => "Newline"
  | blockComment => "BlockComment"
  | lineComment => "LineComment"
  | type word => word.name
  | keyword word => word.name
  | boolLit => "BoolLit"
  | ident => "Ident"
  | intLit => "IntLit"
  | floatLit => "FloatLit"
  | strLit => "StrLit"
  | unterminatedStrLit => "UnterminatedStrLit"
  | proto3Double => "Proto3Double"
  | proto3Single => "Proto3Single"
  | mark m => m.name
  | assign => "Assign"
  | error => "Error"
  | eof => "Eof"

def ofName? (name : String) : Option Kind := all.find? (·.name == name)

def category : Kind → Category
  | whitespace | newline => .whitespace
  | blockComment | lineComment => .comment
  | type _ => .type
  | keyword _ => .keyword
  | boolLit => .boolean
  | ident => .identifier
  | intLit | floatLit => .number
  | strLit | unterminatedStrLit | proto3Double | proto3Single => .string
  | mark _ => .separator
  | assign => .operator
  | error | eof => .error

/-- The text of a kind whose tokens are all spelled the same. -/
def spelling? : Kind → Option String
  | type word => some word.spelling
  | keyword word => some word.spelling
  | proto3Double => some "\"proto3\""
  | proto3Single => some "'proto3'"
  | mark m => some m.spelling
  | assign => some "="
  | whitespace | newline | blockComment | lineComment => none
  | boolLit | ident | intLit | floatLit => none
  | strLit | unterminatedStrLit => none
  | error | eof => none

theorem mem_all (kind : Kind) : kind ∈ all := by
  cases kind with
  | type word => cases word <;> decide
  | keyword word => cases word <;> decide
  | mark m => cases m <;> decide
  | _ => decide

end Kind

end Keystroke
