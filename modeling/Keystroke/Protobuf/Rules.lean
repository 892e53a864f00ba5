import Keystroke.Pattern.Longest
import Keystroke.Token.Kind

/-!
# Lexical rules of Protobuf

Each kind of token with the pattern of its texts. The fixed words stand before identifiers, and the
two version literals before strings, because the first of two equally long matches counts.

Text that is still being typed has tokens too: a block comment may lack its end, and a string may
be cut off by the end of its line.
-/

namespace Keystroke.Protobuf

/-! ## Blanks and comments -/

def blankRun : Pattern := .plus (.anyOf [' ', '\t', '\r', '\x0c'])

/-- The inside of a block comment up to a last run of stars: stars are followed by neither a star
nor a slash. -/
def commentBody : Pattern :=
  .star (.alt (.noneOf ['*']) (.seq (.plus (.char '*')) (.noneOf ['*', '/'])))

def closedComment : Pattern :=
  .seq (.word ['/', '*']) (.seq commentBody (.seq (.plus (.char '*')) (.char '/')))

def openComment : Pattern :=
  .seq (.word ['/', '*']) (.seq commentBody (.star (.char '*')))

def lineComment : Pattern := .seq (.word ['/', '/']) (.star (.noneOf ['\r', '\n']))

/-! ## Names and numbers -/

def isNameStart (c : Char) : Bool := c.isAlpha || c == '_'

def name : Pattern := .seq (.one isNameStart) (.star (.one fun c => isNameStart c || c.isDigit))

def isHexDigit (c : Char) : Bool :=
  c.isDigit || ('a' ≤ c && c ≤ 'f') || ('A' ≤ c && c ≤ 'F')

def digit : Pattern := .one Char.isDigit

def integer : Pattern :=
  .alt (.seq (.char '0') (.seq (.anyOf ['x', 'X']) (.plus (.one isHexDigit)))) (.plus digit)

def exponent : Pattern :=
  .seq (.anyOf ['e', 'E']) (.seq (.optional (.anyOf ['+', '-'])) (.plus digit))

def decimal : Pattern :=
  .alt
    (.seq
      (.alt (.seq (.plus digit) (.seq (.char '.') (.star digit))) (.seq (.char '.') (.plus digit)))
      (.optional exponent))
    (.seq (.plus digit) exponent)

/-! ## Strings -/

/-- What stands between the quotes: a backslash takes the next character with it, and no line break
is inside. -/
def stringItems (quote : Char) : Pattern :=
  .star (.alt
    (.seq (.char '\\') (.noneOf ['\n', '\r']))
    (.noneOf [quote, '\\', '\n', '\r']))

def closedString (quote : Char) : Pattern :=
  .seq (.char quote) (.seq (stringItems quote) (.char quote))

/-- A string without its closing quote. A backslash at the very end takes nothing with it. -/
def openString (quote : Char) : Pattern :=
  .seq (.char quote) (.seq (stringItems quote) (.optional (.char '\\')))

/-! ## Fixed texts -/

def wordLiterals : List (Kind × String) :=
  [(.type .double, "double"), (.type .float, "float"), (.type .int32, "int32"),
   (.type .int64, "int64"), (.type .uint32, "uint32"), (.type .uint64, "uint64"),
   (.type .sint32, "sint32"), (.type .sint64, "sint64"), (.type .fixed32, "fixed32"),
   (.type .fixed64, "fixed64"), (.type .sfixed32, "sfixed32"), (.type .sfixed64, "sfixed64"),
   (.type .bool, "bool"), (.type .string, "string"), (.type .bytes, "bytes"), (.type .map, "map"),
   (.keyword .syntaxWord, "syntax"), (.keyword .importWord, "import"), (.keyword .weak, "weak"),
   (.keyword .publicWord, "public"), (.keyword .package, "package"), (.keyword .option, "option"),
   (.keyword .repeated, "repeated"), (.keyword .optional, "optional"),
   (.keyword .required, "required"), (.keyword .oneof, "oneof"), (.keyword .message, "message"),
   (.keyword .enum, "enum"), (.keyword .service, "service"), (.keyword .rpc, "rpc"),
   (.keyword .returns, "returns"), (.keyword .stream, "stream"), (.keyword .reserved, "reserved"),
   (.keyword .toWord, "to"), (.keyword .max, "max"), (.keyword .extend, "extend"),
   (.keyword .extensions, "extensions"), (.keyword .group, "group")]

def markLiterals : List (Kind × String) :=
  [(.mark .lParen, "("), (.mark .rParen, ")"), (.mark .lBrace, "\x7b"), (.mark .rBrace, "\x7d"),
   (.mark .lBracket, "["), (.mark .rBracket, "]"), (.mark .lChevron, "<"), (.mark .rChevron, ">"),
   (.mark .semi, ";"), (.mark .comma, ","), (.mark .dot, "."), (.mark .minus, "-"),
   (.mark .plus, "+"), (.assign, "=")]

def versionLiterals : List (Kind × String) :=
  [(.proto3Double, "\"proto3\""), (.proto3Single, "'proto3'")]

/-- The texts that the scanner looks for, with the kinds that it gives them. `Kind.spelling?` is
kept apart from this list: an editor asks it how a kind is written. -/
def literals : List (Kind × String) := wordLiterals ++ versionLiterals ++ markLiterals

/-! ## All rules -/

def fixedRules : List (Rule Kind) := literals.map fun entry => ⟨entry.1, .word entry.2.toList⟩

def rules : List (Rule Kind) :=
  fixedRules ++
  [⟨.boolLit, .alt (.word "true".toList) (.word "false".toList)⟩,
   ⟨.floatLit, .alt decimal (.alt (.word "inf".toList) (.word "nan".toList))⟩,
   ⟨.ident, name⟩,
   ⟨.intLit, integer⟩,
   ⟨.whitespace, blankRun⟩,
   ⟨.newline, .char '\n'⟩,
   ⟨.blockComment, .alt closedComment openComment⟩,
   ⟨.lineComment, lineComment⟩,
   ⟨.strLit, .alt (closedString '"') (closedString '\'')⟩,
   ⟨.unterminatedStrLit, .alt (openString '"') (openString '\'')⟩]

end Keystroke.Protobuf
