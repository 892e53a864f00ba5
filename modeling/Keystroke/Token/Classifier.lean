import Keystroke.Token.Basic
import Keystroke.Token.Kind

/-! What an editor has to know about the kinds of a language's tokens. -/

namespace Keystroke

/-- Whether a token is a block comment without its end: it holds a second opening mark, having run
into the next comment, or it reaches the end of the text. -/
def Token.lacksCommentEnd {κ : Type} (isBlockComment : κ → Bool) (token : Token κ) (text : Text) :
    Bool :=
  let start := token.span.start + 2
  let stop := token.span.stop - 2
  isBlockComment token.kind &&
    (((text.slice? start stop).any (Text.includes · ['/', '*'])) ||
      text.byteSize ≤ token.span.stop)

/-- A language that has its own notion of comments may give the last two answers otherwise. -/
structure Classifier (κ : Type) where
  isEnd : κ → Bool
  isString : κ → Bool
  isUnterminatedString : κ → Bool
  isBlockComment : κ → Bool
  isLineComment : κ → Bool
  isComment : κ → Bool := fun kind => isBlockComment kind || isLineComment kind
  isUnclosedBlockComment : Token κ → Text → Bool := Token.lacksCommentEnd isBlockComment

namespace Classifier

variable {κ : Type}

/-- Whether brackets inside a token of this kind are plain text. -/
def isLiteral (classifier : Classifier κ) (kind : κ) : Bool :=
  classifier.isString kind || classifier.isComment kind

def protobuf : Classifier Kind where
  isEnd kind := kind == .eof
  isString kind := kind.category == .string
  isUnterminatedString kind := kind == .unterminatedStrLit
  isBlockComment kind := kind == .blockComment
  isLineComment kind := kind == .lineComment

end Classifier

end Keystroke
