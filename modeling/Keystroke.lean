import Keystroke.Text.Basic
import Keystroke.Text.CharClass
import Keystroke.Text.Blank
import Keystroke.Text.Combining
import Keystroke.Text.Unprintable
import Keystroke.Text.Escape
import Keystroke.Fault
import Keystroke.Word
import Keystroke.Span
import Keystroke.Token.Kind
import Keystroke.Token.Basic
import Keystroke.Token.Classifier
import Keystroke.Pattern.Basic
import Keystroke.Pattern.Longest
import Keystroke.Protobuf.Rules
import Keystroke.Protobuf.Lexeme
import Keystroke.Protobuf.Tokenize
import Keystroke.Diagnostic
import Keystroke.Protobuf.Report
import Keystroke.Line
import Keystroke.Document.Basic
import Keystroke.Document.Owner
import Keystroke.Document.Lines
import Keystroke.Document.Brackets
import Keystroke.Indent.Style
import Keystroke.Indent.Reindentation
import Keystroke.Stroke.Basic
import Keystroke.Stroke.Pairing
import Keystroke.Stroke.LineBreak
import Keystroke.Session
import Keystroke.Proofs.LongestMatch
import Keystroke.Proofs.Placement
import Keystroke.Proofs.RuleLanguages
import Keystroke.Proofs.BlockComments
import Keystroke.Proofs.QuotedStrings
import Keystroke.Proofs.LexemeSplits
import Keystroke.Proofs.OpenLexemes
import Keystroke.Proofs.TokenPartition
import Keystroke.Proofs.MaximalMunch
import Keystroke.Proofs.TokenLists
import Keystroke.Proofs.CaretContext
import Keystroke.Proofs.BracketMatching
import Keystroke.Proofs.Strokes
import Keystroke.Proofs.TypingSession
import Keystroke.Proofs.AutoClosing
import Keystroke.Proofs.TokenScan
import Keystroke.Proofs.TokenSplits
import Keystroke.Proofs.ClosingQuotes
import Keystroke.Proofs.UnclosedComments
import Keystroke.Proofs.CommentBreaks
import Keystroke.Proofs.Indentation
import Keystroke.Proofs.BraceBreaks
import Keystroke.Proofs.IndentColumns
import Keystroke.Proofs.SettledIndentation
import Keystroke.Proofs.CommentColumns
import Keystroke.Proofs.Spellings
import Keystroke.Proofs.StringGrammar
import Keystroke.Proofs.StrokeCalls
import Keystroke.Proofs.LexicalErrors
import Keystroke.Proofs.TextLimits
