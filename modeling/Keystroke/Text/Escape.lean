import Keystroke.Text.Combining
import Keystroke.Text.Unprintable

/-! How a message shows a piece of text: what the reader could not see is spelled out. -/
namespace Keystroke.Text

/-- Whether a character shows nothing of its own when it is written as it is. -/
def isHidden (c : Char) : Bool := combining.has c || unprintable.has c || fillers.has c

/-- A character as a message shows it, `quotes` being the quotation marks that would end the text
around it. -/
def escapeChar (quotes : List Char) (c : Char) : Text :=
  if c = '\x00' then ['\\', '0']
  else if c = '\t' then ['\\', 't']
  else if c = '\r' then ['\\', 'r']
  else if c = '\n' then ['\\', 'n']
  else if c = '\\' || quotes.contains c then ['\\', c]
  else if isHidden c then ['\\', 'u', '\x7b'] ++ Nat.toDigits 16 c.toNat ++ ['\x7d']
  else [c]

def escape (text : Text) (quotes : List Char) : Text := text.flatMap (escapeChar quotes)

def quoteChar (c : Char) : String := String.ofList ('\'' :: (escapeChar ['\''] c ++ ['\'']))

def quote (text : Text) : String := String.ofList ('"' :: (text.escape ['"'] ++ ['"']))

end Keystroke.Text
