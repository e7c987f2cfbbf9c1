import Rulebook.Text.Blank

/-!
# Marks

The ASCII characters that give a rule its structure besides its keywords: the two quotes, the two
parentheses, and the characters that may stand next to a keyword.
-/

namespace Rulebook.Text

/-- The two quotes.  Either closes only what it opened itself. -/
def isQuote (c : Char) : Bool := c == '\x27' || c == '\x22'

/-- The characters that delimit a keyword: ASCII white space and the parentheses. -/
def isDelimiter (c : Char) : Bool := isSpace c || c == '(' || c == ')'

end Rulebook.Text
