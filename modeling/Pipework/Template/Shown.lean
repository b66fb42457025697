import Pipework.Template.Token
import Pipework.Value.Text

/-!
# The text of words

A word has a surface, which is its text with every marker replaced by the plain text of its value, and a
form that shows its tokens one by one.
-/

namespace Pipework.Template

namespace Token

/-- The text that a token puts into the surface of its word. -/
def surface (m : Memory) : Token Value → Text
  | literal text _ _ => text
  | marker _ value _ _ => value.text m

/-- What a token holds, as it is shown: the text of a literal, or the value of a marker. -/
def held (m : Memory) : Token Value → Text
  | literal text _ _ => text
  | marker _ value _ _ => value.shown m

/-- A token as it is shown. -/
def shown (m : Memory) : Token Value → Text
  | literal text pos _ => "Token(LITERAL, " ++ text.quoted ++ ", pos=" ++ Text.ofNat pos ++ ")"
  | marker name value pos _ =>
    "Token(INTERPOLATION, $" ++ name ++ "=" ++ value.shown m ++ ", pos=" ++ Text.ofNat pos ++ ")"

/-- The word for a token's kind. -/
def kind : Token Value → String
  | literal .. => "LITERAL"
  | marker .. => "INTERPOLATION"

end Token

namespace Word

/-- The text of a word with its values put in. -/
def surface (m : Memory) (w : Word Value) : Text := w.tokens.flatMap (Token.surface m)

/-- A word as it is shown. -/
def shown (m : Memory) (w : Word Value) : Text :=
  "Word([" ++ Text.join ", " (w.tokens.map (Token.shown m)) ++ "])"

end Word

end Pipework.Template
