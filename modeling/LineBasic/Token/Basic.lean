import LineBasic.Position
import LineBasic.Text.Quoted
import LineBasic.Token.Vocabulary

/-!
# Tokens

A token is a piece of a line together with what it is and where it begins.
-/

namespace LineBasic

/-- A tagged piece of a line and the position of its first character. -/
structure Token where
  tag : Tag
  lexeme : String
  position : Position
  deriving DecidableEq

namespace Token

/-- The category of the token. -/
def kind (t : Token) : Kind := t.tag.kind

/-- The token as shown to people, without its position. -/
def display (t : Token) : String :=
  s!"Token({t.tag.name}, {t.lexeme})"

end Token

/-- A sequence of texts as a tuple: in parentheses, separated by commas, with a
comma after a single one. -/
def displayTuple : List String → String
  | [] => "()"
  | [text] => s!"({text},)"
  | texts => "(" ++ ", ".intercalate texts ++ ")"

/-- The refusal to change a part of a token: tokens stay as they were made. -/
structure FixedPart where
  part : String
  deriving DecidableEq, Repr

/-- The refusal in words. -/
def FixedPart.message (e : FixedPart) : String :=
  s!"Token is immutable; cannot set {Text.quote e.part}"

/-- Change the named part of a token. No part can be changed, whatever its
name. -/
def Token.change (_ : Token) (part : String) : Except FixedPart Token :=
  .error ⟨part⟩

end LineBasic
