/-!
# Tokens

The words of the language: a kind and the source text it was read from.  Among them are the
operators; how their characters combine and how tightly they bind stands here as well.
-/

namespace Frontend

/-- What sort of word a token is.  The reserved words have a kind each; `misc` is
every character that belongs to no other kind. -/
inductive Token.Kind where
  | eof
  | kwDef
  | kwExtern
  | kwIf
  | kwElse
  | identifier
  | int
  | float
  | bool
  | kwLet
  | kwReturn
  | op
  | misc
  deriving DecidableEq

/-- A word of the source.  At the end of the source stands a token of kind `eof`
without text. -/
structure Token where
  kind : Token.Kind
  text : String
  deriving DecidableEq

namespace Token

/-- The name of the kind in listings. -/
def Kind.name : Kind → String
  | .eof => "Eof"
  | .kwDef => "Def"
  | .kwExtern => "Extern"
  | .kwIf => "If"
  | .kwElse => "Else"
  | .identifier => "Identifier"
  | .int => "Int"
  | .float => "Float"
  | .bool => "Bool"
  | .kwLet => "Let"
  | .kwReturn => "Return"
  | .op => "Op"
  | .misc => "Misc"

/-- Every kind. -/
def Kind.all : List Kind :=
  [.eof, .kwDef, .kwExtern, .kwIf, .kwElse, .identifier, .int, .float, .bool, .kwLet, .kwReturn,
    .op, .misc]

/-- The kind with the given name, if there is one. -/
def Kind.ofName? (name : String) : Option Kind :=
  Kind.all.find? fun kind => kind.name == name

/-- The words that are no identifiers, with their kinds.  The two truth values
share a kind. -/
def reserved : List (String × Kind) :=
  [("def", .kwDef), ("extern", .kwExtern), ("if", .kwIf), ("else", .kwElse), ("let", .kwLet),
    ("return", .kwReturn), ("true", .bool), ("false", .bool)]

/-- The token at the end of every source. -/
def eof : Token := ⟨.eof, ""⟩

/-- Whether the token is the punctuation `text`. -/
def isMisc (token : Token) (text : String) : Bool :=
  token.kind == .misc && token.text == text

/-- Whether the token is the operator `text`. -/
def isOp (token : Token) (text : String) : Bool :=
  token.kind == .op && token.text == text

/-- Kind and text, as listings show a token. -/
def display (token : Token) : String :=
  token.kind.name ++ " (" ++ token.text ++ ")"

/-- How a message speaks of the token. -/
def describe (token : Token) : String :=
  if token.kind == .eof then "end of input" else token.text

end Token

/-! ## Operators -/

namespace Operator

/-- The operators. -/
def all : List String :=
  ["<", "<=", ">", ">=", "==", "!=", "+", "-", "*", "/", "%"]

/-- The characters that an operator can begin with, each with the characters that
may come second.  A lone `=` or `!` begins an operator and is none. -/
def leads : List (Char × List Char) :=
  [('<', ['=']), ('>', ['=']), ('=', ['=']), ('!', ['=']), ('+', []), ('-', []), ('*', []),
    ('/', []), ('%', [])]

/-- The characters that may follow `c` in an operator: none for a character that
begins no operator. -/
def followers (c : Char) : List Char :=
  (leads.lookup c).getD []

/-- How tightly each operator binds; a larger number binds tighter. -/
def precedences : List (String × Int) :=
  [("<", 10), ("<=", 10), (">", 10), (">=", 10), ("==", 10), ("!=", 10), ("+", 20), ("-", 20),
    ("*", 40), ("/", 40), ("%", 40)]

/-- The precedence of an operator, and `-1` for any other text. -/
def precedence (text : String) : Int :=
  (precedences.lookup text).getD (-1)

end Operator

/-- The precedence of the token as a binary operator, and `-1` if it is none. -/
def Token.precedence (token : Token) : Int :=
  if token.kind == .op then Operator.precedence token.text else -1

end Frontend
