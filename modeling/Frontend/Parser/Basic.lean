import Frontend.Error
import Frontend.Event
import Frontend.Token.Lexer

/-!
# Parsers

A parser reads tokens from a source with one token of lookahead, the current one.  It cuts
the next token off the source only when it moves past the current one, and never goes back.
A parser that fails leaves the state where it failed.

Nesting is limited.  A parser that can nest takes the number of levels it may still go down;
`nested` hands one of them on.

`collect` repeats a step.  Every step that is repeated here reads a token each time it finds
something, so what remains to be read bounds the repetition.
-/

namespace Frontend

/-- Where a parser stands: the current token, the source after it, and what happened so
far. -/
structure Parser.State where
  current : Token
  unread : List Char
  log : Array Event

namespace Parser.State

/-- The state on the first token of a source. -/
def ofSource (source : String) : State :=
  let (token, rest) := Token.next source.toList
  ⟨token, rest, #[.lexed token]⟩

/-- The state on the next token. -/
def advance (state : State) : State :=
  let (token, rest) := Token.next state.unread
  ⟨token, rest, state.log.push (.lexed token)⟩

/-- A bound on the tokens that remain, the current one included and `eof` not. -/
def remaining (state : State) : Nat :=
  if state.current.kind = .eof then 0 else state.unread.length + 1

end Parser.State

/-- A parser of something of type `α`. -/
abbrev Parser := EStateM Error Parser.State

namespace Parser

/-- How many levels deep a source may nest. -/
def maxNesting : Nat := 256

/-- The current token. -/
def current : Parser Token :=
  return (← get).current

/-- Moves on to the next token and answers the one passed over. -/
def advance : Parser Token :=
  modifyGet fun state => (state.current, state.advance)

/-- Records an event. -/
def record (event : Event) : Parser Unit :=
  modify fun state => { state with log := state.log.push event }

/-- Fails at the current token, naming what was expected instead. -/
def unexpected {α : Type} (expected : String) : Parser α := do
  throw (.unexpectedToken expected (← current).describe)

/-- Passes over a token of the given kind. -/
def expect (kind : Token.Kind) (expected : String) : Parser Token := do
  if (← current).kind = kind then advance else unexpected expected

/-- Passes over the given punctuation. -/
def expectMisc (text : String) : Parser Token := do
  if (← current).isMisc text then advance else unexpected text

/-- Runs a parser one level further down, if there is a level left. -/
def nested {α : Type} (parser : Nat → Parser α) : Nat → Parser α
  | 0 => throw (.nestingTooDeep maxNesting)
  | levels + 1 => parser levels

/-- Repeats a step until it answers `none`, and answers what it found.  A step that finds
something without reading a token ends the repetition as well. -/
def collect {α : Type} (step : Parser (Option α)) (state : State) :
    EStateM.Result Error State (List α) :=
  match step state with
  | .error error state' => .error error state'
  | .ok none state' => .ok [] state'
  | .ok (some item) state' =>
    if state'.remaining < state.remaining then
      match collect step state' with
      | .error error state'' => .error error state''
      | .ok items state'' => .ok (item :: items) state''
    else .ok [item] state'
termination_by state.remaining

/-- Runs a parser on a source and answers its result and the state it left. -/
def parse {α : Type} (parser : Parser α) (source : String) : Except Error α × State :=
  match parser (.ofSource source) with
  | .ok result state => (.ok result, state)
  | .error error state => (.error error, state)

end Parser

end Frontend
