import Frontend.Text.Quoted
import Frontend.Text.Basic
import Frontend.Token.Basic
import Frontend.Typing.Signature

/-!
# Events

What happened on the way, for whoever wants to follow the work: one event for each token
read, each declaration parsed, each function annotated, each overload added and each
annotation found in place.
-/

namespace Frontend

/-- Something that happened while a source was worked on. -/
inductive Event where
  /-- A source file was read. -/
  | readSource (moduleName : String) (bytes : Nat)
  /-- A token was cut off the source. -/
  | lexed (token : Token)
  /-- A whole declaration was parsed. -/
  | parsed (function : String) (isExtern : Bool)
  /-- The annotation of a function began. -/
  | annotating (function : String) (isExtern : Bool)
  /-- An overload was added. -/
  | registered (function : String) (signature : Signature)
  /-- An operator expression already had its type. -/
  | reusedOperator (operator : String) (cached : TypeName)
  /-- A call already had its type. -/
  | reusedCall (callee : String) (cached : TypeName)
  deriving DecidableEq

namespace Event

/-- How much detail a log shows. -/
inductive Level where
  /-- All but the single tokens. -/
  | debug
  /-- Everything. -/
  | trace
  deriving DecidableEq

/-- The least detailed log that shows the event. -/
def level : Event → Level
  | .lexed _ => .trace
  | _ => .debug

/-- Whether a log of the given level shows the event. -/
def isShownAt (shown : Level) (event : Event) : Bool :=
  shown == .trace || event.level == .debug

/-- A truth value as a log line spells it. -/
private def flag (value : Bool) : String :=
  if value then "true" else "false"

/-- What is told of the event: how detailed it is, what happened, and its data. -/
def text : Event → String
  | .readSource moduleName bytes =>
    "DEBUG read source module=" ++ moduleName ++ " bytes=" ++ toString bytes
  | .lexed token => "TRACE lexed token kind=" ++ token.kind.name ++ " value=" ++ token.text
  | .parsed function isExtern =>
    "DEBUG parsed declaration function=" ++ function ++ " is_extern=" ++ flag isExtern
  | .annotating function isExtern =>
    "DEBUG annotating function function=" ++ function ++ " is_extern=" ++ flag isExtern
  | .registered function signature =>
    "DEBUG registered overload function=" ++ Text.quoted function ++ " signature=" ++
      signature.display
  | .reusedOperator operator cached =>
    "DEBUG reusing annotated type operator=" ++ operator ++ " cached=" ++ Text.quoted cached
  | .reusedCall callee cached =>
    "DEBUG reusing annotated type callee=" ++ callee ++ " cached=" ++ Text.quoted cached

/-- The event as a line that does not tell the time, without white space around it. -/
def line (event : Event) : String :=
  Text.trim event.text

/-- A log of the given level, with one text for each event that it shows.  How an event is
written is up to whoever keeps the log. -/
def log (render : Event → String) (shown : Level) (events : List Event) : List String :=
  (events.filter (isShownAt shown)).map render

end Event

end Frontend
