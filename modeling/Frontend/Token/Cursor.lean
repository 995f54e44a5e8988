import Frontend.Token.Lexer

/-!
# Cursors

A place in a source, counted in bytes of its UTF-8 form, from which tokens are read
one by one.  A cursor can be moved to places that are no place of the source: past
its end, or between the bytes of one character.  What cannot be answered there is
answered by `none`.

`Cursor.next?` moves on in steps: over runs of white space and comments, one after the
other, and then over the characters of one token.  After each step it looks at the
source again, from the place where it has come to.
-/

namespace Frontend

/-- A source and a place in it, in bytes from its start. -/
structure Cursor where
  source : String
  position : Nat

namespace Cursor

/-- The number of bytes of the UTF-8 form. -/
def byteLength (cs : List Char) : Nat :=
  cs.foldr (fun c bytes => c.utf8Size + bytes) 0

/-- What is left after the given number of bytes; `none` if there are fewer, or if
they end inside a character. -/
def dropBytes? : List Char → Nat → Option (List Char)
  | cs, 0 => some cs
  | [], _ + 1 => none
  | c :: cs, bytes + 1 =>
    if c.utf8Size ≤ bytes + 1 then dropBytes? cs (bytes + 1 - c.utf8Size) else none

/-- The cursor at the start of a source. -/
def ofSource (source : String) : Cursor := ⟨source, 0⟩

/-- The cursor back at the start. -/
def reset (cursor : Cursor) : Cursor :=
  { cursor with position := 0 }

/-- The cursor moved on by `bytes`, wherever that leads. -/
def advance (cursor : Cursor) (bytes : Nat) : Cursor :=
  { cursor with position := cursor.position + bytes }

/-- Whether nothing is left to read. -/
def atEnd (cursor : Cursor) : Bool :=
  cursor.source.utf8ByteSize ≤ cursor.position

/-- The source from the cursor on, unless the cursor stands at no place of it. -/
def rest? (cursor : Cursor) : Option (List Char) :=
  dropBytes? cursor.source.toList cursor.position

/-- The cursor behind a run of characters that begins at it. -/
def pass (cursor : Cursor) (run : List Char) : Cursor :=
  cursor.advance (byteLength run)

/-- The run of white space, or else the comment, at the front of a source; empty if
there is neither. -/
def leadingGap : List Char → List Char
  | [] => []
  | c :: cs =>
    if Text.isWhiteSpace c then c :: cs.takeWhile Text.isWhiteSpace
    else if c == '#' then c :: cs.takeWhile fun d => !Token.isLineBreak d
    else []

/-- The symbol at the cursor, of which `c` is the first character, and the cursor
behind it.  The character after `c` belongs to it if it may follow `c` in an
operator. -/
def symbol? (cursor : Cursor) (c : Char) : Option (Token × Cursor) :=
  let second := cursor.pass [c]
  match second.rest? with
  | none => none
  | some [] => some (Token.ofSymbol (String.ofList [c]), second)
  | some (d :: _) =>
    if (Operator.followers c).contains d then
      some (Token.ofSymbol (String.ofList [c, d]), second.pass [d])
    else some (Token.ofSymbol (String.ofList [c]), second)

/-- The token at the cursor, where the source goes on with `c :: cs` and with no gap,
and the cursor behind it. -/
def cut? (cursor : Cursor) (c : Char) (cs : List Char) : Option (Token × Cursor) :=
  if c.isAlpha then
    let word := c :: cs.takeWhile Token.isWordChar
    some (Token.ofWord (String.ofList word), cursor.pass word)
  else if Token.isNumberChar c then
    let number := c :: cs.takeWhile Token.isNumberChar
    some (Token.ofNumber number, cursor.pass number)
  else cursor.symbol? c

theorem byteLength_cons_pos (c : Char) (cs : List Char) : 0 < byteLength (c :: cs) :=
  Nat.add_pos_left c.utf8Size_pos _

/-- The next token and the cursor behind it.  Past the end there are only `eof`
tokens; inside a character there is no answer. -/
def next? (cursor : Cursor) : Option (Token × Cursor) :=
  if _hend : cursor.atEnd then some (Token.eof, cursor)
  else
    match cursor.rest? with
    | none => none
    | some [] => some (Token.eof, cursor)
    | some (c :: cs) =>
      match leadingGap (c :: cs) with
      | [] => cursor.cut? c cs
      | d :: gap => (cursor.pass (d :: gap)).next?
termination_by cursor.source.utf8ByteSize - cursor.position
decreasing_by
  have hpos := byteLength_cons_pos d gap
  simp only [atEnd, decide_eq_true_eq] at _hend
  simp only [pass, advance]
  omega

end Cursor

end Frontend
