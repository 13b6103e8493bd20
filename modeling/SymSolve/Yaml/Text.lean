/-!
# Characters and places of a YAML text

A `Cursor` is a place in a text: what is left of it, and where the place is. Lines end at five
different breaks; of them the first three count as one and the same break, and a carriage return
and a line feed together are one break as well.
-/

namespace SymSolve.Yaml

/-! ## Characters -/

/-- Characters that a text may hold. -/
def isPrintable (c : Char) : Bool :=
  let n := c.toNat
  n = 0x09 || n = 0x0a || n = 0x0d || (0x20 ≤ n && n ≤ 0x7e) || n = 0x85 ||
    (0xa0 ≤ n && n ≤ 0xd7ff) || (0xe000 ≤ n && n ≤ 0xfffd) || 0x10000 ≤ n

/-- Characters that end a line. -/
def isBreak (c : Char) : Bool :=
  c = '\n' || c = '\r' || c = '\x85' || c = '\u2028' || c = '\u2029'

/-- Blanks within a line. -/
def isBlank (c : Char) : Bool := c = ' ' || c = '\t'

/-- Characters that end a word: blanks and breaks. -/
def isGap (c : Char) : Bool := isBlank c || isBreak c

/-- Characters of anchors, handles and directive names. -/
def isNameChar (c : Char) : Bool := c.isAlphanum || c = '-' || c = '_'

/-- Whether a condition holds of a character, or the text is at its end. -/
def atEndOr (p : Char → Bool) : Option Char → Bool
  | none => true
  | some c => p c

/-- Whether a condition holds of a character, which has to be there. -/
def holds (p : Char → Bool) (c : Option Char) : Bool := c.any p

/-! ## Places -/

/-- A place in a text. -/
structure Cursor where
  rest : List Char
  index : Nat
  line : Nat
  column : Nat

namespace Cursor

/-- The beginning of a text. -/
def start (text : List Char) : Cursor := ⟨text, 0, 0, 0⟩

/-- The character at a place; none at the end. -/
def head? (c : Cursor) : Option Char := c.rest.head?

/-- The character some places on. -/
def ahead? (c : Cursor) (n : Nat) : Option Char := c.rest[n]?

/-- The next place. A byte order mark takes up no column. -/
def next (c : Cursor) : Cursor :=
  match c.rest with
  | [] => c
  | ch :: rest =>
    let index := c.index + 1
    if isBreak ch && !(ch = '\r' && rest.head? = some '\n') then ⟨rest, index, c.line + 1, 0⟩
    else ⟨rest, index, c.line, if ch = '\ufeff' then c.column else c.column + 1⟩

/-- The place some characters on. -/
def skip : Nat → Cursor → Cursor
  | 0, c => c
  | n + 1, c => skip n c.next

/-- The characters up to the first that fails a condition, and the place after them. -/
def span (p : Char → Bool) (c : Cursor) : List Char × Cursor :=
  let run := c.rest.takeWhile p
  (run, skip run.length c)

/-- The place after all characters that meet a condition. -/
def past (p : Char → Bool) (c : Cursor) : Cursor := (c.span p).2

/-- The place after blanks up to a column. -/
def indentTo (column : Nat) (c : Cursor) : Cursor :=
  skip (min (c.rest.takeWhile (· = ' ')).length (column - c.column)) c

/-- The break at a place, and the place after it. -/
def lineBreak? (c : Cursor) : Option (Char × Cursor) :=
  match c.rest with
  | '\r' :: '\n' :: _ => some ('\n', skip 2 c)
  | ch :: _ =>
    if ch = '\u2028' ∨ ch = '\u2029' then some (ch, c.next)
    else if isBreak ch then some ('\n', c.next)
    else none
  | [] => none

/-- The place after a comment, if there is one. -/
def pastComment (c : Cursor) : Cursor :=
  if c.head? = some '#' then c.past fun ch => !isBreak ch else c

/-- The place after blanks and a comment, if nothing else is left on the line. -/
def restOfLine? (c : Cursor) : Option Cursor :=
  let c := (c.past (· = ' ')).pastComment
  match c.lineBreak? with
  | some (_, c) => some c
  | none => if c.rest.isEmpty then some c else none

/-- Whether three equal marks stand here on their own. -/
def isMarker (mark : Char) (c : Cursor) : Bool :=
  match c.rest with
  | x :: y :: z :: rest => x = mark && y = mark && z = mark && atEndOr isGap rest.head?
  | _ => false

/-- Whether a line that starts here would end the document. -/
def isSeparator (c : Cursor) : Bool := c.isMarker '-' || c.isMarker '.'

end Cursor

end SymSolve.Yaml
