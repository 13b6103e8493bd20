import SymSolve.Numeral
import SymSolve.Yaml.Fault
import SymSolve.Yaml.Text

/-!
# Reading scalars

Scalars are written plain, in quotes, or as blocks. A line break inside a plain or quoted scalar
folds into a blank, and further breaks after it stay. All functions here take the place where a
scalar starts, and return its text and the place after it.
-/

namespace SymSolve.Yaml

/-- Text that was read, and the place after it. -/
abbrev Reading := Except Fault (List Char × Cursor)

/-- What a break and the breaks after it leave of a folded text. -/
def folded (first : Char) (more : List Char) : List Char :=
  (if first ≠ '\n' then [first] else if more.isEmpty then [' '] else []) ++ more

/-! ## Quoted scalars -/

/-- The character that a short escape stands for. -/
def escaped? (c : Char) : Option Char :=
  match c with
  | '0' => some '\x00'
  | 'a' => some '\x07'
  | 'b' => some '\x08'
  | 't' | '\t' => some '\t'
  | 'n' => some '\n'
  | 'v' => some '\x0b'
  | 'f' => some '\x0c'
  | 'r' => some '\r'
  | 'e' => some '\x1b'
  | ' ' | '"' | '\\' | '/' => some c
  | 'N' => some '\x85'
  | '_' => some '\xa0'
  | 'L' => some '\u2028'
  | 'P' => some '\u2029'
  | _ => none

/-- How many hexadecimal digits follow an escape. -/
def escapeDigits? (c : Char) : Option Nat :=
  if c = 'x' then some 2 else if c = 'u' then some 4 else if c = 'U' then some 8 else none

/-- The character with a number. Numbers of surrogates are read as the replacement character. -/
def numberedChar (n : Nat) : Except Fault Char :=
  if n < 0x110000 then .ok (if 0xd800 ≤ n ∧ n < 0xe000 then '\ufffd' else Char.ofNat n)
  else if n < 0x80000000 then .error (.value .unreadable)
  else .error (.value .tooLarge)

/-- The breaks from the beginning of a line to the next text. The document must not end here. -/
def quotedBreaks : (fuel : Nat) → Cursor → Reading
  | 0, c => .ok ([], c)
  | fuel + 1, c =>
    if c.isSeparator then .error .token
    else
      let c := c.past isBlank
      match c.lineBreak? with
      | none => .ok ([], c)
      | some (b, c) => (quotedBreaks fuel c).map fun (bs, c) => (b :: bs, c)

/-- An escape in double quotes, from the character after the backslash on. -/
def escape (c : Cursor) : Reading :=
  match c.head? with
  | none => .error .token
  | some ch =>
    match escaped? ch, escapeDigits? ch, c.lineBreak? with
    | some ch, _, _ => .ok ([ch], c.next)
    | none, some count, _ =>
      let digits := c.next.rest.take count
      match Numeral.digits? 16 digits with
      | some n =>
        if digits.length = count then
          (numberedChar n).map fun ch => ([ch], Cursor.skip count c.next)
        else .error .token
      | none => .error .token
    | none, none, some (_, c) => quotedBreaks c.rest.length c
    | none, none, none => .error .token

/-- Blanks and breaks in a quoted scalar. -/
def quotedGap (c : Cursor) : Reading :=
  let (blanks, c) := c.span isBlank
  match c.lineBreak? with
  | some (first, c) => (quotedBreaks c.rest.length c).map fun (more, c) => (folded first more, c)
  | none => if c.rest.isEmpty then .error .token else .ok (blanks, c)

/-- A quoted scalar from its opening quote on is read by `quoted`; this is the rest of it. -/
def quotedRest (double : Bool) : (fuel : Nat) → Cursor → Reading
  | 0, _ => .error .token
  | fuel + 1, c =>
    let more (part : List Char) (c : Cursor) : Reading :=
      (quotedRest double fuel c).map fun (text, c) => (part ++ text, c)
    match c.rest with
    | [] => .error .token
    | ch :: rest =>
      if ch = (if double then '"' else '\x27') then
        if !double && rest.head? = some '\x27' then more ['\x27'] (Cursor.skip 2 c)
        else .ok ([], c.next)
      else if double && ch = '\\' then
        match escape c.next with
        | .error e => .error e
        | .ok (part, c) => more part c
      else if isGap ch then
        match quotedGap c with
        | .error e => .error e
        | .ok (part, c) => more part c
      else more [ch] c.next

/-- A quoted scalar. -/
def quoted (double : Bool) (c : Cursor) : Reading :=
  quotedRest double (c.rest.length + 1) c.next

/-! ## Plain scalars -/

/-- Brackets and marks that end a plain scalar inside of brackets. -/
def isFlowMark (c : Char) : Bool :=
  c = ',' || c = '?' || c = '[' || c = ']' || c = '{' || c = '}'

/-- Whether a colon before this character ends a plain scalar. -/
def endsKey (inFlow : Bool) (c : Option Char) : Bool :=
  atEndOr (fun c => isGap c || (inFlow && isFlowMark c && c ≠ '?')) c

/-- The next word of a plain scalar. -/
def plainRun (inFlow : Bool) : List Char → List Char
  | [] => []
  | c :: rest =>
    if isGap c || (c = ':' && endsKey inFlow rest.head?) || (inFlow && isFlowMark c) then []
    else c :: plainRun inFlow rest

/-- What stands between two words of a plain scalar. -/
structure PlainGap where
  /-- What the scalar holds for it; none if the scalar ends. -/
  text : List Char
  cursor : Cursor
  newLine : Bool

/-- The breaks after the first one; none if the document ends. -/
def plainBreaks : (fuel : Nat) → Cursor → Option (List Char) × Cursor
  | 0, c => (some [], c)
  | fuel + 1, c =>
    if c.isSeparator then (none, c)
    else
      let c := c.past (· = ' ')
      match c.lineBreak? with
      | none => (some [], c)
      | some (b, c) =>
        let (bs, c) := plainBreaks fuel c
        (bs.map (b :: ·), c)

/-- Blanks and breaks after a word of a plain scalar. -/
def plainGap (c : Cursor) : PlainGap :=
  let (blanks, c) := c.span (· = ' ')
  match c.lineBreak? with
  | none => ⟨blanks, c, false⟩
  | some (first, c) =>
    match plainBreaks c.rest.length c with
    | (some more, c) => ⟨folded first more, c, true⟩
    | (none, c) => ⟨[], c, true⟩

/-- A plain scalar, and whether a new line starts after it. -/
structure Plain where
  text : List Char
  cursor : Cursor
  newLine : Bool

/-- The rest of a plain scalar after a gap. -/
def plainRest (inFlow : Bool) (indent : Int) : (fuel : Nat) → PlainGap → Plain
  | 0, gap => ⟨[], gap.cursor, gap.newLine⟩
  | fuel + 1, gap =>
    let c := gap.cursor
    let run := if c.head? = some '#' then [] else plainRun inFlow c.rest
    if run.isEmpty then ⟨[], c, gap.newLine⟩
    else
      let next := plainGap (Cursor.skip run.length c)
      let ends := next.text.isEmpty || next.cursor.head? = some '#' ||
        (!inFlow && (next.cursor.column : Int) < indent)
      let more : Plain :=
        if ends then ⟨[], next.cursor, next.newLine⟩ else plainRest inFlow indent fuel next
      { more with text := gap.text ++ run ++ more.text }

/-- A plain scalar. Outside of brackets its lines are indented at least to `indent`. -/
def plain (inFlow : Bool) (indent : Int) (c : Cursor) : Plain :=
  plainRest inFlow indent (c.rest.length + 1) ⟨[], c, false⟩

/-! ## Block scalars -/

/-- How a block scalar is to be read. -/
structure BlockHeader where
  /-- Whether all breaks at the end are kept, or none; otherwise it is the first one. -/
  keep : Option Bool
  /-- By how much the block is indented, if that is said. -/
  increment : Option Nat

/-- A mark that says what becomes of breaks at the end. -/
def keepMark? (c : Option Char) : Option Bool :=
  if c = some '+' then some true else if c = some '-' then some false else none

/-- A digit that says how far a block is indented. -/
def incrementMark? (c : Option Char) : Option Nat :=
  c.bind fun c => if c.isDigit then some (c.toNat - '0'.toNat) else none

/-- The header of a block scalar, in either order of its marks. -/
def blockHeader (c : Cursor) : Except Fault (BlockHeader × Cursor) :=
  let (header, c) : BlockHeader × Cursor :=
    match keepMark? c.head?, incrementMark? c.head? with
    | some keep, _ =>
      match incrementMark? c.next.head? with
      | some n => (⟨some keep, some n⟩, Cursor.skip 2 c)
      | none => (⟨some keep, none⟩, c.next)
    | none, some n =>
      match keepMark? c.next.head? with
      | some keep => (⟨some keep, some n⟩, Cursor.skip 2 c)
      | none => (⟨none, some n⟩, c.next)
    | none, none => (⟨none, none⟩, c)
  if header.increment = some 0 then .error .token
  else if atEndOr (fun ch => ch = ' ' || isBreak ch) c.head? then
    match c.restOfLine? with
    | some c => .ok (header, c)
    | none => .error .token
  else .error .token

/-- The empty lines at the beginning of a block, and how far its first lines are indented. -/
def blockIndentation : (fuel : Nat) → Cursor → (deepest : Nat) → List Char × Nat × Cursor
  | 0, c, deepest => ([], deepest, c)
  | fuel + 1, c, deepest =>
    let c := c.past (· = ' ')
    let deepest := max deepest c.column
    match c.lineBreak? with
    | none => ([], deepest, c)
    | some (b, c) =>
      let (bs, deepest, c) := blockIndentation fuel c deepest
      (b :: bs, deepest, c)

/-- The empty lines before the next line of a block. -/
def blockBreaks (indent : Nat) : (fuel : Nat) → Cursor → List Char × Cursor
  | 0, c => ([], c)
  | fuel + 1, c =>
    let c := c.indentTo indent
    match c.lineBreak? with
    | none => ([], c)
    | some (b, c) =>
      let (bs, c) := blockBreaks indent fuel c
      (b :: bs, c)

/-- A block: its text without the breaks at the end, the first of those, the others, and the
place after it. -/
structure Block where
  text : List Char
  lastBreak : List Char
  breaks : List Char
  cursor : Cursor

/-- The lines of a block, from the empty lines before the first one on. -/
def blockLines (folds : Bool) (indent : Nat) : (fuel : Nat) → List Char → Cursor → Block
  | 0, breaks, c => ⟨[], [], breaks, c⟩
  | fuel + 1, breaks, c =>
    if c.column ≠ indent ∨ c.rest.isEmpty then ⟨[], [], breaks, c⟩
    else
      let flush := !holds isBlank c.head?
      let (line, c) := c.span fun ch => !isBreak ch
      let (lastBreak, c) : List Char × Cursor := match c.lineBreak? with
        | some (b, c) => ([b], c)
        | none => ([], c)
      let (next, c) := blockBreaks indent c.rest.length c
      if c.column ≠ indent ∨ c.rest.isEmpty then ⟨breaks ++ line, lastBreak, next, c⟩
      else
        let joint :=
          if folds && lastBreak = ['\n'] && flush && !holds isBlank c.head? then
            if next.isEmpty then [' '] else []
          else lastBreak
        let more := blockLines folds indent fuel next c
        { more with text := breaks ++ line ++ joint ++ more.text }

/-- A block scalar. A block inside of a block that is indented to `indent` is indented further. -/
def block (folds : Bool) (indent : Int) (c : Cursor) : Reading :=
  match blockHeader c.next with
  | .error e => .error e
  | .ok (header, c) =>
    let least := (max (indent + 1) 1).toNat
    let fuel := c.rest.length + 1
    let (breaks, column, c) : List Char × Nat × Cursor := match header.increment with
      | none =>
        let (breaks, deepest, c) := blockIndentation fuel c 0
        (breaks, max least deepest, c)
      | some n =>
        let column := least + n - 1
        let (breaks, c) := blockBreaks column fuel c
        (breaks, column, c)
    let b := blockLines folds column fuel breaks c
    let tail := match header.keep with
      | some false => []
      | none => b.lastBreak
      | some true => b.lastBreak ++ b.breaks
    .ok (b.text ++ tail, b.cursor)

end SymSolve.Yaml
