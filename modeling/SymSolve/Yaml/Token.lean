import SymSolve.Yaml.Scalar

/-!
# Tokens

The scanner cuts a text into tokens and, where there are no brackets, tells the nesting by
indentation. That a scalar is the key of a mapping shows only at the colon after it; the place
where a key may start is kept until then, and its token goes in there.
-/

namespace SymSolve.Yaml

/-- A tag as it is written: with a handle, or in full. -/
structure TagName where
  handle : Option String
  suffix : String
  deriving DecidableEq, Repr

/-- A directive: the major version of the language, a handle for tags, or one without meaning. -/
inductive Directive where
  | version (major : Nat)
  | handle (name replacement : String)
  | unknown
  deriving DecidableEq, Repr

/-- A token. -/
inductive Token where
  | directive (d : Directive)
  | documentStart
  | documentEnd
  | blockSequence
  | blockMapping
  | blockEnd
  | openList
  | closeList
  | openMap
  | closeMap
  | entry
  | comma
  | key
  | value
  | alias (name : String)
  | anchor (name : String)
  | tag (name : TagName)
  | scalar (text : String) (plain : Bool)
  deriving DecidableEq, Repr

/-! ## Names and tags -/

/-- The name of an anchor or an alias. -/
def anchorName (c : Cursor) : Except Fault (String × Cursor) :=
  let (name, c) := c.span isNameChar
  let ends (ch : Char) : Bool := isGap ch || "?:,]\x7d%@\x60".toList.contains ch
  if name.isEmpty || !atEndOr ends c.head? then .error .token else .ok (.ofList name, c)

/-- The handle of a tag: one mark, or a name between two. -/
def tagHandle (c : Cursor) : Except Fault (String × Cursor) :=
  if c.head? ≠ some '!' then .error .token
  else
    let (name, after) := c.next.span isNameChar
    if after.head? = some '!' then .ok (.ofList ('!' :: (name ++ ['!'])), after.next)
    else if name.isEmpty && after.head? = some ' ' then .ok ("!", after)
    else .error .token

/-- Characters of a tag that stand for themselves. -/
def isTagChar (c : Char) : Bool :=
  c.isAlphanum || "-;/?:@&=+$,_.!~*'()[]".toList.contains c

/-- The bytes that are written with a mark and two hexadecimal digits each. -/
def tagBytes : (fuel : Nat) → Cursor → Except Fault (List UInt8 × Cursor)
  | 0, c => .ok ([], c)
  | fuel + 1, c =>
    match c.rest with
    | '%' :: high :: low :: _ =>
      match Numeral.digits? 16 [high, low] with
      | some n => (tagBytes fuel (Cursor.skip 3 c)).map fun (bs, c) => (n.toUInt8 :: bs, c)
      | none => .error .token
    | '%' :: _ => .error .token
    | _ => .ok ([], c)

/-- The characters of a tag. -/
def tagChars : (fuel : Nat) → Cursor → Reading
  | 0, c => .ok ([], c)
  | fuel + 1, c =>
    let (run, c) := c.span isTagChar
    if c.head? = some '%' then
      match tagBytes c.rest.length c with
      | .error e => .error e
      | .ok (bytes, c) =>
        match String.fromUTF8? ⟨bytes.toArray⟩ with
        | none => .error .token
        | some part =>
          (tagChars fuel c).map fun (more, c) => (run ++ part.toList ++ more, c)
    else .ok (run, c)

/-- The text of a tag, which has to be there. -/
def tagText (c : Cursor) : Except Fault (String × Cursor) :=
  if holds (fun ch => isTagChar ch || ch = '%') c.head? then
    (tagChars c.rest.length c).map fun (text, c) => (.ofList text, c)
  else .error .token

/-- Whether a word ends here. -/
def wordEnds (c : Cursor) : Bool := atEndOr (fun ch => ch = ' ' || isBreak ch) c.head?

/-- A tag from its first mark on. -/
def tagName (c : Cursor) : Except Fault (TagName × Cursor) := do
  let (name, c) ←
    if c.next.head? = some '<' then do
      let (suffix, c) ← tagText (Cursor.skip 2 c)
      if c.head? ≠ some '>' then throw .token
      pure ((⟨none, suffix⟩ : TagName), c.next)
    else if atEndOr isGap c.next.head? then pure (⟨none, "!"⟩, c.next)
    else do
      let word := c.next.rest.takeWhile fun ch => !(ch = ' ' || isBreak ch)
      let (handle, c) ← if word.contains '!' then tagHandle c else pure ("!", c.next)
      let (suffix, c) ← tagText c
      pure (⟨some handle, suffix⟩, c)
  if wordEnds c then return (name, c) else throw .token

/-! ## Directives -/

/-- A number of a version. -/
def versionNumber (c : Cursor) : Except Fault (Nat × Cursor) :=
  let (digits, c) := c.span Char.isDigit
  if digits.isEmpty then .error .token
  else .ok (digits.foldl (fun n d => 10 * n + (d.toNat - '0'.toNat)) 0, c)

/-- The version of the language. -/
def versionDirective (c : Cursor) : Except Fault (Directive × Cursor) := do
  let (major, c) ← versionNumber (c.past (· = ' '))
  if c.head? ≠ some '.' then throw .token
  let (_, c) ← versionNumber c.next
  if wordEnds c then return (.version major, c) else throw .token

/-- A handle and what it stands for. -/
def handleDirective (c : Cursor) : Except Fault (Directive × Cursor) := do
  let (name, c) ← tagHandle (c.past (· = ' '))
  if c.head? ≠ some ' ' then throw .token
  let (replacement, c) ← tagText (c.past (· = ' '))
  if wordEnds c then return (.handle name replacement, c) else throw .token

/-- A directive from its first mark on. -/
def directive (c : Cursor) : Except Fault (Directive × Cursor) := do
  let (name, c) := c.next.span isNameChar
  if name.isEmpty || !wordEnds c then throw .token
  let (d, c) ←
    if name = "YAML".toList then versionDirective c
    else if name = "TAG".toList then handleDirective c
    else pure (.unknown, c.past fun ch => !isBreak ch)
  match c.restOfLine? with
  | some c => return (d, c)
  | none => throw .token

/-! ## The scanner -/

/-- A place where the key of a mapping may have started. -/
structure KeyPlace where
  /-- Where its token would go in. -/
  position : Nat
  /-- Whether nothing else can stand there. -/
  required : Bool
  index : Nat
  line : Nat
  column : Nat

/-- A scanner on its way through a text. -/
structure Scanner where
  cursor : Cursor
  tokens : Array Token
  /-- In how many brackets. -/
  depth : Nat
  /-- How far the innermost block is indented. -/
  indent : Int
  /-- How far the blocks around it are. -/
  outer : List Int
  /-- Whether the key of a mapping may start here. -/
  keyAllowed : Bool
  /-- Places of keys, each with the number of brackets around it. -/
  places : List (Nat × KeyPlace)

namespace Scanner

/-- A scanner before the first token. -/
def start (text : List Char) : Scanner := ⟨.start text, #[], 0, -1, [], true, []⟩

/-- Whether there are brackets around. -/
def inFlow (s : Scanner) : Bool := 0 < s.depth

/-- The column of the next token. -/
def column (s : Scanner) : Int := s.cursor.column

/-- Adds a token and goes on at a place. -/
def push (t : Token) (c : Cursor) (s : Scanner) : Scanner :=
  { s with tokens := s.tokens.push t, cursor := c }

/-- The place of a key in the current brackets. -/
def place? (s : Scanner) : Option KeyPlace := (s.places.find? fun p => p.1 = s.depth).map Prod.snd

/-- Gives up the place of a key in the current brackets. -/
def dropPlace (s : Scanner) : Except Fault Scanner :=
  if s.place?.any KeyPlace.required then .error .layout
  else .ok { s with places := s.places.filter fun p => p.1 ≠ s.depth }

/-- Keeps the present place, if a key may start here. -/
def savePlace (s : Scanner) : Except Fault Scanner :=
  if s.keyAllowed then
    s.dropPlace.map fun s =>
      let place : KeyPlace := {
        position := s.tokens.size
        required := !s.inFlow && s.indent = s.column
        index := s.cursor.index
        line := s.cursor.line
        column := s.cursor.column }
      { s with places := (s.depth, place) :: s.places }
  else .ok s

/-- The longest key in one line. -/
def longestKey : Nat := 1024

/-- Gives up the places of keys that would end on another line or be too long. -/
def dropStale (s : Scanner) : Except Fault Scanner :=
  let stale (p : KeyPlace) : Bool :=
    p.line ≠ s.cursor.line || s.cursor.index - p.index > longestKey
  if s.places.any fun p => stale p.2 && p.2.required then .error .layout
  else .ok { s with places := s.places.filter fun p => !stale p.2 }

/-- Ends the blocks that are indented further than a column. The number of blocks bounds the
recursion. -/
def closeBlocks (column : Int) : List Int → Scanner → Scanner
  | outer :: rest, s =>
    if column < s.indent then
      closeBlocks column rest
        { s with tokens := s.tokens.push .blockEnd, indent := outer, outer := rest }
    else s
  | [], s => s

/-- Ends the blocks that the indentation of the next token ends. -/
def unindent (column : Int) (s : Scanner) : Scanner :=
  if s.inFlow then s else closeBlocks column s.outer s

/-- Starts a block at a column, if it is indented further than the block around it; its token
goes in at a position. -/
def openBlock (column : Int) (t : Token) (position : Nat) (s : Scanner) : Scanner :=
  if s.indent < column then
    { s with
      outer := s.indent :: s.outer
      indent := column
      tokens := s.tokens.insertIdxIfInBounds position t }
  else s

/-- The place of the next token, and whether a new line starts before it. -/
def toToken : (fuel : Nat) → Cursor → Cursor × Bool
  | 0, c => (c, false)
  | fuel + 1, c =>
    let c := (c.past (· = ' ')).pastComment
    match c.lineBreak? with
    | none => (c, false)
    | some (_, c) => ((toToken fuel c).1, true)

/-- Goes to the next token. -/
def advance (s : Scanner) : Except Fault Scanner :=
  let c := s.cursor
  let c := if c.index = 0 ∧ c.head? = some '\ufeff' then c.next else c
  let (c, newLine) := toToken (c.rest.length + 1) c
  let s := { s with cursor := c, keyAllowed := s.keyAllowed || (newLine && !s.inFlow) }
  s.dropStale.map fun s => s.unindent s.column

/-- A token that ends all blocks. -/
def outermost (s : Scanner) : Except Fault Scanner :=
  (s.unindent (-1)).dropPlace.map fun s => { s with keyAllowed := false }

/-- An opening bracket. -/
def openBracket (t : Token) (s : Scanner) : Except Fault Scanner :=
  s.savePlace.map fun s =>
    { s.push t s.cursor.next with depth := s.depth + 1, keyAllowed := true }

/-- A closing bracket. -/
def closeBracket (t : Token) (s : Scanner) : Except Fault Scanner :=
  if s.depth = 0 then .error .arrangement
  else s.dropPlace.map fun s =>
    { s.push t s.cursor.next with depth := s.depth - 1, keyAllowed := false }

/-- A mark that starts an entry or a key in a block, and starts the block with its first one. -/
def blockMark (t start : Token) (s : Scanner) : Except Fault Scanner :=
  if !s.inFlow && !s.keyAllowed then .error .layout
  else
    let s := if s.inFlow then s else s.openBlock s.column start s.tokens.size
    let allowed := t = .entry || !s.inFlow
    dropPlace { s with keyAllowed := allowed } |>.map fun s => s.push t s.cursor.next

/-- The colon after a key. -/
def valueMark (s : Scanner) : Except Fault Scanner :=
  match s.place? with
  | some place =>
    let s := { s with
      places := s.places.filter fun p => p.1 ≠ s.depth
      tokens := s.tokens.insertIdxIfInBounds place.position .key
      keyAllowed := false }
    let s := if s.inFlow then s else s.openBlock place.column .blockMapping place.position
    .ok (s.push .value s.cursor.next)
  | none => s.blockMark .value .blockMapping

/-- A token that may start a key, but after which none can start. -/
def keyPart (token : Scanner → Except Fault (Token × Cursor)) (s : Scanner) :
    Except Fault Scanner := do
  let s ← s.savePlace
  let (t, c) ← token s
  return { s.push t c with keyAllowed := false }

/-- A plain scalar. A key may start after it if it ends its line. -/
def plainScalar (s : Scanner) : Except Fault Scanner :=
  s.savePlace.map fun s =>
    let p := plain s.inFlow (s.indent + 1) s.cursor
    { s.push (.scalar (.ofList p.text) true) p.cursor with keyAllowed := p.newLine }

/-- A block scalar. -/
def blockScalar (folds : Bool) (s : Scanner) : Except Fault Scanner := do
  let s ← dropPlace { s with keyAllowed := true }
  let (text, c) ← block folds s.indent s.cursor
  return s.push (.scalar (.ofList text) false) c

/-- Whether a plain scalar starts with a character, given the one after it. -/
def startsPlain (inFlow : Bool) (c : Char) (next : Option Char) : Bool :=
  !(isGap c || "-?:,[]\x7b\x7d#&*!|>'\"%@\x60".toList.contains c) ||
    (!atEndOr isGap next && (c = '-' || (!inFlow && (c = '?' || c = ':'))))

/-- Reads the token that starts with a character. -/
def token (ch : Char) (s : Scanner) : Except Fault Scanner :=
  let c := s.cursor
  let next := c.ahead? 1
  let wordMark := s.inFlow || atEndOr isGap next
  if ch = '%' ∧ c.column = 0 then do
    let s ← s.outermost
    let (d, c) ← directive c
    return s.push (.directive d) c
  else if c.column = 0 ∧ c.isMarker '-' then
    s.outermost.map fun s => s.push .documentStart (Cursor.skip 3 c)
  else if c.column = 0 ∧ c.isMarker '.' then
    s.outermost.map fun s => s.push .documentEnd (Cursor.skip 3 c)
  else if ch = '[' then s.openBracket .openList
  else if ch = '{' then s.openBracket .openMap
  else if ch = ']' then s.closeBracket .closeList
  else if ch = '}' then s.closeBracket .closeMap
  else if ch = ',' then
    dropPlace { s with keyAllowed := true } |>.map fun s => s.push .comma c.next
  else if ch = '-' ∧ atEndOr isGap next then s.blockMark .entry .blockSequence
  else if ch = '?' ∧ wordMark then s.blockMark .key .blockMapping
  else if ch = ':' ∧ wordMark then s.valueMark
  else if ch = '*' then
    s.keyPart fun s => (anchorName s.cursor.next).map fun (n, c) => (.alias n, c)
  else if ch = '&' then
    s.keyPart fun s => (anchorName s.cursor.next).map fun (n, c) => (.anchor n, c)
  else if ch = '!' then
    s.keyPart fun s => (tagName s.cursor).map fun (n, c) => (.tag n, c)
  else if ch = '|' ∧ !s.inFlow then s.blockScalar false
  else if ch = '>' ∧ !s.inFlow then s.blockScalar true
  else if ch = '\x27' ∨ ch = '"' then
    s.keyPart fun s =>
      (quoted (ch = '"') s.cursor).map fun (text, c) => (.scalar (.ofList text) false, c)
  else if startsPlain s.inFlow ch next then s.plainScalar
  else .error .token

/-- Reads the tokens up to the end of the text, or up to the first fault. -/
def run : (fuel : Nat) → Scanner → Array Token × Option Fault
  | 0, s => (s.tokens, none)
  | fuel + 1, s =>
    match s.advance with
    | .error e => (s.tokens, some e)
    | .ok s =>
      match s.cursor.head? with
      | none =>
        match s.outermost with
        | .error e => (s.tokens, some e)
        | .ok s => (s.tokens, none)
      | some ch =>
        match s.token ch with
        | .error e => (s.tokens, some e)
        | .ok s => run fuel s

end Scanner

/-- The tokens of a text, and the fault that ends them, if there is one. -/
def Token.scan (text : List Char) : List Token × Option Fault :=
  let (tokens, fault) := Scanner.run (text.length + 1) (.start text)
  (tokens.toList, fault)

end SymSolve.Yaml
