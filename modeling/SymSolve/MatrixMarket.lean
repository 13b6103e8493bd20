import SymSolve.Numeral
import SymSolve.Pieces
import SymSolve.Sparse

/-!
# Matrix Market files

A banner names the format, the kind of numbers and the symmetry; comments and a line with the
dimensions follow, then one entry per line. A `coordinate` file lists entries with their
positions, an `array` file lists all entries by columns. Of a file with a symmetry, only one
triangle is listed, and the other one is added: for every entry off the diagonal, its mirror
image. Of complex numbers the real part counts. What a line holds after its entry does not
matter.
-/

namespace SymSolve.MatrixMarket

/-- Why a text is no matrix. -/
inductive Fault where
  | banner
  | word (text : String)
  | noDimensions
  | negativeDimension
  /-- All entries of a table are listed, so its numbers cannot be left out. -/
  | patternTable
  | number
  | outside (row col : Int)
  | tooMany
  | tooFew (missing : Nat)
  /-- An integer that no machine word of its kind holds. -/
  | tooLarge
  deriving DecidableEq, Repr

/-- The text of a fault. -/
def Fault.text : Fault → String
  | banner => "the banner is missing"
  | word text => s!"unknown word '{text}' in the banner"
  | noDimensions => "the dimensions are missing"
  | negativeDimension => "a dimension is negative"
  | patternTable => "a table has to list its numbers"
  | number => "an entry is not a number"
  | outside row col => s!"position ({row}, {col}) is outside of the matrix"
  | tooMany => "there are too many entries"
  | tooFew missing => s!"{missing} entries are missing"
  | tooLarge => "an integer is too large"

/-- How entries are listed. -/
inductive Format where
  | coordinate
  | array
  deriving DecidableEq, Repr

/-- The kind of the numbers. -/
inductive Field where
  | real
  | complex
  | integer
  | unsigned
  | pattern
  deriving DecidableEq, Repr

/-- What the triangle that is not listed is like. -/
inductive Symmetry where
  | general
  | symmetric
  | skew
  | hermitian
  deriving DecidableEq, Repr

/-- What a file says of itself. -/
structure Header where
  /-- Whether there is one column, and positions are row numbers alone. -/
  isVector : Bool
  format : Format
  field : Field
  symmetry : Symmetry
  height : Nat
  width : Nat
  /-- How many entries are listed. -/
  count : Nat

/-- A matrix as it is stored in a file. -/
inductive Content (α : Type) where
  | sparse (A : Sparse α)
  /-- A table, row by row. -/
  | table (height width : Nat) (entries : List α)

/-! ## The header -/

/-- Blanks within a line. -/
def isBlank (c : Char) : Bool := c = ' ' || c = '\t' || c = '\r'

/-- What separates words. -/
def isSpace (c : Char) : Bool := c = ' ' || ('\t' ≤ c && c ≤ '\r')

/-- The words of a line. -/
def wordsOf (line : List Char) : List (List Char) := pieces isSpace line

/-- The value that a word names, in any case. -/
def named {β : Type} (names : List (String × β)) (word : List Char) : Except Fault β :=
  let lower := String.ofList (word.map Char.toLower)
  match names.find? fun n => n.1 = lower with
  | some (_, b) => .ok b
  | none => .error (.word (.ofList word))

/-- What a banner says. -/
structure Banner where
  isVector : Bool
  format : Format
  field : Field
  symmetry : Symmetry

/-- Reads a banner. -/
def bannerOf (line : List Char) : Except Fault Banner := do
  if !("%%MatrixMarket".toList.isPrefixOf line || "%MatrixMarket".toList.isPrefixOf line) then
    throw .banner
  let words := (wordsOf line).drop 1
  let isVector ← named [("matrix", false), ("vector", true)] (words.getD 0 [])
  let format ← named [("coordinate", Format.coordinate), ("array", .array)] (words.getD 1 [])
  let field ← named [("real", Field.real), ("double", .real), ("complex", .complex),
    ("integer", .integer), ("unsigned-integer", .unsigned), ("pattern", .pattern)]
    (words.getD 2 [])
  let symmetry ← named [("general", Symmetry.general), ("symmetric", .symmetric),
    ("skew-symmetric", .skew), ("hermitian", .hermitian)] (words.getD 3 [])
  return ⟨isVector, format, field, symmetry⟩

/-- The lines from the dimensions on: comments and empty lines come before. -/
def pastComments (lines : List (List Char)) : List (List Char) :=
  lines.dropWhile fun line => (line.dropWhile isBlank).head?.all (· = '%')

/-- The integer that a text starts with, and the rest. A plus is no sign here. -/
def takeInt? (cs : List Char) : Option (Int × List Char) :=
  let body := match cs with
    | '-' :: rest => rest
    | rest => rest
  (Numeral.digits? 10 (body.takeWhile Char.isDigit)).map fun n =>
    (Numeral.signed cs n, body.dropWhile Char.isDigit)

/-- The first `count` integers of a line, which may carry a plus. From the first one on that is
missing or not an integer, all are zero. -/
def sizes : (count : Nat) → (line : List Char) → List Int
  | 0, _ => []
  | count + 1, line =>
    let cs := match line.dropWhile isSpace with
      | '+' :: c :: rest => if c.isDigit then c :: rest else '+' :: c :: rest
      | cs => cs
    match takeInt? cs with
    | some (i, rest) => i :: sizes count rest
    | none => List.replicate (count + 1) 0

/-- The header of a file, and the lines after it. -/
def headerOf (lines : List (List Char)) : Except Fault (Header × List (List Char)) := do
  let (first, rest) ← match lines with
    | first :: rest => pure (first, rest)
    | [] => throw .banner
  let b ← bannerOf first
  match pastComments rest with
  | [] => throw .noDimensions
  | line :: rest =>
    let (height, width, count) : Int × Int × Int :=
      match b.isVector, sizes 3 line with
      | true, height :: count :: _ => (height, 1, count)
      | false, [height, width, count] => (height, width, count)
      | _, _ => (0, 0, 0)
    if height < 0 ∨ width < 0 then throw .negativeDimension
    let count := if b.format = .array then height * width else count
    if count < 0 then throw .negativeDimension
    return ({ b with height := height.toNat, width := width.toNat, count := count.toNat }, rest)

/-! ## Entries -/

section Entries

variable {α : Type} [Scalar α]

/-- The real number that a text starts with, and the rest. A plus is no sign here. -/
def takeReal? (cs : List Char) : Option (α × List Char) :=
  match cs with
  | '-' :: rest => (Numeral.takeNumber? rest).map fun (x, rest) => (-x, rest)
  | _ => Numeral.takeNumber? cs

/-- The integer that a text starts with, if it fits. -/
def takeBounded (fits : Int → Bool) (cs : List Char) : Except Fault (Int × List Char) :=
  match takeInt? cs with
  | none => .error .number
  | some (i, rest) => if fits i then .ok (i, rest) else .error .tooLarge

/-- The number that a text starts with, by its kind. -/
def numberAt (field : Field) (cs : List Char) : Except Fault α :=
  match field with
  | .pattern => .ok 1
  | .integer => (takeBounded fitsSigned cs).map fun (i, _) => Scalar.ofInt i
  | .unsigned =>
    if Numeral.isNegative cs then .error .number
    else (takeBounded fitsUnsigned cs).map fun (i, _) => Scalar.ofInt i
  | .real => match takeReal? cs with
    | some (x, _) => .ok x
    | none => .error .number
  | .complex => match takeReal? cs with
    | some (x, rest) =>
      match (takeReal? (rest.dropWhile isBlank) : Option (α × List Char)) with
      | some _ => .ok x
      | none => .error .number
    | none => .error .number

/-- The mirror image of a value. -/
def mirrored (s : Symmetry) (x : α) : α := if s = .skew then -x else x

/-- The lines that hold entries: as many as the header says, or fewer where that is allowed. -/
def entryLines (h : Header) (mayEndEarly : Bool) (listed : Nat) (lines : List (List Char)) :
    Except Fault (List (List Char)) :=
  let lines := (lines.map fun line => line.dropWhile isBlank).filter fun line => !line.isEmpty
  if listed < lines.length then .error .tooMany
  else if lines.length < h.count ∧ !mayEndEarly then .error (.tooFew (h.count - lines.length))
  else .ok lines

/-! ## Listed entries -/

/-- Whether an integer is an index: a word of 32 bits holds it. -/
def isIndex (i : Int) : Bool := -2147483648 ≤ i ∧ i ≤ 2147483647

/-- A listed entry: its position, counted from one, and its value. -/
def listedEntry (h : Header) (line : List Char) : Except Fault (Entry h.height h.width α) := do
  let (row, rest) ← takeBounded isIndex line
  let rest := rest.dropWhile isBlank
  let (col, rest) ← if h.isVector then pure (1, rest) else takeBounded isIndex rest
  let value ← numberAt h.field (rest.dropWhile isBlank)
  if inside : (1 ≤ row ∧ 1 ≤ col) ∧ (row - 1).toNat < h.height ∧ (col - 1).toNat < h.width then
    return ⟨⟨(row - 1).toNat, inside.2.1⟩, ⟨(col - 1).toNat, inside.2.2⟩, value⟩
  else throw (.outside row col)

/-- The mirror image of an entry off the diagonal; none if it is outside of the matrix. -/
def mirrorEntry (h : Header) (e : Entry h.height h.width α) :
    Except Fault (Option (Entry h.height h.width α)) :=
  if (e.row : Nat) = e.col then .ok none
  else if inside : e.col.val < h.height ∧ e.row.val < h.width then
    .ok (some ⟨⟨e.col, inside.1⟩, ⟨e.row, inside.2⟩, mirrored h.symmetry e.value⟩)
  else .error (.outside (e.col + 1) (e.row + 1))

/-- The matrix of a file that lists positions. The mirror image of an unsigned integer cannot be
its negative. -/
def sparseOf (h : Header) (lines : List (List Char)) : Except Fault (Sparse α) := do
  let entries : List (Entry h.height h.width α) ← lines.mapM (listedEntry h)
  if h.field = .unsigned ∧ h.symmetry = .skew then throw .tooLarge
  let mirror ← if h.symmetry = .general then pure []
    else entries.mapM (mirrorEntry h)
  return ⟨h.height, h.width, entries ++ mirror.filterMap id⟩

/-! ## Tables -/

/-- The positions of a table that are listed, in order: columns, without what follows from the
symmetry. -/
def tablePositions (h : Header) : List (Nat × Nat) :=
  (List.range h.width).flatMap fun j =>
    ((List.range h.height).filter fun i => match h.symmetry with
      | .general => true
      | .skew => j < i
      | _ => j ≤ i).map fun i => (i, j)

/-- A table by its rows, from values at positions; other values are zero. Of several values at a
position the last counts. -/
def tableRows (height width : Nat) (values : List ((Nat × Nat) × α)) : List α :=
  (List.range height).flatMap fun i => (List.range width).map fun j =>
    ((values.reverse.find? fun v => v.1 = (i, j)).map Prod.snd).getD 0

/-- The entries, row by row, of the matrix of a file that lists all entries. -/
def tableOf (h : Header) (lines : List (List Char)) : Except Fault (List α) := do
  if h.field = .pattern then throw .patternTable
  let values : List α ← lines.mapM (numberAt h.field)
  let listed := (tablePositions h).zip values
  let mirror := if h.symmetry = .general then []
    else listed.filterMap fun ((i, j), x) =>
      if i = j then none else some ((j, i), mirrored h.symmetry x)
  return tableRows h.height h.width (listed ++ mirror)

/-! ## Files -/

/-- The coordinate matrix that a file holds. The zeros of a table are no entries. -/
def Content.toSparse : Content α → Sparse α
  | sparse A => A
  | table height width entries => .ofRows height width entries

/-- Reads a file. -/
def parse (text : List Char) : Except Fault (Content α) := do
  let (h, rest) ← headerOf (textLines text)
  match h.format with
  | .coordinate => return .sparse (← sparseOf h (← entryLines h false h.count rest))
  | .array =>
    let mayEndEarly := h.symmetry ≠ .general
    let listed := (tablePositions h).length
    return .table h.height h.width (← tableOf h (← entryLines h mayEndEarly listed rest))

end Entries

end SymSolve.MatrixMarket
