/-!
# Files as they are found

What a path leads to, and its content as text: lines may end in a carriage return, a line feed
or both, and all of them read as a line feed.
-/

namespace SymSolve

/-- What a path leads to. -/
inductive File where
  | missing
  | directory
  | content (bytes : ByteArray)

/-- Why a file has no text. -/
inductive FileFault where
  | missing
  | directory
  /-- Its bytes are not UTF-8. -/
  | encoding
  deriving DecidableEq, Repr

/-- The text of a fault. -/
def FileFault.text : FileFault → String
  | missing => "there is no such file"
  | directory => "it is a directory"
  | encoding => "it is not UTF-8"

namespace File

/-- A text whose lines all end in a line feed. -/
def unifyBreaks : List Char → List Char
  | '\r' :: '\n' :: cs => '\n' :: unifyBreaks cs
  | '\r' :: cs => '\n' :: unifyBreaks cs
  | c :: cs => c :: unifyBreaks cs
  | [] => []

/-- The bytes of a file. -/
def bytes? : File → Except FileFault ByteArray
  | missing => .error .missing
  | directory => .error .directory
  | content bytes => .ok bytes

/-- The text of a file. -/
def text? (file : File) : Except FileFault (List Char) :=
  match file.bytes? with
  | .error fault => .error fault
  | .ok bytes => match String.fromUTF8? bytes with
    | some s => .ok (unifyBreaks s.toList)
    | none => .error .encoding

/-- Bytes as characters, each byte for itself. -/
def byteChars (bytes : ByteArray) : List Char :=
  bytes.toList.map fun b => Char.ofNat b.toNat

end File

end SymSolve
