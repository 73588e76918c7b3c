/-!
# Paths

A path is its parts between slashes, so that path and text determine each other. Empty
parts and the part `.` name no further directory; what they mean at either end is for the
functions below. The file name of a path is its last other part, unless that is `..`; its
extension is what follows the last dot, unless the dot opens the name.
-/

namespace BeatPatch

/-- A part of a path. -/
abbrev PathPart := List Char

namespace PathPart

/-- The part `.`, which stands for the directory before it. -/
def here : PathPart := ['.']

/-- The part `..`, which stands for the parent of the directory before it. -/
def parent : PathPart := ['.', '.']

/-- The part does not lead anywhere. -/
def isIdle (p : PathPart) : Bool := p = [] || p = here

/-- The number of bytes that a part takes. -/
def size (p : PathPart) : Nat := p.foldl (fun n c => n + c.utf8Size) 0

/-- The text before the last dot and the text after it. -/
def splitLastDot : PathPart → Option (PathPart × PathPart)
  | [] => none
  | c :: rest =>
    match splitLastDot rest with
    | some (before, after) => some (c :: before, after)
    | none => if c = '.' then some ([], rest) else none

/-- The stem of a file name and its extension, if it has one. -/
def splitExtension (name : PathPart) : PathPart × Option PathPart :=
  match splitLastDot name with
  | some (before, after) => if before = [] then (name, none) else (before, some after)
  | none => (name, none)

end PathPart

/-- A path, absolute if its first part is empty and not the only one. -/
structure Path where
  parts : List PathPart
deriving DecidableEq, Repr

namespace Path

/-- The parts of a text between slashes. -/
def splitSlashes : List Char → List PathPart
  | [] => [[]]
  | c :: rest =>
    if c = '/' then [] :: splitSlashes rest
    else
      match splitSlashes rest with
      | part :: parts => (c :: part) :: parts
      | [] => [[c]]

/-- The parts with slashes between them. -/
def joinSlashes : List PathPart → List Char
  | [] => []
  | [part] => part
  | part :: rest => part ++ '/' :: joinSlashes rest

/-- The path with this text. -/
def ofChars (text : List Char) : Path := ⟨splitSlashes text⟩

/-- The text of a path. -/
def chars (p : Path) : List Char := joinSlashes p.parts

/-- The path with this text. -/
def ofString (text : String) : Path := ofChars text.toList

/-- The text of a path. -/
def toString (p : Path) : String := String.ofList p.chars

instance : ToString Path := ⟨toString⟩

/-- The number of bytes that the text of a path takes. -/
def size (p : Path) : Nat := PathPart.size p.chars

/-- The path starts at the root of all directories. -/
def isAbsolute (p : Path) : Bool := p.parts.head? = some [] && 1 < p.parts.length

/-- The parts without the slashes at the end. -/
def trimmed (p : Path) : List PathPart := (p.parts.reverse.dropWhile (· = [])).reverse

/-- A slash stands behind the last part. -/
def endsInSlash (p : Path) : Bool := p.trimmed.length < p.parts.length

/-- The parts up to the last that leads anywhere. -/
def leading (p : Path) : List PathPart :=
  (p.parts.reverse.dropWhile PathPart.isIdle).reverse

/-- The file name of a path, unless it has none or ends in `..`. -/
def fileName? (p : Path) : Option PathPart :=
  p.leading.getLast?.filter (· ≠ PathPart.parent)

/-- The extension of the file name. -/
def extension? (p : Path) : Option PathPart :=
  p.fileName?.bind fun name => (PathPart.splitExtension name).2

/-- The path with the stem of its file name followed by a dot and `extension`, or by nothing
if `extension` is empty; what stood behind the file name is dropped. -/
def setExtension (p : Path) (extension : PathPart) : Path :=
  match p.fileName? with
  | none => p
  | some name =>
    let stem := (PathPart.splitExtension name).1
    let name := if extension = [] then stem else stem ++ '.' :: extension
    ⟨p.leading.dropLast ++ [name]⟩

/-- The path with another extension. The old one is first cut off the end of the text, and
what is left is read as a path of its own. -/
def withExtension (p : Path) (extension : PathPart) : Path :=
  match p.extension? with
  | none => p.setExtension extension
  | some old => (ofChars (p.chars.take (p.chars.length - old.length))).setExtension extension

/-- A step on the way that a path describes. -/
inductive Step where
  /-- The root of all directories, at the start of an absolute path. -/
  | root
  /-- A `.` at the start. -/
  | here
  /-- The parent of the directory reached so far. -/
  | up
  /-- The entry of this name. -/
  | name (n : PathPart)
deriving DecidableEq, Repr

/-- The steps of the parts that lead anywhere. -/
def stepsOf (parts : List PathPart) : List Step :=
  (parts.filter (!PathPart.isIdle ·)).map fun part =>
    if part = PathPart.parent then .up else .name part

/-- The steps that a path describes. -/
def steps (p : Path) : List Step :=
  match p.parts with
  | [] :: _ :: _ => .root :: stepsOf p.parts
  | ['.'] :: rest => .here :: stepsOf rest
  | parts => stepsOf parts

/-- Two paths are spelt alike if they describe the same steps. -/
def isSpeltLike (p q : Path) : Bool := p.steps = q.steps

end Path

end BeatPatch
