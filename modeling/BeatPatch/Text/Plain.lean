/-!
# Plain text

Text that is not shown on a terminal is written without what only a terminal understands.
`plain` leaves out escape sequences and control characters; a sequence that does not end
takes all that follows with it. Text of visible characters alone is written as it is
(`plain_of_visible`).
-/

namespace BeatPatch.Text

/-- A tab, a line feed, a form feed or a carriage return. -/
def isBreak (c : Char) : Bool := ['\t', '\n', '\x0c', '\r'].contains c

/-- Neither a control character of ASCII, breaks excepted, nor a delete. -/
def isVisible (c : Char) : Bool := isBreak c || 0x20 ≤ c.toNat && c.toNat ≠ 0x7f

/-- Where a reader of text is: outside of all escape sequences or at a point within one. -/
inductive Place where
  | outside
  /-- Behind the escape character. -/
  | escape
  /-- Behind the escape character and the first marks of a short sequence. -/
  | marks
  /-- In a control sequence, which a letter ends. -/
  | control
  /-- At the head of a device string. -/
  | device
  /-- In the head of a device string, behind a parameter. -/
  | deviceParameters
  /-- In the head of a device string, behind a mark. -/
  | deviceMarks
  /-- In a string, which the string terminator ends. -/
  | string
  /-- In a command to the terminal, which a bell ends. -/
  | command
deriving DecidableEq, Repr

namespace Place

/-- The character is a break inside a sequence of single characters, where it is shown. -/
def isBrokenBy : Place → Char → Bool
  | .escape, c | .marks, c | .control, c => isBreak c
  | _, _ => false

/-- The encoding of the character has the byte that ends a string. -/
def endsString (c : Char) : Bool := (String.utf8EncodeChar c).contains 0x9c

/-- The place behind the first character after the escape character. -/
def opened (c : Char) : Place :=
  if c = '[' then .control
  else if c = 'P' then .device
  else if c = ']' then .command
  else if ['X', '^', '_'].contains c then .string
  else if 0x20 ≤ c.toNat && c.toNat < 0x30 then .marks
  else if 0x30 ≤ c.toNat && c.toNat < 0x7f then .outside
  else .escape

/-- The place behind a character that belongs to the sequence; characters without a meaning
there change nothing. -/
def within : Place → Char → Place
  | .outside, _ => .outside
  | .escape, c => opened c
  | .marks, c => if 0x30 ≤ c.toNat && c.toNat < 0x7f then .outside else .marks
  | .control, c => if 0x40 ≤ c.toNat && c.toNat < 0x7f then .outside else .control
  | .device, c =>
    if 0x20 ≤ c.toNat && c.toNat < 0x30 then .deviceMarks
    else if 0x30 ≤ c.toNat && c.toNat < 0x40 then .deviceParameters
    else if 0x40 ≤ c.toNat && c.toNat < 0x7f then .string
    else .device
  | .deviceParameters, c =>
    if 0x20 ≤ c.toNat && c.toNat < 0x30 then .deviceMarks
    else if 0x3c ≤ c.toNat && c.toNat < 0x7f then .string
    else .deviceParameters
  | .deviceMarks, c => if 0x30 ≤ c.toNat && c.toNat < 0x7f then .string else .deviceMarks
  | .string, c => if endsString c then .outside else .string
  | .command, c => if c.toNat = 0x07 then .outside else .command

/-- The place behind a character that is not shown. An escape character starts anew and a
cancel or a substitute ends any sequence. -/
def after (place : Place) (c : Char) : Place :=
  if c.toNat = 0x1b then .escape
  else if c.toNat = 0x18 || c.toNat = 0x1a then .outside
  else place.within c

end Place

/-- A reader of text. A break suspends the sequence around it: from there on all that is
visible is shown, and behind the next character that is not the sequence goes on. -/
structure Scan where
  place : Place
  suspended : Bool
  shown : String
deriving DecidableEq, Repr

namespace Scan

/-- The reader at the start of a text. -/
def start : Scan := { place := .outside, suspended := false, shown := "" }

/-- The next character is shown. -/
def shows (s : Scan) (c : Char) : Bool :=
  isVisible c && (s.place = .outside || s.suspended) || s.place.isBrokenBy c

/-- Reads a character. One beyond ASCII that is shown also ends a suspended sequence. -/
def step (s : Scan) (c : Char) : Scan :=
  if s.shows c then
    { place := if c.toNat < 0x80 then s.place else .outside
      suspended := true
      shown := s.shown.push c }
  else { s with place := s.place.after c, suspended := false }

end Scan

/-- A text without escape sequences and control characters. -/
def plain (text : String) : String := (text.toList.foldl Scan.step Scan.start).shown

/-- A text of which every line but the first is indented by four spaces. -/
def hanging (text : String) : String :=
  String.ofList (text.toList.flatMap fun c => c :: if c = '\n' then [' ', ' ', ' ', ' '] else [])

theorem Scan.shown_foldl_of_visible {cs : List Char} (h : ∀ c ∈ cs, isVisible c) :
    ∀ s : Scan, s.place = .outside → (cs.foldl step s).shown = s.shown ++ String.ofList cs := by
  induction cs with
  | nil => simp
  | cons c rest ih =>
    intro s outside
    have shows : s.shows c := by simp [Scan.shows, outside, h c (by simp)]
    rw [List.foldl_cons, ih (fun d hd => h d (by simp [hd])) _ (by simp [step, shows, outside])]
    simp [step, shows, ← String.toList_inj]

/-- Visible characters are all shown. -/
theorem plain_of_visible {text : String} (h : ∀ c ∈ text.toList, isVisible c) :
    plain text = text := by
  rw [plain, Scan.shown_foldl_of_visible h Scan.start rfl]
  simp [Scan.start]

end BeatPatch.Text
