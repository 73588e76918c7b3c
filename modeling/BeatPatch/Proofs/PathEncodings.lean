import BeatPatch.Proofs.OutputNames

/-!
# Paths in bytes

A system keeps paths as bytes. Whether the name of an output is made from these or from the
characters that they encode makes no difference (`CommandLine.defaultOutput_encode`), although an
old extension is cut off by its length, which counts more bytes than characters. All that counts is
that slash and dot occur as themselves only, as they do in UTF-8 (`Encoding.utf8`).
-/

namespace BeatPatch

/-- An encoding of characters, in which slash and dot occur as themselves only. -/
structure Encoding where
  code : Char → List Char
  slash : code '/' = ['/']
  dot : code '.' = ['.']
  nonempty : ∀ c, code c ≠ []
  slashless : ∀ {c}, '/' ∈ code c → c = '/'
  dotless : ∀ {c}, '.' ∈ code c → c = '.'

namespace Encoding

theorem toNat_eq_of_mem_utf8EncodeChar {c : Char} {b : UInt8} (ascii : b.toNat < 128)
    (mem : b ∈ String.utf8EncodeChar c) : c.toNat = b.toNat := by
  have code : c.toNat = c.val.toNat := rfl
  rw [String.utf8EncodeChar] at mem
  split_ifs at mem with one two three
  · rw [List.mem_singleton] at mem
    rw [mem, UInt8.toNat_ofNat']
    omega
  -- All bytes of a longer code are above 127.
  all_goals exfalso; simp only [List.mem_cons, List.not_mem_nil, or_false] at mem
  · rcases mem with rfl | rfl <;> rw [UInt8.toNat_ofNat'] at ascii <;> omega
  · rcases mem with rfl | rfl | rfl <;> rw [UInt8.toNat_ofNat'] at ascii <;> omega
  · rcases mem with rfl | rfl | rfl | rfl <;> rw [UInt8.toNat_ofNat'] at ascii <;> omega

/-- The bytes of a character, each as the character of that code. -/
def utf8Code (c : Char) : List Char := (String.utf8EncodeChar c).map fun b => Char.ofNat b.toNat

/-- Up to 127 a byte encodes the character of that code. -/
theorem eq_of_mem_utf8Code {c d : Char} (ascii : d.toNat < 128) (mem : d ∈ utf8Code c) : c = d := by
  obtain ⟨b, inside, rfl⟩ := List.mem_map.mp mem
  have valid : b.toNat.isValidChar := .inl (by have := b.toNat_lt; omega)
  have code : (Char.ofNat b.toNat).toNat = b.toNat := by
    rw [Char.ofNat, dif_pos valid]
    rfl
  rw [code] at ascii
  exact Char.toNat_inj.mp ((toNat_eq_of_mem_utf8EncodeChar ascii inside).trans code.symm)

/-- The bytes of UTF-8. -/
def utf8 : Encoding where
  code := utf8Code
  slash := by decide
  dot := by decide
  nonempty c := by simp [utf8Code, String.utf8EncodeChar_ne_nil]
  slashless := eq_of_mem_utf8Code (by decide)
  dotless := eq_of_mem_utf8Code (by decide)

variable {E : Encoding} {part : PathPart}

/-- The encoding of a text. -/
def encode (E : Encoding) (text : List Char) : List Char := text.flatMap E.code

example : utf8.encode ['é', '/'] = ['Ã', '©', '/'] := by decide

theorem encode_cons (c : Char) (text : List Char) :
    E.encode (c :: text) = E.code c ++ E.encode text :=
  List.flatMap_cons

theorem encode_append (first second : List Char) :
    E.encode (first ++ second) = E.encode first ++ E.encode second :=
  List.flatMap_append

/-- A character that stands for itself only occurs in an encoding where it occurs in the text. -/
theorem mem_encode_iff {mark : Char} (itself : E.code mark = [mark])
    (only : ∀ {c}, mark ∈ E.code c → c = mark) : mark ∈ E.encode part ↔ mark ∈ part := by
  rw [encode, List.mem_flatMap]
  refine ⟨fun ⟨c, mem, inside⟩ => only inside ▸ mem, fun mem => ⟨mark, mem, ?_⟩⟩
  rw [itself]
  exact List.mem_singleton_self mark

theorem slash_mem_encode : '/' ∈ E.encode part ↔ '/' ∈ part :=
  mem_encode_iff E.slash E.slashless

theorem dot_mem_encode : '.' ∈ E.encode part ↔ '.' ∈ part :=
  mem_encode_iff E.dot E.dotless

theorem encode_slash (text : List Char) : E.encode ('/' :: text) = '/' :: E.encode text := by
  rw [encode_cons, E.slash, List.singleton_append]

theorem encode_dot (text : List Char) : E.encode ('.' :: text) = '.' :: E.encode text := by
  rw [encode_cons, E.dot, List.singleton_append]

/-- Only dots are encoded as dots, and as many. -/
theorem encode_eq_replicate_iff {n : Nat} :
    E.encode part = List.replicate n '.' ↔ part = List.replicate n '.' := by
  induction part generalizing n with
  | nil => rfl
  | cons c part ih =>
    cases n with
    | zero => simp [encode_cons, E.nonempty]
    | succ n =>
      rw [List.replicate_succ, List.cons_eq_cons, ← ih]
      constructor
      · intro same
        obtain ⟨d, rest, code⟩ := List.exists_cons_of_ne_nil (E.nonempty c)
        have first : d = '.' := by
          rw [encode_cons, code] at same
          exact (List.cons_eq_cons.mp same).1
        have dot : c = '.' := E.dotless (by rw [code, first]; exact List.mem_cons_self)
        rw [dot, encode_dot] at same
        exact ⟨dot, (List.cons_eq_cons.mp same).2⟩
      · rintro ⟨rfl, same⟩
        rw [encode_dot, same]

theorem encode_eq_nil_iff : E.encode part = [] ↔ part = [] :=
  encode_eq_replicate_iff (n := 0)

theorem encode_eq_here_iff : E.encode part = PathPart.here ↔ part = PathPart.here :=
  encode_eq_replicate_iff (n := 1)

theorem encode_eq_parent_iff : E.encode part = PathPart.parent ↔ part = PathPart.parent :=
  encode_eq_replicate_iff (n := 2)

theorem isIdle_encode (part : PathPart) : PathPart.isIdle (E.encode part) = part.isIdle := by
  simp only [PathPart.isIdle, encode_eq_nil_iff, encode_eq_here_iff]

theorem isIdle_of_mem_map {parts : List PathPart} (idle : ∀ part ∈ parts, part.isIdle = true) :
    ∀ part ∈ parts.map E.encode, PathPart.isIdle part = true := by
  intro part mem
  obtain ⟨part, inside, rfl⟩ := List.mem_map.mp mem
  exact (isIdle_encode part).trans (idle part inside)

theorem splitLastDot_encode (name : PathPart) :
    PathPart.splitLastDot (E.encode name) =
      (PathPart.splitLastDot name).map (Prod.map E.encode E.encode) := by
  cases found : PathPart.splitLastDot name with
  | none =>
    rw [PathPart.splitLastDot_eq_none_iff] at found
    exact PathPart.splitLastDot_eq_none_iff.mpr (mt dot_mem_encode.mp found)
  | some parts =>
    obtain ⟨before, after⟩ := parts
    obtain ⟨rfl, dotless⟩ := PathPart.splitLastDot_eq_some_iff.mp found
    rw [encode_append, encode_dot]
    exact PathPart.splitLastDot_append (mt dot_mem_encode.mp dotless)

theorem splitExtension_encode (name : PathPart) :
    PathPart.splitExtension (E.encode name) =
      Prod.map E.encode (Option.map E.encode) name.splitExtension := by
  rw [PathPart.splitExtension, PathPart.splitExtension, splitLastDot_encode]
  cases PathPart.splitLastDot name with
  | none => rfl
  | some parts =>
    obtain ⟨before, after⟩ := parts
    simp only [Option.map_some, Prod.map_apply, encode_eq_nil_iff]
    split <;> rfl

theorem encode_underExtension (stem extension : PathPart) :
    E.encode (stem.underExtension extension) =
      PathPart.underExtension (E.encode stem) (E.encode extension) := by
  simp only [PathPart.underExtension, encode_eq_nil_iff]
  split
  · rfl
  · rw [encode_append, encode_dot]

end Encoding

namespace Path

variable {E : Encoding} {p : Path} {front : List PathPart} {last : PathPart}

/-- The path of the encoded text. -/
def encode (E : Encoding) (p : Path) : Path := ⟨p.parts.map E.encode⟩

theorem chars_encode (p : Path) : (p.encode E).chars = E.encode p.chars := by
  change joinSlashes (p.parts.map E.encode) = E.encode (joinSlashes p.parts)
  cases p.parts with
  | nil => rfl
  | cons part rest =>
    have joined (part : PathPart) (rest : List PathPart) :
        joinSlashes (part :: rest) = part ++ rest.flatMap ('/' :: ·) :=
      joinSlashes_append_cons [] part rest
    rw [List.map_cons, joined, joined, Encoding.encode_append, List.flatMap_map, Encoding.encode,
      Encoding.encode, List.flatMap_assoc]
    congr 2
    funext part
    exact (Encoding.encode_slash part).symm

theorem IsSpelt.encode (spelt : p.IsSpelt) : (p.encode E).IsSpelt where
  nonempty := by simpa [Path.encode] using spelt.nonempty
  slashless := by
    intro part mem
    obtain ⟨part, inside, rfl⟩ := List.mem_map.mp mem
    exact mt Encoding.slash_mem_encode.mp (spelt.slashless part inside)

theorem ofChars_encode (text : List Char) : ofChars (E.encode text) = (ofChars text).encode E := by
  have spelt := isSpelt_ofChars text
  have chars : (ofChars text).chars = text := by
    rw [Path.chars, ofChars, joinSlashes_eq, splitSlashes_eq, List.intercalate_splitOn]
  calc ofChars (E.encode text)
      = ofChars ((ofChars text).encode E).chars := by rw [chars_encode, chars]
    _ = (ofChars text).encode E := spelt.encode.ofChars_joinSlashes

theorem EndsIn.encode (ends : p.EndsIn front last) :
    (p.encode E).EndsIn (front.map E.encode) (E.encode last) := by
  obtain ⟨behind, idle, parts⟩ := ends.parts
  refine ⟨(Encoding.isIdle_encode last).trans ends.leads, behind.map E.encode,
    Encoding.isIdle_of_mem_map idle, ?_⟩
  rw [Path.encode, parts, List.map_append, List.map_cons]

theorem fileName?_encode (p : Path) : (p.encode E).fileName? = p.fileName?.map E.encode := by
  rcases p.leading_eq_nil_or_endsIn with idle | ⟨front, last, ends⟩
  · have unmoving : (p.encode E).leading = [] :=
      leading_eq_nil_iff.mpr (Encoding.isIdle_of_mem_map (leading_eq_nil_iff.mp idle))
    rw [fileName?, fileName?, idle, unmoving]
    rfl
  · rw [ends.fileName?_eq, ends.encode.fileName?_eq]
    simp only [Encoding.encode_eq_parent_iff]
    split <;> rfl

theorem extension?_encode (p : Path) : (p.encode E).extension? = p.extension?.map E.encode := by
  rw [extension?, extension?, fileName?_encode, Option.bind_map, Option.map_bind]
  congr 1
  funext name
  exact congrArg Prod.snd (Encoding.splitExtension_encode name)

theorem withExtension_encode (spelt : p.IsSpelt) (extension : PathPart) :
    (p.encode E).withExtension (E.encode extension) = (p.withExtension extension).encode E := by
  cases named : p.fileName? with
  | none =>
    rw [withExtension_of_fileName?_eq_none named, withExtension_of_fileName?_eq_none]
    rw [fileName?_encode, named]
    rfl
  | some name =>
    obtain ⟨forward, front, ends⟩ := exists_endsIn_of_fileName? named
    have stemmed : PathPart.stem (E.encode name) = E.encode name.stem :=
      congrArg Prod.fst (Encoding.splitExtension_encode name)
    have bare : (p.encode E).parts = front.map E.encode ++ [E.encode name] ↔
        p.parts = front ++ [name] := by
      obtain ⟨behind, -, parts⟩ := ends.parts
      simp [Path.encode, parts]
    rw [ends.withExtension_eq spelt forward,
      ends.encode.withExtension_eq spelt.encode (mt Encoding.encode_eq_parent_iff.mp forward)]
    simp only [stemmed, Encoding.encode_eq_here_iff, bare]
    split
    · simp only [Path.encode, List.map_append, List.map_singleton]
      rw [Encoding.encode_eq_parent_iff.mpr rfl]
    · simp only [Path.encode, List.map_append, List.map_singleton, Encoding.encode_underExtension]

end Path

namespace CommandLine

/-- The output has the same name whether the paths are read as characters or as their encodings. -/
theorem defaultOutput_encode (E : Encoding) (source patch : List Char) :
    (defaultOutput (Path.ofChars (E.encode source)) (Path.ofChars (E.encode patch))).chars =
      E.encode (defaultOutput (Path.ofChars source) (Path.ofChars patch)).chars := by
  have extension : ((Path.ofChars source).encode E).extension?.getD [] =
      E.encode ((Path.ofChars source).extension?.getD []) := by
    rw [Path.extension?_encode]
    cases (Path.ofChars source).extension? <;> rfl
  rw [Path.ofChars_encode, Path.ofChars_encode, defaultOutput, extension,
    Path.withExtension_encode (Path.isSpelt_ofChars patch), Path.chars_encode, defaultOutput]

end CommandLine

end BeatPatch
