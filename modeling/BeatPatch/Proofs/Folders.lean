import BeatPatch.Folder
import BeatPatch.Proofs.Results

/-!
# What a write changes

A path leads to a directory, to a file, to the null device, or to where a file may be made
(`Folder.placeOf`). A file has the same key in every spelling, be it relative, absolute
(`FileKey.ofPath_absolute`) or out of the folder and back (`FileKey.ofPath_reentered`). Reading and
writing depend on the place alone. A write makes no directory, so that every path leads where it did
before, and it changes one file: what is read there is what was written, and whatever else is read
is as it was (`Folder.replaces_of_write`).
-/

namespace BeatPatch

namespace FileKey

variable {key directory : FileKey} {name : PathPart}

theorem isWithin_iff : key.isWithin directory = true ↔ directory.names <+: key.names :=
  List.isPrefixOf_iff_prefix

theorem isWithin_refl (key : FileKey) : key.isWithin key = true :=
  isWithin_iff.mpr (List.prefix_refl _)

theorem isWithin_trans {outer : FileKey} (first : key.isWithin directory = true)
    (second : directory.isWithin outer = true) : key.isWithin outer = true :=
  isWithin_iff.mpr ((isWithin_iff.mp second).trans (isWithin_iff.mp first))

theorem isWithin_antisymm (first : key.isWithin directory = true)
    (second : directory.isWithin key = true) : key = directory := by
  have above := isWithin_iff.mp first
  have below := isWithin_iff.mp second
  have names := below.eq_of_length (Nat.le_antisymm below.length_le above.length_le)
  cases key
  cases directory
  exact congrArg mk names

theorem isWithin_parent (key : FileKey) : key.isWithin key.parent = true :=
  isWithin_iff.mpr (List.dropLast_prefix _)

theorem isBelow_iff :
    key.isBelow directory = true ↔ key.isWithin directory = true ∧ key ≠ directory := by
  rw [isBelow, Bool.and_eq_true, decide_eq_true_eq]

/-- What lies below a directory lies below all that are above it. -/
theorem isBelow_of_isWithin {outer : FileKey} (below : key.isBelow directory = true)
    (within : directory.isWithin outer = true) : key.isBelow outer = true := by
  obtain ⟨inside, different⟩ := isBelow_iff.mp below
  refine isBelow_iff.mpr ⟨isWithin_trans inside within, ?_⟩
  rintro rfl
  exact different (isWithin_antisymm inside within)

/-- An entry of a directory lies below the directory and what is above it. -/
theorem isBelow_entry_iff : (directory.entry name).isBelow key = true ↔
    directory.isWithin key = true := by
  rw [isBelow_iff, isWithin_iff, isWithin_iff, entry]
  constructor
  · rintro ⟨front, different⟩
    rcases List.prefix_concat_iff.mp front with whole | front
    · cases key
      exact absurd (congrArg mk whole.symm) different
    · exact front
  · intro front
    refine ⟨front.trans (List.prefix_append ..), ?_⟩
    rintro rfl
    have short := front.length_le
    rw [List.length_append, List.length_singleton] at short
    omega

/-- A standard directory lies below the root only. -/
theorem isWithin_standard (standard : FileKey.standard.contains directory = true)
    (within : directory.isWithin key = true) : key = directory ∨ key = root := by
  obtain ⟨name, rfl⟩ : ∃ name, directory = root.entry name := by
    rw [List.contains_iff_mem, FileKey.standard, List.mem_map] at standard
    obtain ⟨name, -, rfl⟩ := standard
    exact ⟨_, rfl⟩
  cases key
  rcases List.prefix_concat_iff.mp (isWithin_iff.mp within) with whole | front
  · exact .inl (congrArg mk whole)
  · exact .inr (congrArg mk (List.prefix_nil.mp front))

/-! ## Spellings of one place -/

theorem follow_of_name {part : PathPart} (busy : part.isIdle = false)
    (forward : part ≠ PathPart.parent) : directory.follow part = directory.entry part := by
  rw [follow, if_neg (by simp [busy]), if_neg forward]

/-- Parts without `..` lead downwards, each that leads anywhere by its name. -/
theorem foldl_follow_of_forward {parts : List PathPart} (forward : PathPart.parent ∉ parts)
    (directory : FileKey) :
    parts.foldl follow directory = ⟨directory.names ++ parts.filter (!PathPart.isIdle ·)⟩ := by
  induction parts generalizing directory with
  | nil => rw [List.filter_nil, List.append_nil]; rfl
  | cons part parts ih =>
    rw [List.mem_cons, not_or] at forward
    rw [List.foldl_cons, ih forward.2, follow]
    cases idle : part.isIdle with
    | true => simp [idle]
    | false => simp [idle, Ne.symm forward.1, entry]

section Spellings

variable {location : FileKey} {p : Path} (relative : p.isAbsolute = false)

include relative

/-- A relative path may be spelt behind the names that lead down from the root. -/
theorem ofPath_absolute
    (named : ∀ part ∈ location.names, part.isIdle = false ∧ part ≠ PathPart.parent)
    (parts : p.parts ≠ []) :
    ofPath location ⟨[] :: (location.names ++ p.parts)⟩ = ofPath location p := by
  have absolute : Path.isAbsolute ⟨[] :: (location.names ++ p.parts)⟩ = true := by
    have := List.length_pos_iff.mpr parts
    simp [Path.isAbsolute]
    omega
  have idle : root.follow [] = root := rfl
  have down : location.names.foldl follow root = location := by
    rw [foldl_follow_of_forward fun mem => (named _ mem).2 rfl, List.filter_eq_self.mpr]
    · rfl
    · intro part mem
      rw [(named part mem).1, Bool.not_false]
  rw [ofPath, ofPath, startOf, startOf, if_pos absolute, if_neg (by simp [relative]),
    List.foldl_cons, idle, List.foldl_append, down]

/-- A relative path may leave the folder and come back to it by its name. -/
theorem ofPath_reentered {name : PathPart} (busy : name.isIdle = false)
    (forward : name ≠ PathPart.parent) :
    ofPath (location.entry name) ⟨PathPart.parent :: name :: p.parts⟩ =
      ofPath (location.entry name) p := by
  have leaves : Path.isAbsolute ⟨PathPart.parent :: name :: p.parts⟩ = false := rfl
  have up : (location.entry name).follow PathPart.parent = location := by
    show (location.entry name).parent = location
    rw [parent, entry, List.dropLast_concat]
  rw [ofPath, ofPath, startOf, startOf, if_neg (by simp [leaves]), if_neg (by simp [relative]),
    List.foldl_cons, List.foldl_cons, up, follow_of_name busy forward]

end Spellings

end FileKey

namespace Folder

variable {f f' : Folder} {p q : Path} {key directory : FileKey} {bytes : Bytes}

/-! ## Where a path leads -/

/-- Where a path leads. -/
def placeOf (f : Folder) (p : Path) : Except IoError Place := do
  match ← f.approach p with
  | (directory, none) => return .directory directory
  | (directory, some name) => f.find directory name

/-- The key of the file at a place, or of the one that may be made there. -/
def Place.key? : Place → Option FileKey
  | .file key _ | .vacant key => some key
  | .directory _ | .nullDevice => none

/-- The key of the file that a path leads to, or of the one that may be made there. -/
def fileKey? (f : Folder) (p : Path) : Option FileKey := (f.placeOf p).toOption.bind Place.key?

/-- The two paths lead to the same file. -/
def SameFile (f : Folder) (p q : Path) : Prop :=
  ∃ key, f.fileKey? p = some key ∧ f.fileKey? q = some key

/-- The path leads to the null device. -/
def IsDevice (f : Folder) (p : Path) : Prop := f.placeOf p = .ok .nullDevice

theorem fileKey?_eq_some_iff :
    f.fileKey? p = some key ↔ ∃ place, f.placeOf p = .ok place ∧ place.key? = some key := by
  rw [fileKey?]
  cases f.placeOf p <;> simp [Except.toOption]

/-- A file is read through a path that leads to it and does not end in a slash; the null device is
read as empty. -/
theorem read_eq_ok_iff :
    f.read p = .ok bytes ↔ p.endsInSlash = false ∧
      ((∃ key, f.placeOf p = .ok (.file key bytes)) ∨
        f.IsDevice p ∧ bytes = []) := by
  unfold read IsDevice placeOf
  cases f.approach p with
  | error e => exact ⟨nofun, by rintro ⟨-, ⟨_, ⟨⟩⟩ | ⟨⟨⟩, -⟩⟩⟩
  | ok approached =>
    obtain ⟨directory, name⟩ := approached
    cases name with
    | none => exact ⟨nofun, by rintro ⟨-, ⟨_, ⟨⟩⟩ | ⟨⟨⟩, -⟩⟩⟩
    | some name =>
      simp only [bind, Except.bind]
      cases f.find directory name with
      | error e => exact ⟨nofun, by rintro ⟨-, ⟨_, ⟨⟩⟩ | ⟨⟨⟩, -⟩⟩⟩
      | ok place =>
        cases place <;> cases p.endsInSlash <;>
          simp [pure, Except.pure, throw, throwThe, MonadExceptOf.throw, eq_comm]

/-- A file is written through a path that leads to it, or to where it may be made, and does not
end in a slash; what is written to the null device is lost. -/
theorem write_eq_ok_iff :
    f.write p bytes = .ok f' ↔ p.endsInSlash = false ∧
      ((∃ key, f.fileKey? p = some key ∧ f' = f.put key bytes) ∨
        f.IsDevice p ∧ f' = f) := by
  unfold write IsDevice fileKey? placeOf
  cases f.approach p with
  | error e => exact ⟨nofun, by rintro ⟨-, ⟨_, ⟨⟩, -⟩ | ⟨⟨⟩, -⟩⟩⟩
  | ok approached =>
    obtain ⟨directory, name⟩ := approached
    cases name with
    | none => exact ⟨nofun, by rintro ⟨-, ⟨_, ⟨⟩, -⟩ | ⟨⟨⟩, -⟩⟩⟩
    | some name =>
      simp only [bind, Except.bind]
      cases p.endsInSlash with
      | true => exact ⟨nofun, nofun⟩
      | false =>
        cases f.find directory name with
        | error e => exact ⟨nofun, by rintro ⟨-, ⟨_, ⟨⟩, -⟩ | ⟨⟨⟩, -⟩⟩⟩
        | ok place =>
          cases place <;> simp [pure, Except.pure, throw, throwThe, MonadExceptOf.throw, eq_comm,
            Except.toOption, Place.key?]

/-! ## Following a path -/

theorem find_eq_directory_iff {name : PathPart} :
    f.find directory name = .ok (.directory key) ↔ name.size ≤ nameLimit ∧
      f.hasDirectory (directory.entry name) = true ∧ key = directory.entry name := by
  unfold find
  dsimp only
  by_cases long : nameLimit < name.size
  · rw [if_pos long]
    exact ⟨nofun, fun h => absurd long (Nat.not_lt_of_le h.1)⟩
  · rw [if_neg long]
    by_cases there : f.hasDirectory (directory.entry name) = true
    · rw [if_pos there]
      simp [Nat.le_of_not_lt long, there, eq_comm]
    · rw [if_neg there]
      refine ⟨fun h => ?_, fun h => absurd h.2.1 there⟩
      split at h
      · cases h
      · split at h <;> cases h

/-- A part of a path leads nowhere, or to the parent, or to a directory of that name. -/
theorem enter_eq_ok_iff {part : PathPart} :
    f.enter directory part = .ok key ↔ key = directory.follow part ∧
      (part.isIdle = true ∨ part = PathPart.parent ∨
        part.size ≤ nameLimit ∧ f.hasDirectory (directory.entry part) = true) := by
  unfold enter FileKey.follow
  by_cases idle : part.isIdle = true
  · rw [if_pos idle, if_pos idle]
    exact ⟨fun h => ⟨(Except.ok.inj h).symm, .inl idle⟩, fun h => congrArg Except.ok h.1.symm⟩
  · rw [if_neg idle, if_neg idle]
    by_cases up : part = PathPart.parent
    · rw [if_pos up, if_pos up]
      exact ⟨fun h => ⟨(Except.ok.inj h).symm, .inr (.inl up)⟩,
        fun h => congrArg Except.ok h.1.symm⟩
    · rw [if_neg up, if_neg up, or_iff_right idle, or_iff_right up]
      constructor
      · intro entered
        split at entered
        · rename_i found
          cases entered
          obtain ⟨short, there, same⟩ := find_eq_directory_iff.mp found
          exact ⟨same, short, there⟩
        all_goals cases entered
      · rintro ⟨rfl, short, there⟩
        rw [find_eq_directory_iff.mpr ⟨short, there, rfl⟩]

/-- The path can be handed to the system. -/
def Accepted (p : Path) : Prop := p.chars.contains '\x00' = false ∧ p.size ≤ pathLimit

theorem not_approach_of_not_accepted (refused : ¬ Accepted p)
    (reached : FileKey × Option PathPart) : f.approach p ≠ .ok reached := by
  unfold approach
  cases nul : p.chars.contains '\x00' with
  | true => exact nofun
  | false =>
    have long : pathLimit < p.size := Nat.lt_of_not_le fun short => refused ⟨nul, short⟩
    simp only [Bool.false_eq_true, if_false, if_pos long]
    exact nofun

/-- A path that is accepted is followed up to its last part. -/
theorem approach_of_accepted (accepted : Accepted p) :
    f.approach p = match p.trimmed.getLast? with
      | none => if p.isAbsolute then .ok (.root, none) else .error .notFound
      | some last =>
        p.trimmed.dropLast.foldlM f.enter (FileKey.startOf f.location p) >>= fun directory =>
          if last.isIdle || last = PathPart.parent then .ok (directory.follow last, none)
          else .ok (directory, some last) := by
  have short : ¬ pathLimit < p.size := Nat.not_lt_of_le accepted.2
  unfold approach
  simp only [accepted.1, Bool.false_eq_true, if_false, if_neg short]
  rfl

/-- The way to a file: all parts of the path but the last are followed, and the last is a name. -/
theorem approach_eq_ok_some_iff {name : PathPart} :
    f.approach p = .ok (directory, some name) ↔ Accepted p ∧
      ∃ parts, p.trimmed = parts ++ [name] ∧ name.isIdle = false ∧ name ≠ PathPart.parent ∧
        parts.foldlM f.enter (FileKey.startOf f.location p) = .ok directory := by
  by_cases accepted : Accepted p
  · rw [approach_of_accepted accepted, and_iff_right accepted]
    rcases List.eq_nil_or_concat p.trimmed with none | ⟨parts, last, split⟩
    · rw [none]
      refine ⟨?_, by rintro ⟨parts, empty, -⟩; exact absurd empty.symm (by simp)⟩
      cases p.isAbsolute <;> exact nofun
    · rw [List.concat_eq_append] at split
      simp only [split, List.getLast?_concat, List.dropLast_concat, Except.bind_eq_ok_iff]
      constructor
      · rintro ⟨start, followed, ends⟩
        split at ends
        · cases ends
        · rename_i named
          cases ends
          simp only [Bool.or_eq_true, decide_eq_true_eq, not_or, Bool.not_eq_true] at named
          exact ⟨parts, rfl, named.1, named.2, followed⟩
      · rintro ⟨front, same, busy, forward, followed⟩
        obtain ⟨rfl, ⟨⟩⟩ := List.append_inj' same rfl
        refine ⟨directory, followed, ?_⟩
        rw [if_neg (by simp [busy, forward])]
  · exact iff_of_false (not_approach_of_not_accepted accepted _) fun h => accepted h.1

/-- Folders in which the same parts lead to the same directories have the same ways. -/
theorem approach_congr {g : Folder} (location : g.location = f.location)
    (same : ∀ directory part key, g.enter directory part = .ok key ↔
      f.enter directory part = .ok key)
    (reached : FileKey × Option PathPart) :
    g.approach p = .ok reached ↔ f.approach p = .ok reached := by
  by_cases accepted : Accepted p
  · rw [approach_of_accepted accepted, approach_of_accepted accepted]
    cases p.trimmed.getLast? with
    | none => rfl
    | some last => simp only [location, Except.bind_eq_ok_iff, Except.foldlM_eq_ok_congr same]
  · exact iff_of_false (not_approach_of_not_accepted accepted _)
      (not_approach_of_not_accepted accepted _)

/-! ## Directories -/

theorem hasDirectory_iff : f.hasDirectory key = true ↔ f.location.isWithin key = true ∨
    FileKey.standard.contains key = true ∨ ∃ file ∈ f.files, file.1.isBelow key = true := by
  simp only [hasDirectory, Bool.or_eq_true, List.any_eq_true, or_assoc]

theorem hasDirectory_root : f.hasDirectory FileKey.root = true :=
  hasDirectory_iff.mpr (.inl (FileKey.isWithin_iff.mpr (List.nil_prefix)))

theorem hasDirectory_startOf (p : Path) :
    f.hasDirectory (FileKey.startOf f.location p) = true := by
  rw [FileKey.startOf]
  split
  · exact hasDirectory_root
  · exact hasDirectory_iff.mpr (.inl (FileKey.isWithin_refl _))

/-- What a directory lies in is a directory. -/
theorem hasDirectory_of_isWithin (there : f.hasDirectory directory = true)
    (within : directory.isWithin key = true) : f.hasDirectory key = true := by
  rcases hasDirectory_iff.mp there with around | standard | ⟨file, listed, below⟩
  · exact hasDirectory_iff.mpr (.inl (FileKey.isWithin_trans around within))
  · rcases FileKey.isWithin_standard standard within with rfl | rfl
    · exact there
    · exact hasDirectory_root
  · exact hasDirectory_iff.mpr
      (.inr (.inr ⟨file, listed, FileKey.isBelow_of_isWithin below within⟩))

theorem hasDirectory_parent (there : f.hasDirectory directory = true) :
    f.hasDirectory directory.parent = true :=
  hasDirectory_of_isWithin there (FileKey.isWithin_parent _)

/-- A part of a path leads from a directory to a directory. -/
theorem hasDirectory_of_enter {part : PathPart} (there : f.hasDirectory directory = true)
    (entered : f.enter directory part = .ok key) : f.hasDirectory key = true := by
  obtain ⟨rfl, passes⟩ := enter_eq_ok_iff.mp entered
  unfold FileKey.follow
  split
  · exact there
  · rename_i busy
    split
    · exact hasDirectory_parent there
    · rename_i forward
      exact ((passes.resolve_left busy).resolve_left forward).2

theorem hasDirectory_of_approach {name : PathPart}
    (reached : f.approach p = .ok (directory, some name)) : f.hasDirectory directory = true := by
  obtain ⟨-, parts, -, -, -, followed⟩ := approach_eq_ok_some_iff.mp reached
  exact Except.of_foldlM (fun d part k => hasDirectory_of_enter) (hasDirectory_startOf p) followed

/-! ## Putting a file -/

theorem location_put (f : Folder) (key : FileKey) (bytes : Bytes) :
    (f.put key bytes).location = f.location := by
  unfold put
  split <;> rfl

theorem lookup_replace (files : List (FileKey × Bytes)) (key other : FileKey) (bytes : Bytes) :
    (files.map fun entry => if entry.1 = key then (key, bytes) else entry).lookup other =
      if other = key then (files.lookup key).map fun _ => bytes else files.lookup other := by
  induction files with
  | nil => simp
  | cons entry files ih =>
    obtain ⟨first, old⟩ := entry
    rw [List.map_cons]
    by_cases here : first = key
    · subst here
      rw [if_pos rfl, List.lookup_cons_self, List.lookup_cons, List.lookup_cons, ih]
      by_cases same : other = first
      · simp [same]
      · simp [same, beq_false_of_ne same]
    · rw [if_neg here, List.lookup_cons, List.lookup_cons, List.lookup_cons, ih]
      by_cases same : other = key
      · subst same
        simp [beq_false_of_ne (Ne.symm here)]
      · simp [same]

/-- Putting a file changes the contents of that file only. -/
theorem get?_put (f : Folder) (key other : FileKey) (bytes : Bytes) :
    (f.put key bytes).get? other = if other = key then some bytes else f.get? other := by
  unfold put get?
  cases found : f.files.lookup key with
  | some old =>
    rw [Option.isSome_some, if_pos rfl]
    exact (lookup_replace ..).trans (by rw [found]; rfl)
  | none =>
    rw [Option.isSome_none, if_neg Bool.false_ne_true]
    show (f.files ++ [(key, bytes)]).lookup other = _
    rw [List.lookup_append]
    by_cases same : other = key
    · subst same
      rw [found, if_pos rfl]
      simp
    · rw [if_neg same, List.lookup_cons, beq_false_of_ne same]
      exact Option.or_none

/-- A file in a directory lies below no other directories than those that are there. -/
theorem hasDirectory_put {name : PathPart} (there : f.hasDirectory directory = true)
    (key : FileKey) :
    (f.put (directory.entry name) bytes).hasDirectory key = f.hasDirectory key := by
  unfold put
  split
  · have below (entry : FileKey × Bytes) :
        (if entry.1 = directory.entry name then (directory.entry name, bytes)
          else entry).1.isBelow key = entry.1.isBelow key := by
      split
      · rename_i same
        rw [same]
      · rfl
    simp only [hasDirectory, List.any_map, Function.comp_def, below]
  · -- The new file lies below `directory` and what is above it, which is there already.
    apply Bool.eq_iff_iff.mpr
    have above : (directory.entry name).isBelow key = true → f.hasDirectory key = true := by
      rw [FileKey.isBelow_entry_iff]
      exact hasDirectory_of_isWithin there
    simp only [hasDirectory, List.any_append, List.any_cons, List.any_nil, Bool.or_false,
      Bool.or_eq_true] at above ⊢
    rw [← or_assoc]
    exact or_iff_left_of_imp above

/-- The place once the file of this key has these contents. -/
def Place.withFile (key : FileKey) (bytes : Bytes) : Place → Place
  | .file k old => .file k (if k = key then bytes else old)
  | .vacant k => if k = key then .file key bytes else .vacant k
  | place => place

section Put

variable {name : PathPart} (there : f.hasDirectory directory = true)

include there

theorem find_put (d : FileKey) (n : PathPart) :
    (f.put (directory.entry name) bytes).find d n =
      (f.find d n).map (Place.withFile (directory.entry name) bytes) := by
  unfold find
  simp only [hasDirectory_put there, get?_put]
  by_cases long : nameLimit < n.size
  · rw [if_pos long, if_pos long]
    rfl
  · rw [if_neg long, if_neg long]
    by_cases isDirectory : f.hasDirectory (d.entry n) = true
    · rw [if_pos isDirectory, if_pos isDirectory]
      rfl
    · rw [if_neg isDirectory, if_neg isDirectory]
      by_cases device : d.entry n = FileKey.nullDevice
      · rw [if_pos device, if_pos device]
        rfl
      · rw [if_neg device, if_neg device]
        by_cases same : d.entry n = directory.entry name
        · rw [if_pos same]
          cases f.get? (d.entry n) <;> simp [Except.map, Place.withFile, same]
        · rw [if_neg same]
          cases f.get? (d.entry n) <;> simp [Except.map, Place.withFile, same]

/-- Every path leads where it did before. -/
theorem placeOf_put_eq_ok_iff {place : Place} :
    (f.put (directory.entry name) bytes).placeOf p = .ok place ↔
      ∃ old, f.placeOf p = .ok old ∧ place = old.withFile (directory.entry name) bytes := by
  -- No directory comes or goes, so the ways are the same; only what lies at the end may differ.
  have same (d : FileKey) (part : PathPart) (k : FileKey) :
      (f.put (directory.entry name) bytes).enter d part = .ok k ↔ f.enter d part = .ok k := by
    rw [enter_eq_ok_iff, enter_eq_ok_iff, hasDirectory_put there]
  unfold placeOf
  simp only [Except.bind_eq_ok_iff, approach_congr (location_put ..) same]
  constructor
  · rintro ⟨⟨d, n⟩, reached, found⟩
    cases n with
    | none => cases found; exact ⟨_, ⟨_, reached, rfl⟩, rfl⟩
    | some n =>
      simp only [find_put there] at found
      cases old : f.find d n with
      | error e => rw [old] at found; cases found
      | ok place => rw [old] at found; cases found; exact ⟨place, ⟨_, reached, old⟩, rfl⟩
  · rintro ⟨old, ⟨⟨d, n⟩, reached, found⟩, rfl⟩
    refine ⟨_, reached, ?_⟩
    cases n with
    | none => cases found; rfl
    | some n =>
      simp only at found
      simp only [find_put there, found]
      rfl

end Put

/-! ## Files by path -/

/-- What a name leads to is known by that name. -/
theorem eq_entry_of_find {name : PathPart} {place : Place}
    (found : f.find directory name = .ok place) (isFile : place.key? = some key) :
    key = directory.entry name := by
  unfold find at found
  dsimp only at found
  split at found
  · cases found
  · split at found
    · cases found; cases isFile
    · split at found
      · cases found; cases isFile
      · split at found <;> (cases found; cases isFile; rfl)

/-- A path to a file leads to a directory and to an entry in it. -/
theorem exists_approach_of_fileKey? (leads : f.fileKey? p = some key) :
    ∃ directory name, f.approach p = .ok (directory, some name) ∧ key = directory.entry name := by
  obtain ⟨place, reached, isFile⟩ := fileKey?_eq_some_iff.mp leads
  unfold placeOf at reached
  obtain ⟨⟨directory, name⟩, approached, found⟩ := Except.bind_eq_ok_iff.mp reached
  cases name with
  | none => cases found; cases isFile
  | some name => exact ⟨directory, name, approached, eq_entry_of_find found isFile⟩

theorem foldl_follow_of_nil {parts : List PathPart} (empty : ∀ part ∈ parts, part = [])
    (directory : FileKey) : parts.foldl FileKey.follow directory = directory := by
  induction parts with
  | nil => rfl
  | cons part parts ih =>
    rw [empty part List.mem_cons_self]
    exact ih fun part mem => empty part (List.mem_cons_of_mem _ mem)

/-- Slashes at the end of a path lead nowhere. -/
theorem ofPath_eq_trimmed (location : FileKey) (p : Path) :
    FileKey.ofPath location p = p.trimmed.foldl FileKey.follow (FileKey.startOf location p) := by
  have split : p.parts = p.trimmed ++ (p.parts.reverse.takeWhile (· = [])).reverse := by
    rw [Path.trimmed, ← List.reverse_append, List.takeWhile_append_dropWhile, List.reverse_reverse]
  have blank : ∀ part ∈ (p.parts.reverse.takeWhile (· = [])).reverse, part = [] := by
    intro part mem
    exact of_decide_eq_true (List.all_eq_true.mp List.all_takeWhile part (List.mem_reverse.mp mem))
  rw [FileKey.ofPath, split, List.foldl_append, foldl_follow_of_nil blank]

theorem eq_foldl_of_foldlM {parts : List PathPart} {start : FileKey}
    (followed : parts.foldlM f.enter start = .ok directory) :
    directory = parts.foldl FileKey.follow start := by
  induction parts generalizing start with
  | nil => cases followed; rfl
  | cons part parts ih =>
    rw [List.foldlM_cons, Except.bind_eq_ok_iff] at followed
    obtain ⟨next, entered, rest⟩ := followed
    rw [ih rest, (enter_eq_ok_iff.mp entered).1]
    rfl

/-- The key of a file is spelt by every path that leads to it, whatever else the folder holds. -/
theorem eq_ofPath_of_fileKey? (leads : f.fileKey? p = some key) :
    key = FileKey.ofPath f.location p := by
  obtain ⟨directory, name, approached, rfl⟩ := exists_approach_of_fileKey? leads
  obtain ⟨-, parts, split, busy, forward, followed⟩ := approach_eq_ok_some_iff.mp approached
  rw [ofPath_eq_trimmed, split, List.foldl_append, ← eq_foldl_of_foldlM followed]
  simp [FileKey.follow, busy, forward]

/-- Paths to files lead to the same file if they spell the same key. -/
theorem sameFile_iff : f.SameFile p q ↔
    (f.fileKey? p).isSome = true ∧ (f.fileKey? q).isSome = true ∧
      FileKey.ofPath f.location p = FileKey.ofPath f.location q := by
  constructor
  · rintro ⟨key, first, second⟩
    refine ⟨by rw [first]; rfl, by rw [second]; rfl, ?_⟩
    rw [← eq_ofPath_of_fileKey? first, ← eq_ofPath_of_fileKey? second]
  · rintro ⟨first, second, same⟩
    obtain ⟨key, first⟩ := Option.isSome_iff_exists.mp first
    obtain ⟨other, second⟩ := Option.isSome_iff_exists.mp second
    refine ⟨key, first, ?_⟩
    rw [second, eq_ofPath_of_fileKey? first, eq_ofPath_of_fileKey? second, same]

/-! ## Writing -/

/-- What is left of a folder when these bytes have been written through a path. They are read
there, if it is no device, and through every other path to the same file. All other files are as
they were, by path and by key. -/
structure Replaces (f : Folder) (q : Path) (bytes : Bytes) (f' : Folder) : Prop where
  written : ¬ f.IsDevice q → f'.read q = .ok bytes
  same : ∀ p, f.SameFile p q → p.endsInSlash = false → f'.read p = .ok bytes
  others : ∀ p, ¬ f.SameFile p q → ∀ found, f'.read p = .ok found ↔ f.read p = .ok found
  keys : ∀ key, f.fileKey? q ≠ some key → f'.get? key = f.get? key

section Put

variable {name : PathPart} (there : f.hasDirectory directory = true)

include there

theorem read_put_of_fileKey? (leads : f.fileKey? p = some (directory.entry name))
    (plain : p.endsInSlash = false) : (f.put (directory.entry name) bytes).read p = .ok bytes := by
  obtain ⟨place, reached, isFile⟩ := fileKey?_eq_some_iff.mp leads
  refine read_eq_ok_iff.mpr ⟨plain, .inl ⟨directory.entry name, ?_⟩⟩
  refine (placeOf_put_eq_ok_iff there).mpr ⟨place, reached, ?_⟩
  cases place <;> cases isFile <;> simp [Place.withFile]

theorem read_put_of_ne (leads : f.fileKey? p ≠ some (directory.entry name)) (found : Bytes) :
    (f.put (directory.entry name) bytes).read p = .ok found ↔ f.read p = .ok found := by
  have other (k : FileKey) (old : Place) (reached : f.placeOf p = .ok old)
      (isFile : old.key? = some k) : k ≠ directory.entry name := by
    rintro rfl
    exact leads (fileKey?_eq_some_iff.mpr ⟨old, reached, isFile⟩)
  rw [read_eq_ok_iff, read_eq_ok_iff]
  simp only [IsDevice, placeOf_put_eq_ok_iff there]
  refine and_congr_right fun _ => or_congr (exists_congr fun k => ?_) (and_congr_left fun _ => ?_)
  · constructor
    · rintro ⟨old, reached, same⟩
      cases old with
      | file k' bytes' =>
        simp only [Place.withFile, if_neg (other k' _ reached rfl)] at same
        rw [same, reached]
      | vacant k' =>
        simp only [Place.withFile, if_neg (other k' _ reached rfl)] at same
        cases same
      | directory | nullDevice => cases same
    · intro reached
      exact ⟨_, reached, by simp only [Place.withFile, if_neg (other k _ reached rfl)]⟩
  · constructor
    · rintro ⟨old, reached, same⟩
      cases old with
      | vacant k' =>
        simp only [Place.withFile, if_neg (other k' _ reached rfl)] at same
        cases same
      | nullDevice => exact reached
      | directory | file => cases same
    · intro reached
      exact ⟨_, reached, rfl⟩

end Put

/-- What is written to the null device is lost. -/
theorem write_of_isDevice (device : f.IsDevice q) (plain : q.endsInSlash = false) (bytes : Bytes) :
    f.write q bytes = .ok f :=
  write_eq_ok_iff.mpr ⟨plain, .inr ⟨device, rfl⟩⟩

/-- A write that does not fail replaces one file. -/
theorem replaces_of_write (written : f.write q bytes = .ok f') : f.Replaces q bytes f' := by
  obtain ⟨plain, ⟨key, leads, rfl⟩ | ⟨device, rfl⟩⟩ := write_eq_ok_iff.mp written
  · obtain ⟨directory, name, approached, rfl⟩ := exists_approach_of_fileKey? leads
    have there := hasDirectory_of_approach approached
    refine ⟨fun _ => read_put_of_fileKey? there leads plain, ?_, ?_, ?_⟩
    · rintro p ⟨key, first, second⟩ plain
      rw [leads] at second
      cases second
      exact read_put_of_fileKey? there first plain
    · intro p different
      exact read_put_of_ne there fun first => different ⟨_, first, leads⟩
    · intro key different
      rw [get?_put, if_neg]
      rintro rfl
      exact different leads
  · -- The null device has no key, so that no path leads to the same file.
    refine ⟨absurd device, ?_, fun _ _ _ => Iff.rfl, fun _ _ => rfl⟩
    rintro p ⟨key, -, second⟩ -
    obtain ⟨place, reached, isFile⟩ := fileKey?_eq_some_iff.mp second
    cases device.symm.trans reached
    cases isFile

end Folder

end BeatPatch
