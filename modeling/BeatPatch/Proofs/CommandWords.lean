import BeatPatch.CommandLine.Invocation
import BeatPatch.Proofs.Results

/-!
# Words that are accepted

A plain word is an operand, or the value that an option waits for, whatever it says. So
`crc --skip N` takes any files (`parse_crc`).
-/

namespace BeatPatch.CommandLine

/-- Where no key is listed twice, what is listed is found. -/
theorem lookup_eq_some_iff_mem {α β : Type} [BEq α] [LawfulBEq α] {entries : List (α × β)}
    (once : (entries.map Prod.fst).Nodup) {key : α} {value : β} :
    entries.lookup key = some value ↔ (key, value) ∈ entries := by
  rw [List.lookup_eq_some_iff]
  constructor
  · rintro ⟨before, after, listed, -⟩
    rw [listed]
    exact List.mem_append_right _ List.mem_cons_self
  · intro listed
    obtain ⟨before, after, split⟩ := List.append_of_mem listed
    rw [split, List.map_append, List.nodup_append] at once
    refine ⟨before, after, split, fun entry earlier => bne_iff_ne.mpr fun same => ?_⟩
    exact once.2.2 _ (List.mem_map_of_mem earlier) _ List.mem_cons_self same.symm

theorem lookup_of_once {α β : Type} [BEq α] [LawfulBEq α] {entry : α × β}
    {entries : List (α × β)} (once : ((entry :: entries).map Prod.fst).Nodup) :
    entries.lookup entry.1 = none := by
  rw [List.map_cons, List.nodup_cons] at once
  refine List.lookup_eq_none_iff.mpr fun other mem => ?_
  exact bne_iff_ne.mpr fun same => once.1 (same ▸ List.mem_map_of_mem mem)

theorem once_of_append {α β : Type} {front rest : List (α × β)}
    (once : ((front ++ rest).map Prod.fst).Nodup) : (rest.map Prod.fst).Nodup :=
  once.sublist ((List.sublist_append_right ..).map _)

/-- With a command in front, a command line asks for what the command makes of the other words. -/
theorem parse_of_command {name : String} (listed : rootRule.commands.contains name = true)
    (words : List String) :
    Invocation.parse (name :: words) = (Command.parse name words).map fun matched =>
      ⟨matched.2, matched.1.verbosity, matched.1.has .quiet⟩ := by
  have found : Matching.takeToCommand { rule := rootRule } (name :: words) =
      .ok ({ rule := rootRule }, some (name, words)) := by
    rw [Matching.takeToCommand, if_pos (by simpa using listed)]
  rw [Invocation.parse, found]
  cases parsed : Command.parse name words with
  | error refusal => simp [bind, Except.bind, Except.map, parsed]
  | ok matched =>
    have root : Matching.has { rule := rootRule } .quiet = false := rfl
    simp [bind, Except.bind, Except.map, parsed, root, pure, Except.pure, eq_comm]

/-- A command reads its arguments off what the words have given. -/
theorem finish_of_takeAll {rule : CommandRule} {words : List String} {m : Matching}
    (taken : Matching.takeAll rule words = .ok m) (command : Matching → Except Refusal Command) :
    Command.parse.finish words rule command = (command m).map (m, ·) := by
  rw [Command.parse.finish, taken]
  show (command m >>= fun c => pure (m, c)) = _
  cases command m <;> rfl

/-! ## Plain words -/

/-- A word that is an operand wherever no value is waited for: it is not empty, and there is no
hyphen in front. -/
def IsPlain (word : String) : Prop := word.toList.head?.any (· ≠ '-') = true

instance : DecidablePred IsPlain := fun word =>
  inferInstanceAs (Decidable (word.toList.head?.any (· ≠ '-') = true))

theorem isPlain_iff {word : String} :
    IsPlain word ↔ ∃ c rest, word.toList = c :: rest ∧ c ≠ '-' := by
  rw [IsPlain, Option.any_eq_true]
  constructor
  · rintro ⟨c, first, hyphen⟩
    obtain ⟨rest, text⟩ := List.head?_eq_some_iff.mp first
    exact ⟨c, rest, text, of_decide_eq_true hyphen⟩
  · rintro ⟨c, rest, text, hyphen⟩
    exact ⟨c, List.head?_eq_some_iff.mpr ⟨rest, text⟩, decide_eq_true hyphen⟩

theorem IsPlain.ne_empty {word : String} (plain : IsPlain word) : word ≠ "" := by
  rintro rfl
  cases plain

theorem isPlain_of_readSize? {number : String} {size : Nat} (reads : readSize? number = some size) :
    IsPlain number := by
  rw [readSize?] at reads
  cases text : number.toList with
  | nil =>
    rw [text] at reads
    cases reads
  | cons c rest =>
    refine isPlain_iff.mpr ⟨c, rest, text, ?_⟩
    rintro rfl
    rw [text] at reads
    cases reads

namespace Matching

section Plain

variable {m : Matching} {word : String} (plain : IsPlain word) (free : m.literal = false)

include plain free

/-- A plain word is the value that an option waits for. -/
theorem take_of_waiting {a : Argument} (waiting : m.pending = some (a, [])) :
    m.take word = .ok { m with pending := some (a, [word]) } := by
  obtain ⟨c, rest, text, hyphen⟩ := isPlain_iff.mp plain
  rw [take, if_neg (by simp [free]), text]
  split
  · simp_all
  · simp_all
  · simp_all
  · rw [waiting]

/-- A plain word that no option waits for is an operand. -/
theorem take_of_isPlain (busy : ∀ a, m.pending ≠ some (a, [])) :
    m.take word = m.takeOperand word := by
  obtain ⟨c, rest, text, hyphen⟩ := isPlain_iff.mp plain
  rw [take, if_neg (by simp [free]), text]
  split
  · simp_all
  · simp_all
  · simp_all
  · split
    · rename_i a waiting
      exact absurd waiting (busy a)
    · rfl

end Plain

/-! ## The words of `crc` -/

/-- The number of bytes to skip is given, and the names of files are held back. -/
def collecting (number : String) (names : List String) : Matching where
  rule := crcRule
  given := [(.skip, [number])]
  pending := some (.files, names)

variable {number name : String} {names : List String} {skip : Nat}

theorem take_skip : take { rule := crcRule } "--skip" =
    .ok { rule := crcRule, pending := some (.skip, []) } :=
  rfl

theorem settle_skip (reads : readSize? number = some skip) :
    settle { rule := crcRule, pending := some (.skip, [number]) } =
      .ok { rule := crcRule, given := [(.skip, [number])] } := by
  simp [settle, accept, has, values?, Argument.reject?, reads]

/-- The first name ends the option. -/
theorem take_first (reads : readSize? number = some skip) (plain : IsPlain name) :
    take { rule := crcRule, pending := some (.skip, [number]) } name =
      .ok (collecting number [name]) := by
  rw [take_of_isPlain plain rfl (by simp), takeOperand]
  simp only [settle_skip reads]
  rfl

theorem take_next (any : names ≠ []) (plain : IsPlain name) :
    take (collecting number names) name = .ok (collecting number (names ++ [name])) := by
  rw [take_of_isPlain plain rfl (by simpa [collecting] using any)]
  rfl

theorem foldlM_take_names {rest : List String} (any : names ≠ [])
    (plain : ∀ name ∈ rest, IsPlain name) :
    rest.foldlM take (collecting number names) = .ok (collecting number (names ++ rest)) := by
  induction rest generalizing names with
  | nil => rw [List.append_nil]; rfl
  | cons name rest ih =>
    obtain ⟨first, others⟩ := List.forall_mem_cons.mp plain
    rw [List.foldlM_cons, take_next any first]
    refine (ih (by simp) others).trans ?_
    rw [List.append_assoc]
    rfl

/-- All that is given on the command line. -/
def collected (number : String) (names : List String) : Matching where
  rule := crcRule
  given := [(.files, names), (.skip, [number])]

theorem settle_collecting (any : names ≠ []) (plain : ∀ name ∈ names, IsPlain name) :
    settle (collecting number names) = .ok (collected number names) := by
  have accepted : names.findSome? Argument.files.reject? = none :=
    List.findSome?_eq_none_iff.mpr fun name mem => if_neg (plain name mem).ne_empty
  have fresh : [(Argument.skip, [number])].lookup .files = none := rfl
  simp [settle, accept, collecting, collected, has, values?, fresh, accepted, any]

theorem takeAll_crc (reads : readSize? number = some skip) (any : names ≠ [])
    (plain : ∀ name ∈ names, IsPlain name) :
    takeAll crcRule ("--skip" :: number :: names) = .ok (collected number names) := by
  obtain ⟨name, rest, rfl⟩ := List.exists_cons_of_ne_nil any
  obtain ⟨first, others⟩ := List.forall_mem_cons.mp plain
  have waits := take_of_waiting (m := { rule := crcRule, pending := some (.skip, []) })
    (isPlain_of_readSize? reads) rfl rfl
  have taken : ("--skip" :: number :: name :: rest).foldlM take { rule := crcRule } =
      .ok (collecting number (name :: rest)) := by
    simp only [List.foldlM_cons, Except.bind_eq_ok_iff]
    exact ⟨_, take_skip, _, waits, _, take_first reads first, foldlM_take_names (by simp) others⟩
  rw [takeAll, taken]
  exact settle_collecting any plain

theorem toCrc_collected (reads : readSize? number = some skip) (any : names ≠ []) :
    toCrc (collected number names) = .ok (.crc ⟨names.map Path.ofString, skip⟩) := by
  obtain ⟨last, ends⟩ := Option.ne_none_iff_exists'.mp (mt List.getLast?_eq_none_iff.mp any)
  have files : (collected number names).values? .files = some names := rfl
  have skipped : (collected number names).value? .skip = some number := rfl
  have required : (collected number names).require .files = .ok last := by
    simp only [require, value?, files, Option.bind_some, ends]
  rw [toCrc, required, files, skipped, Option.bind_some, reads]
  rfl

end Matching

/-- `crc --skip N` with any plain names is accepted. -/
theorem parse_crc {number : String} {names : List String} {skip : Nat}
    (reads : readSize? number = some skip) (any : names ≠ [])
    (plain : ∀ name ∈ names, IsPlain name) :
    Invocation.parse ("crc" :: "--skip" :: number :: names) =
      .ok { command := .crc ⟨names.map Path.ofString, skip⟩ } := by
  rw [parse_of_command (by decide), Command.parse,
    finish_of_takeAll (Matching.takeAll_crc reads any plain), Matching.toCrc_collected reads any]
  rfl

end BeatPatch.CommandLine
