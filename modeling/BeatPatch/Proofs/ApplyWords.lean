import BeatPatch.Proofs.CommandWords
import Mathlib.Data.List.TakeWhile

/-!
# The words of `apply`

`apply` takes a dump, a patch and its options, these in any order and before, between or behind the
operands. What the words have given up to some point is known once the values that are held back are
taken (`Matching.Holds`), and each option adds its own argument to it. So the arguments are those
that the words name (`parse_apply`).
-/

namespace BeatPatch.CommandLine

/-- An option of `apply` that is on or off. -/
inductive ApplySwitch where
  | noSmb2
  | noSmc
  | strict
  | verify
deriving DecidableEq, Repr

/-- The word that turns the option on. -/
def ApplySwitch.word : ApplySwitch → String
  | .noSmb2 => "--no-smb2"
  | .noSmc => "--no-smc"
  | .strict => "--strict"
  | .verify => "--verify"

/-- The argument that the option gives. -/
def ApplySwitch.argument : ApplySwitch → Argument
  | .noSmb2 => .noSmb2
  | .noSmc => .noSmc
  | .strict => .strict
  | .verify => .verify

/-- An option of `apply` as it stands on a command line. -/
inductive ApplyOption where
  | switch (s : ApplySwitch)
  /-- Where the output goes, behind the short name or the long one. -/
  | output (short : Bool) (path : String)
deriving DecidableEq, Repr

theorem ApplySwitch.argument_injective {s t : ApplySwitch} (same : s.argument = t.argument) :
    s = t := by
  cases s <;> cases t <;> first | rfl | cases same

namespace ApplyOption

/-- The words of an option. -/
def words : ApplyOption → List String
  | switch s => [s.word]
  | output short path => [if short then "-o" else "--output", path]

/-- The argument that an option gives, with its values. -/
def given : ApplyOption → Argument × List String
  | switch s => (s.argument, [])
  | output _ path => (.output, [path])

/-- The path that an option gives for the output. -/
def path? : ApplyOption → Option String
  | switch _ => none
  | output _ path => some path

/-- What an option says of a path is a plain word. -/
def IsPlain (o : ApplyOption) : Prop := ∀ path ∈ o.path?, CommandLine.IsPlain path

instance : DecidablePred IsPlain := fun o =>
  inferInstanceAs (Decidable (∀ path ∈ o.path?, CommandLine.IsPlain path))

end ApplyOption

/-- The arguments that a dump, a patch and options stand for. -/
def ApplyArguments.ofOptions (source patch : String) (options : List ApplyOption) :
    ApplyArguments where
  source := .ofString source
  patch := .ofString patch
  output := (options.findSome? ApplyOption.path?).map .ofString
  noSmb2 := options.contains (.switch .noSmb2)
  noSmc := options.contains (.switch .noSmc)
  strict := options.contains (.switch .strict)
  verify := options.contains (.switch .verify)

namespace Matching

/-- All that has been given is known once the values that are held back are taken, and no option
waits for one. -/
structure Holds (m : Matching) (given : List (Argument × List String)) (operands : Nat) :
    Prop where
  settles : m.settle = .ok { rule := applyRule, given, operands }
  rule : m.rule = applyRule
  operands : m.operands = operands
  literal : m.literal = false
  busy : ∀ a, m.pending ≠ some (a, [])

variable {m : Matching} {given : List (Argument × List String)} {operands : Nat}
  {a : Argument} {word : String}

/-- An argument that was not given yet is accepted with a value that it does not reject. -/
theorem accept_of_new (new : given.lookup a = none) (accepted : a.reject? word = none) :
    accept { rule := applyRule, given, operands } a [word] =
      .ok { rule := applyRule, given := (a, [word]) :: given, operands } := by
  simp [accept, has, values?, new, accepted]

/-- A word behind two hyphens is the long name of an option. -/
theorem take_of_long {c : Char} {name : List Char} (free : m.literal = false)
    (text : word.toList = '-' :: '-' :: c :: name) (bare : '=' ∉ c :: name) :
    m.take word = m.takeLong (String.ofList (c :: name)) none := by
  have whole : (c :: name).takeWhile (· ≠ '=') = c :: name := by
    rw [List.takeWhile_eq_self_iff]
    intro d mem
    exact decide_eq_true fun same => bare (same ▸ mem)
  have rest : (c :: name).dropWhile (· ≠ '=') = [] := by
    rw [List.dropWhile_eq_nil_iff]
    intro d mem
    exact decide_eq_true fun same => bare (same ▸ mem)
  rw [take, if_neg (by simp [free]), text]
  simp only [whole, rest]

/-- The rule of an option that is on or off. -/
theorem exists_rule_of_switch (s : ApplySwitch) :
    ∃ c name rule, s.word.toList = '-' :: '-' :: c :: name ∧ '=' ∉ c :: name ∧
      applyRule.options.find? (·.long = String.ofList (c :: name)) = some rule ∧
      rule.kind = .switch ∧ rule.argument = s.argument := by
  cases s with
  | noSmb2 => exact ⟨_, _, _, rfl, by decide, rfl, rfl, rfl⟩
  | noSmc => exact ⟨_, _, _, rfl, by decide, rfl, rfl, rfl⟩
  | strict => exact ⟨_, _, _, rfl, by decide, rfl, rfl, rfl⟩
  | verify => exact ⟨_, _, _, rfl, by decide, rfl, rfl, rfl⟩

section Step

variable (h : Holds m given operands)

include h

theorem Holds.take_switch (s : ApplySwitch) (new : given.lookup s.argument = none) :
    ∃ m', m.take s.word = .ok m' ∧ Holds m' ((s.argument, []) :: given) operands := by
  obtain ⟨c, name, rule, text, bare, found, kind, argument⟩ := exists_rule_of_switch s
  rw [take_of_long h.literal text bare, takeLong, h.rule, found]
  dsimp only
  rw [if_neg (by simp [kind]), if_neg (by simp), turnOn, h.settles]
  refine ⟨{ rule := applyRule, given := (s.argument, []) :: given, operands }, ?_,
    rfl, rfl, rfl, rfl, nofun⟩
  simp [bind, Except.bind, kind, argument, has, values?, new, pure, Except.pure]

/-- Both names of the option for the output wait for its value. -/
theorem Holds.take_outputName (short : Bool) :
    m.take (if short then "-o" else "--output") =
      .ok { rule := applyRule, given, operands, pending := some (.output, []) } := by
  have waits : m.takeValue
      { argument := .output, short := some 'o', long := "output", kind := .value } none =
        .ok { rule := applyRule, given, operands, pending := some (.output, []) } := by
    rw [takeValue, h.settles]
    rfl
  cases short with
  | true =>
    rw [if_pos rfl, take, if_neg (by simp [h.literal])]
    show m.takeShort ['o'] = _
    rw [takeShort, h.rule]
    exact waits
  | false =>
    have text : "--output".toList = '-' :: '-' :: 'o' :: ['u', 't', 'p', 'u', 't'] := by decide
    rw [if_neg Bool.false_ne_true, take_of_long h.literal text (by decide), takeLong, h.rule]
    exact waits

theorem Holds.take_output {path : String} (short : Bool) (plain : IsPlain path)
    (new : given.lookup .output = none) :
    ∃ m', [if short then "-o" else "--output", path].foldlM take m = .ok m' ∧
      Holds m' ((.output, [path]) :: given) operands := by
  refine ⟨{ rule := applyRule, given, operands, pending := some (.output, [path]) }, ?_,
    ?_, rfl, rfl, rfl, by simp⟩
  · rw [List.foldlM_cons, h.take_outputName short]
    refine Except.bind_eq_ok_iff.mpr ⟨_, rfl, ?_⟩
    exact Except.bind_eq_ok_iff.mpr ⟨_, take_of_waiting plain rfl rfl, rfl⟩
  · exact accept_of_new new (if_neg plain.ne_empty)

theorem Holds.take_option {o : ApplyOption} (plain : o.IsPlain)
    (new : given.lookup o.given.1 = none) :
    ∃ m', o.words.foldlM take m = .ok m' ∧ Holds m' (o.given :: given) operands := by
  cases o with
  | switch s =>
    obtain ⟨m', taken, holds⟩ := h.take_switch s new
    exact ⟨m', Except.bind_eq_ok_iff.mpr ⟨m', taken, rfl⟩, holds⟩
  | output short path => exact h.take_output short (plain path rfl) new

theorem Holds.take_operand (plain : IsPlain word)
    (next : applyRule.operands[operands]? = some { argument := a })
    (new : given.lookup a = none) (accepted : a.reject? word = none) :
    ∃ m', m.take word = .ok m' ∧ Holds m' ((a, [word]) :: given) (operands + 1) := by
  refine ⟨{ rule := applyRule, given, operands := operands + 1, pending := some (a, [word]) }, ?_,
    accept_of_new new accepted, rfl, rfl, rfl, by simp⟩
  rw [take_of_isPlain plain h.literal h.busy, takeOperand, h.rule, h.operands, next]
  simp only [h.settles]
  rfl

end Step

/-- Options are taken one after the other if each argument is given once. -/
theorem Holds.take_options {options : List ApplyOption} (h : Holds m given operands)
    (plain : ∀ o ∈ options, o.IsPlain)
    (once : (((options.map ApplyOption.given).reverse ++ given).map Prod.fst).Nodup) :
    ∃ m', (options.flatMap ApplyOption.words).foldlM take m = .ok m' ∧
      Holds m' ((options.map ApplyOption.given).reverse ++ given) operands := by
  induction options generalizing m given with
  | nil => exact ⟨m, rfl, h⟩
  | cons o rest ih =>
    obtain ⟨first, others⟩ := List.forall_mem_cons.mp plain
    rw [List.map_cons, List.reverse_cons, List.append_assoc, List.singleton_append] at once ⊢
    have new := lookup_of_once (once_of_append once)
    obtain ⟨m₁, taken, holds⟩ := h.take_option first new
    obtain ⟨m₂, taken', holds'⟩ := ih holds others once
    refine ⟨m₂, ?_, holds'⟩
    rw [List.flatMap_cons, List.foldlM_append, taken]
    exact taken'

section Arguments

variable {source patch : String} {options : List ApplyOption}

/-- What is given: the dump, the patch and what the options give, each argument once. -/
structure Lists (given : List (Argument × List String)) (source patch : String)
    (options : List ApplyOption) : Prop where
  once : (given.map Prod.fst).Nodup
  mem_iff : ∀ entry, entry ∈ given ↔ entry = (.source, [source]) ∨ entry = (.patch, [patch]) ∨
    ∃ o ∈ options, o.given = entry

variable (lists : Lists m.given source patch options)

include lists

theorem Lists.values?_eq_some_iff {values : List String} :
    m.values? a = some values ↔ (a, values) ∈ m.given :=
  lookup_eq_some_iff_mem lists.once

theorem Lists.has_switch (s : ApplySwitch) :
    m.has s.argument = options.contains (.switch s) := by
  rw [has, Bool.eq_iff_iff, Option.isSome_iff_exists, List.contains_iff_mem]
  simp only [lists.values?_eq_some_iff, lists.mem_iff]
  constructor
  · rintro ⟨values, same | same | ⟨o, mem, same⟩⟩
    · cases s <;> cases same
    · cases s <;> cases same
    · cases o with
      | switch t => exact ApplySwitch.argument_injective (congrArg Prod.fst same) ▸ mem
      | output short path => cases s <;> cases same
  · intro mem
    exact ⟨[], .inr (.inr ⟨_, mem, rfl⟩)⟩

theorem Lists.value?_output : m.value? .output = options.findSome? ApplyOption.path? := by
  rw [value?]
  cases found : options.findSome? ApplyOption.path? with
  | some path =>
    obtain ⟨o, mem, gives⟩ := List.exists_of_findSome?_eq_some found
    cases o with
    | switch s => cases gives
    | output short path' =>
      cases gives
      rw [lists.values?_eq_some_iff.mpr ((lists.mem_iff _).mpr (.inr (.inr ⟨_, mem, rfl⟩)))]
      rfl
  | none =>
    have none : m.values? .output = none := by
      refine Option.eq_none_iff_forall_ne_some.mpr fun values given => ?_
      rcases (lists.mem_iff _).mp (lists.values?_eq_some_iff.mp given) with
        same | same | ⟨o, mem, same⟩
      · cases same
      · cases same
      · cases o with
        | switch s => cases s <;> cases same
        | output short path => cases List.findSome?_eq_none_iff.mp found _ mem
    rw [none]
    rfl

theorem Lists.has_quiet : m.has .quiet = false := by
  rw [has, Option.isSome_eq_false_iff, Option.isNone_iff_eq_none]
  refine Option.eq_none_iff_forall_ne_some.mpr fun values given => ?_
  rcases (lists.mem_iff _).mp (lists.values?_eq_some_iff.mp given) with
    same | same | ⟨o, mem, same⟩
  · cases same
  · cases same
  · cases o with
    | switch s => cases s <;> cases same
    | output short path => cases same

/-- Being strict leaves no repair to be switched off. Otherwise each option gives its argument. -/
theorem Lists.toApply_eq :
    m.toApply =
      if options.contains (.switch .strict) ∧
        (options.contains (.switch .noSmb2) ∨ options.contains (.switch .noSmc)) then
        .error .argumentConflict
      else .ok (.apply (.ofOptions source patch options)) := by
  have sourceGiven : m.require .source = .ok source := by
    rw [require, value?, lists.values?_eq_some_iff.mpr ((lists.mem_iff _).mpr (.inl rfl))]
    rfl
  have patchGiven : m.require .patch = .ok patch := by
    rw [require, value?, lists.values?_eq_some_iff.mpr ((lists.mem_iff _).mpr (.inr (.inl rfl)))]
    rfl
  have switches := lists.has_switch
  simp only [toApply, ← switches, ApplySwitch.argument, Bool.and_eq_true, Bool.or_eq_true,
    sourceGiven, patchGiven, lists.value?_output, ApplyArguments.ofOptions]
  split <;> rfl

end Arguments

section Line

variable {source patch : String} {front middle back : List ApplyOption}

/-- What a command line of `apply` gives, in its order. -/
def applyGiven (source patch : String) (front middle back : List ApplyOption) :
    List (Argument × List String) :=
  front.map ApplyOption.given ++ (.source, [source]) ::
    (middle.map ApplyOption.given ++ (.patch, [patch]) :: back.map ApplyOption.given)

theorem lists_applyGiven
    (once : ((front ++ middle ++ back).map fun o => o.given.1).Nodup) :
    Lists (applyGiven source patch front middle back).reverse source patch
      (front ++ middle ++ back) := by
  have perm : (applyGiven source patch front middle back).reverse.Perm
      ((.source, [source]) :: (.patch, [patch]) ::
        (front ++ middle ++ back).map ApplyOption.given) := by
    rw [List.map_append, List.map_append, List.append_assoc]
    refine (List.reverse_perm _).trans (List.perm_middle.trans (.cons _ ?_))
    rw [← List.append_assoc, ← List.append_assoc]
    exact List.perm_middle
  constructor
  · rw [(perm.map Prod.fst).nodup_iff, List.map_cons, List.map_cons, List.map_map]
    have other (operand : Argument) (isOperand : operand = .source ∨ operand = .patch) :
        operand ∉ (front ++ middle ++ back).map (Prod.fst ∘ ApplyOption.given) := by
      rintro given
      obtain ⟨o, -, rfl⟩ := List.mem_map.mp given
      cases o with
      | switch s => cases s <;> simp [ApplyOption.given, ApplySwitch.argument] at isOperand
      | output short path => simp [ApplyOption.given] at isOperand
    refine List.nodup_cons.mpr ⟨?_, List.nodup_cons.mpr ⟨other _ (.inr rfl), once⟩⟩
    rw [List.mem_cons, not_or]
    exact ⟨nofun, other _ (.inl rfl)⟩
  · intro entry
    rw [perm.mem_iff, List.mem_cons, List.mem_cons, List.mem_map]

theorem takeAll_apply (sourcePlain : IsPlain source) (patchPlain : IsPlain patch)
    (plain : ∀ o ∈ front ++ middle ++ back, o.IsPlain)
    (once : ((front ++ middle ++ back).map fun o => o.given.1).Nodup) :
    takeAll applyRule (front.flatMap ApplyOption.words ++ source ::
        (middle.flatMap ApplyOption.words ++ patch :: back.flatMap ApplyOption.words)) =
      .ok { rule := applyRule, operands := 2
            given := (applyGiven source patch front middle back).reverse } := by
  have order : (applyGiven source patch front middle back).reverse =
      (back.map ApplyOption.given).reverse ++ ((.patch, [patch]) ::
        ((middle.map ApplyOption.given).reverse ++ ((.source, [source]) ::
          ((front.map ApplyOption.given).reverse ++ [])))) := by
    simp [applyGiven]
  have all : ((applyGiven source patch front middle back).reverse.map Prod.fst).Nodup :=
    (lists_applyGiven once).once
  rw [order] at all ⊢
  -- Each part is taken on top of what the parts in front of it have given.
  have behindPatch := once_of_append all
  have behindMiddle := once_of_append (List.nodup_cons.mp behindPatch).2
  have behindSource := (List.nodup_cons.mp behindMiddle).2
  have start : Holds { rule := applyRule } [] 0 := ⟨rfl, rfl, rfl, rfl, nofun⟩
  obtain ⟨m₁, took₁, h₁⟩ := start.take_options
    (fun o mem => plain o (List.mem_append_left _ (List.mem_append_left _ mem))) behindSource
  obtain ⟨m₂, took₂, h₂⟩ := h₁.take_operand sourcePlain rfl (lookup_of_once behindMiddle)
    (if_neg sourcePlain.ne_empty)
  obtain ⟨m₃, took₃, h₃⟩ := h₂.take_options
    (fun o mem => plain o (List.mem_append_left _ (List.mem_append_right _ mem)))
    (List.nodup_cons.mp behindPatch).2
  obtain ⟨m₄, took₄, h₄⟩ := h₃.take_operand patchPlain rfl (lookup_of_once behindPatch)
    (if_neg patchPlain.ne_empty)
  obtain ⟨m₅, took₅, h₅⟩ := h₄.take_options
    (fun o mem => plain o (List.mem_append_right _ mem)) all
  refine Except.bind_eq_ok_iff.mpr ⟨m₅, ?_, h₅.settles⟩
  simp only [List.foldlM_append, List.foldlM_cons, Except.bind_eq_ok_iff]
  exact ⟨m₁, took₁, m₂, took₂, m₃, took₃, m₄, took₄, took₅⟩

end Line

end Matching

/-- The dump, the patch and the options are those that are given, wherever the options stand; being
strict leaves no repair to be switched off. -/
theorem parse_apply {source patch : String} {front middle back options : List ApplyOption}
    (all : options = front ++ middle ++ back) (sourcePlain : IsPlain source)
    (patchPlain : IsPlain patch) (plain : ∀ o ∈ options, o.IsPlain)
    (once : (options.map fun o => o.given.1).Nodup) :
    Invocation.parse ("apply" :: (front.flatMap ApplyOption.words ++
        source :: (middle.flatMap ApplyOption.words ++
          patch :: back.flatMap ApplyOption.words))) =
      if options.contains (.switch .strict) ∧
        (options.contains (.switch .noSmb2) ∨ options.contains (.switch .noSmc)) then
        .error .argumentConflict
      else .ok { command := .apply (.ofOptions source patch options) } := by
  subst all
  obtain ⟨m, taken, silent, lists⟩ : ∃ m, Matching.takeAll applyRule _ = .ok m ∧
      m.verbosity = 0 ∧ Matching.Lists m.given source patch (front ++ middle ++ back) :=
    ⟨_, Matching.takeAll_apply sourcePlain patchPlain plain once, rfl,
      Matching.lists_applyGiven once⟩
  rw [parse_of_command (by decide), Command.parse, finish_of_takeAll taken, lists.toApply_eq]
  split
  · rfl
  · simp only [Except.map, silent, lists.has_quiet]

end BeatPatch.CommandLine
