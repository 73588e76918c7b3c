import BeatPatch.Proofs.Effects
import BeatPatch.Proofs.Streams

/-!
# Totals of instructions

The report on a patch counts its instructions in 64 bits and stops at a sum that does not fit. So a
sum that is there is the exact one, and the tallies of instructions are there exactly if their exact
sums fit (`Tallies.of?_eq_some_iff`). Every instruction produces at least one byte, so that its
count fits if its bytes do; and the bytes of all actions bound those of each. Nothing bounds the
total itself: a patch may describe more bytes than 64 bits can count, and nothing is said of its
instructions then (`run_info_totals`).
-/

namespace BeatPatch

/-! ## Checked sums -/

/-- A sum that is given is exact, and an exact sum that is a word is given. -/
theorem Number.add?_eq_some_iff {a b sum : UInt64} :
    add? a b = some sum ↔ sum.toNat = a.toNat + b.toNat := by
  have fits : sum.toNat < bound := sum.toNat_lt
  rw [add?_eq]
  constructor
  · intro given
    split at given
    next small =>
      cases given
      exact UInt64.toNat_ofNat_of_lt' small
    next => cases given
  · intro exact
    rw [if_pos (exact ▸ fits), ← exact, UInt64.ofNat_toNat]

theorem Number.foldlM_add?_eq_some_iff {words : List UInt64} {start sum : UInt64} :
    words.foldlM add? start = some sum ↔
      sum.toNat = start.toNat + (words.map UInt64.toNat).sum := by
  induction words generalizing start with
  | nil =>
    rw [List.map_nil, List.sum_nil, Nat.add_zero, UInt64.toNat_inj, eq_comm (a := sum)]
    exact Option.some_inj
  | cons word rest ih =>
    rw [List.foldlM_cons, Option.bind_eq_bind, Option.bind_eq_some_iff, List.map_cons,
      List.sum_cons, ← Nat.add_assoc]
    constructor
    · rintro ⟨next, first, others⟩
      rw [← add?_eq_some_iff.mp first]
      exact ih.mp others
    · intro exact
      have small : start.toNat + word.toNat < 2 ^ 64 := by
        have := sum.toNat_lt
        omega
      have next := UInt64.toNat_ofNat_of_lt' small
      exact ⟨_, add?_eq_some_iff.mpr next, ih.mpr (by rw [next, exact])⟩

namespace CommandLine

/-! ## Exact sums -/

section Exact

variable {is : List Instruction}

/-- How many instructions there are of an action. -/
def occurrences (is : List Instruction) (action : Action) : Nat := is.countP (·.action = action)

/-- How many bytes the instructions of an action produce. -/
def produced (is : List Instruction) (action : Action) : Nat :=
  ((is.filter (·.action = action)).map Instruction.length).sum

theorem occurrences_singleton (i : Instruction) (action : Action) :
    occurrences [i] action = if i.action = action then 1 else 0 := by
  by_cases same : i.action = action <;> simp [occurrences, same]

theorem produced_singleton (i : Instruction) (action : Action) :
    produced [i] action = if i.action = action then i.length else 0 := by
  by_cases same : i.action = action <;> simp [produced, same]

theorem occurrences_cons (i : Instruction) (is : List Instruction) (action : Action) :
    occurrences (i :: is) action = occurrences [i] action + occurrences is action := by
  rw [occurrences, ← List.singleton_append, List.countP_append]
  rfl

theorem produced_cons (i : Instruction) (is : List Instruction) (action : Action) :
    produced (i :: is) action = produced [i] action + produced is action := by
  rw [produced, ← List.singleton_append, List.filter_append, List.map_append, List.sum_append]
  rfl

theorem sum_all (f : Action → Nat) :
    (Action.all.map f).sum = f .sourceRead + f .targetRead + f .sourceCopy + f .targetCopy := by
  simp [Action.all, Nat.add_assoc]

/-- The instructions of all actions are all instructions. -/
theorem sum_produced (is : List Instruction) :
    (Action.all.map (produced is)).sum = (is.map Instruction.length).sum := by
  induction is with
  | nil => rfl
  | cons i is ih =>
    have single : (Action.all.map (produced [i])).sum = i.length := by
      simp only [sum_all, produced_singleton]
      cases i.action <;> simp
    rw [sum_all] at ih single ⊢
    rw [List.map_cons, List.sum_cons, ← ih, ← single]
    simp only [produced_cons i is]
    omega

theorem produced_le (is : List Instruction) (action : Action) :
    produced is action ≤ (is.map Instruction.length).sum := by
  rw [← sum_produced, sum_all]
  cases action <;> omega

/-- Instructions that produce something are not more than what they produce. -/
theorem occurrences_le_produced (nonempty : ∀ i ∈ is, 1 ≤ i.length) (action : Action) :
    occurrences is action ≤ produced is action := by
  induction is with
  | nil => exact Nat.le_refl 0
  | cons i is ih =>
    obtain ⟨first, others⟩ := List.forall_mem_cons.mp nonempty
    have single : occurrences [i] action ≤ produced [i] action := by
      rw [occurrences_singleton, produced_singleton]
      split <;> omega
    rw [occurrences_cons, produced_cons]
    exact Nat.add_le_add single (ih others)

end Exact

/-! ## Tallies -/

namespace Tally

/-- One more instruction is counted if both sums fit, and then exactly. -/
theorem add?_eq_some_iff {t t' : Tally} {length : Nat} (short : length < 2 ^ 64) :
    t.add? length = some t' ↔
      t'.count.toNat = t.count.toNat + 1 ∧ t'.bytes.toNat = t.bytes.toNat + length := by
  have one : (1 : UInt64).toNat = 1 := rfl
  simp only [add?, Option.bind_eq_bind, Option.bind_eq_some_iff, Number.add?_eq_some_iff, one,
    UInt64.toNat_ofNat_of_lt' short]
  constructor
  · rintro ⟨count, counted, bytes, summed, ⟨⟩⟩
    exact ⟨counted, summed⟩
  · rintro ⟨counted, summed⟩
    exact ⟨_, counted, _, summed, rfl⟩

theorem eq_of_toNat {t t' : Tally} (count : t.count.toNat = t'.count.toNat)
    (bytes : t.bytes.toNat = t'.bytes.toNat) : t = t' := by
  obtain ⟨c, b⟩ := t
  obtain ⟨c', b'⟩ := t'
  rw [Tally.mk.injEq]
  exact ⟨UInt64.toNat_inj.mp count, UInt64.toNat_inj.mp bytes⟩

end Tally

namespace Tallies

variable {t t' : Tallies} {i : Instruction} {is : List Instruction}

theorem slot_inj {a b : Action} (same : slot a = slot b) : a = b := by
  cases a <;> cases b <;> first | rfl | cases same

theorem exists_slot : ∀ k : Fin 4, ∃ action, slot action = k
  | 0 => ⟨.sourceRead, rfl⟩
  | 1 => ⟨.targetRead, rfl⟩
  | 2 => ⟨.sourceCopy, rfl⟩
  | 3 => ⟨.targetCopy, rfl⟩

theorem get_set (t : Tallies) (action other : Action) (tally : Tally) :
    (Tallies.mk (t.slots.set (slot action) tally)).get other =
      if action = other then tally else t.get other := by
  have same : (slot action).val = (slot other).val ↔ action = other :=
    ⟨fun same => slot_inj (Fin.ext same), congrArg fun action => (slot action).val⟩
  exact (Vector.getElem_set (slot action).isLt (slot other).isLt).trans (if_congr same rfl rfl)

theorem eq_of_get (same : ∀ action, t.get action = t'.get action) : t = t' := by
  obtain ⟨slots⟩ := t
  obtain ⟨slots'⟩ := t'
  refine congrArg mk (Vector.ext fun k small => ?_)
  obtain ⟨action, slot⟩ := exists_slot ⟨k, small⟩
  have here := same action
  rwa [get, get, slot] at here

/-- Any tallies can be put together. -/
theorem exists_get (tally : Action → Tally) :
    ∃ t : Tallies, ∀ action, t.get action = tally action := by
  refine ⟨⟨#v[tally .sourceRead, tally .targetRead, tally .sourceCopy, tally .targetCopy]⟩, ?_⟩
  intro action
  cases action <;> rfl

/-- From one state of the tallies to another these instructions are counted. -/
def Counts (t : Tallies) (is : List Instruction) (t' : Tallies) : Prop :=
  ∀ action, (t'.get action).count.toNat = (t.get action).count.toNat + occurrences is action ∧
    (t'.get action).bytes.toNat = (t.get action).bytes.toNat + produced is action

theorem counts_nil_iff : t.Counts [] t' ↔ t = t' := by
  constructor
  · intro counts
    refine eq_of_get fun action => ?_
    obtain ⟨count, bytes⟩ := counts action
    exact Tally.eq_of_toNat count.symm bytes.symm
  · rintro rfl action
    exact ⟨rfl, rfl⟩

/-- What the end can hold, the states on the way to it can. -/
theorem counts_cons_iff : t.Counts (i :: is) t' ↔ ∃ u, t.Counts [i] u ∧ Counts u is t' := by
  constructor
  · intro counts
    -- The state behind the first instruction is given by its exact sums. They are words, since sums
    -- only grow and those at the end are.
    obtain ⟨u, next⟩ := exists_get fun action =>
      ⟨.ofNat ((t.get action).count.toNat + occurrences [i] action),
        .ofNat ((t.get action).bytes.toNat + produced [i] action)⟩
    have first : t.Counts [i] u := by
      intro action
      obtain ⟨count, bytes⟩ := counts action
      rw [occurrences_cons] at count
      rw [produced_cons] at bytes
      have countFits : (t'.get action).count.toNat < UInt64.size := UInt64.toNat_lt _
      have bytesFit : (t'.get action).bytes.toNat < UInt64.size := UInt64.toNat_lt _
      rw [next]
      exact ⟨UInt64.toNat_ofNat_of_lt' (by omega), UInt64.toNat_ofNat_of_lt' (by omega)⟩
    refine ⟨u, first, fun action => ?_⟩
    obtain ⟨count, bytes⟩ := counts action
    rw [(first action).1, (first action).2, Nat.add_assoc, Nat.add_assoc, ← occurrences_cons,
      ← produced_cons]
    exact ⟨count, bytes⟩
  · rintro ⟨u, first, others⟩ action
    obtain ⟨count, bytes⟩ := others action
    rw [occurrences_cons, produced_cons, ← Nat.add_assoc, ← Nat.add_assoc, ← (first action).1,
      ← (first action).2]
    exact ⟨count, bytes⟩

/-- A step counts its instruction, and nothing keeps it from that but a sum that does not fit. -/
theorem add?_eq_some_iff (short : i.length < 2 ^ 64) :
    t.add? i = some t' ↔ t.Counts [i] t' := by
  have step : t.add? i = some t' ↔ ∃ tally, (t.get i.action).add? i.length = some tally ∧
      Tallies.mk (t.slots.set (slot i.action) tally) = t' := by
    simp [add?, Option.bind_eq_some_iff]
  simp only [step, Tally.add?_eq_some_iff short, Counts, occurrences_singleton, produced_singleton]
  constructor
  · rintro ⟨tally, ⟨count, bytes⟩, rfl⟩ action
    rw [get_set]
    split
    next same => exact same ▸ ⟨count, bytes⟩
    next => exact ⟨rfl, rfl⟩
  · intro counts
    have here := counts i.action
    rw [if_pos rfl, if_pos rfl] at here
    refine ⟨t'.get i.action, here, eq_of_get fun action => ?_⟩
    rw [get_set]
    split
    next same => rw [same]
    next other =>
      obtain ⟨count, bytes⟩ := counts action
      rw [if_neg other] at count bytes
      exact Tally.eq_of_toNat count.symm bytes.symm

theorem foldlM_add?_eq_some_iff (short : ∀ i ∈ is, i.length < 2 ^ 64) :
    is.foldlM add? t = some t' ↔ t.Counts is t' := by
  induction is generalizing t with
  | nil =>
    rw [counts_nil_iff]
    exact Option.some_inj
  | cons i is ih =>
    obtain ⟨first, others⟩ := List.forall_mem_cons.mp short
    rw [List.foldlM_cons, Option.bind_eq_bind, Option.bind_eq_some_iff, counts_cons_iff]
    simp only [add?_eq_some_iff first, ih others]

/-- Tallies that are given are exact, and exact ones that are words are given. -/
theorem of?_eq_some_iff (short : ∀ i ∈ is, i.length < 2 ^ 64) :
    of? is = some t ↔ ∀ action, (t.get action).count.toNat = occurrences is action ∧
      (t.get action).bytes.toNat = produced is action := by
  have blank (action : Action) : ({} : Tallies).get action = {} := by cases action <;> rfl
  have zero : (0 : UInt64).toNat = 0 := rfl
  rw [of?, foldlM_add?_eq_some_iff short]
  simp only [Counts, blank, zero, Nat.zero_add]

theorem total?_eq_some_iff {total : UInt64} :
    t.total? = some total ↔
      total.toNat = (Action.all.map fun action => (t.get action).bytes.toNat).sum := by
  have words : t.total? = (Action.all.map fun action => (t.get action).bytes).foldlM
      Number.add? 0 := (List.foldlM_map ..).symm
  have zero : (0 : UInt64).toNat = 0 := rfl
  rw [words, Number.foldlM_add?_eq_some_iff, zero, Nat.zero_add, List.map_map]
  rfl

end Tallies

/-! ## Reports -/

/-- The tallies and the total are those of the instructions. -/
structure Tells (is : List Instruction) (tallies : Tallies) (total : UInt64) : Prop where
  count : ∀ action, (tallies.get action).count.toNat = occurrences is action
  bytes : ∀ action, (tallies.get action).bytes.toNat = produced is action
  actions : total.toNat = (Action.all.map fun action => (tallies.get action).bytes.toNat).sum
  total : total.toNat = (is.map Instruction.length).sum

section Instructions

variable {is : List Instruction} {tallies : Tallies} {total : UInt64}

theorem tells_iff (encodable : ∀ i ∈ is, i.Encodable) :
    Tells is tallies total ↔ Tallies.of? is = some tallies ∧ tallies.total? = some total := by
  have short (i : Instruction) (mem : i ∈ is) : i.length < 2 ^ 64 := by
    have := (encodable i mem).short
    omega
  rw [Tallies.of?_eq_some_iff short, Tallies.total?_eq_some_iff]
  constructor
  · intro tells
    exact ⟨fun action => ⟨tells.count action, tells.bytes action⟩, tells.actions⟩
  · rintro ⟨exact, actions⟩
    refine ⟨fun action => (exact action).1, fun action => (exact action).2, actions, ?_⟩
    have bytes : (fun action => (tallies.get action).bytes.toNat) = produced is :=
      funext fun action => (exact action).2
    rw [actions, bytes, sum_produced]

/-- The counts of actions need no bound of their own, and neither do their bytes. -/
theorem exists_tells_iff (encodable : ∀ i ∈ is, i.Encodable) :
    (∃ tallies total, Tells is tallies total) ↔ (is.map Instruction.length).sum < 2 ^ 64 := by
  constructor
  · rintro ⟨tallies, total, tells⟩
    exact tells.total ▸ total.toNat_lt
  · intro fits
    obtain ⟨tallies, same⟩ := Tallies.exists_get fun action =>
      ⟨.ofNat (occurrences is action), .ofNat (produced is action)⟩
    have bytesFit (action : Action) : produced is action < 2 ^ 64 :=
      Nat.lt_of_le_of_lt (produced_le is action) fits
    have countFits (action : Action) : occurrences is action < 2 ^ 64 :=
      Nat.lt_of_le_of_lt
        (occurrences_le_produced (fun i mem => (encodable i mem).nonempty) action) (bytesFit action)
    have bytes (action : Action) : (tallies.get action).bytes.toNat = produced is action := by
      rw [same]
      exact UInt64.toNat_ofNat_of_lt' (bytesFit action)
    have exact := UInt64.toNat_ofNat_of_lt' fits
    refine ⟨tallies, .ofNat (is.map Instruction.length).sum, fun action => ?_, bytes, ?_, exact⟩
    · rw [same]
      exact UInt64.toNat_ofNat_of_lt' (countFits action)
    · rw [exact, funext bytes, sum_produced]

end Instructions

section Plans

variable {s : Stream} (sound : s.fault = none) (encodable : ∀ i ∈ s.instructions, i.Encodable)

include sound encodable

theorem instructionPlan_of_fits (fits : (s.instructions.map Instruction.length).sum < 2 ^ 64) :
    ∃ tallies total, Tells s.instructions tallies total ∧
      instructionPlan s = { stdout := instructionReport tallies total } := by
  obtain ⟨tallies, total, tells⟩ := (exists_tells_iff encodable).mpr fits
  obtain ⟨counted, summed⟩ := (tells_iff encodable).mp tells
  refine ⟨tallies, total, tells, ?_⟩
  simp only [instructionPlan, counted, sound, summed]

theorem instructionPlan_of_large (large : 2 ^ 64 ≤ (s.instructions.map Instruction.length).sum) :
    instructionPlan s = Plan.exhaust .total := by
  -- Either a sum of one action is too large already, or only their total is. The plan is the same.
  unfold instructionPlan
  cases counted : Tallies.of? s.instructions with
  | none => rfl
  | some tallies =>
    simp only [sound]
    cases summed : tallies.total? with
    | none => rfl
    | some total =>
      have tells := (exists_tells_iff encodable).mp
        ⟨tallies, total, (tells_iff encodable).mpr ⟨counted, summed⟩⟩
      exact absurd tells (Nat.not_lt_of_le large)

end Plans

/-- What is told of the instructions of a patch is exact: how many there are of each action, what
these produce, and what all produce. It is told if all of it can be counted in 64 bits. Otherwise
the command breaks off behind the report on the patch. Exit code 101 is that of a build which checks
its sums for overflow, as the one modelled here does; a release build does not, and goes on with
sums that have wrapped around. -/
theorem run_info_totals {build : Build} {environment : Option LogFilter} {words : List String}
    {folder : Folder} {i : Invocation} {a : InfoArguments} {bytes : Bytes} {p : Patch}
    (parsed : Invocation.parse words = .ok i) (command : i.command = .info a)
    (asked : a.instructions = true) (read : folder.read a.patch = .ok bytes)
    (valid : Patch.parse bytes = .ok p) (sound : p.stream.fault = none) :
    ((p.stream.instructions.map Instruction.length).sum < 2 ^ 64 →
      ∃ tallies total, Tells p.stream.instructions tallies total ∧
        (run build environment words folder).stdout = patchReport build.family a.patch p ++
          instructionReport tallies total ∧
        (run build environment words folder).exitCode = 0) ∧
    (2 ^ 64 ≤ (p.stream.instructions.map Instruction.length).sum →
      (run build environment words folder).stdout = patchReport build.family a.patch p ∧
        (run build environment words folder).exitCode = 101) := by
  have other (a : ApplyArguments) : i.command ≠ .apply a := by
    rw [command]
    exact nofun
  have planned : i.plan build folder.read = Plan.after (patchReport build.family a.patch p)
      [parsedRecord p] (instructionPlan p.stream) := by
    rw [Invocation.plan, command]
    simp only [infoPlan, Plan.withFile_of_ok read, valid, asked, if_true]
  have encodable (i : Instruction) (mem : i ∈ p.stream.instructions) : i.Encodable :=
    Stream.Walk.encodable_of_mem_collect mem
  rw [run_of_idle folder build environment parsed other, planned]
  constructor
  · intro fits
    obtain ⟨tallies, total, tells, plan⟩ := instructionPlan_of_fits sound encodable fits
    rw [plan]
    exact ⟨tallies, total, tells, rfl, rfl⟩
  · intro large
    rw [instructionPlan_of_large sound encodable large]
    exact ⟨String.append_empty, rfl⟩

/-- A patch that reads `2 ^ 62` bytes of the dump four times, although it declares a target of ten
bytes. -/
def endlessPatch : Bytes :=
  signature ++ [0x8A, 0x8A, 0x80] ++
    (List.replicate 4 ([0x7C] ++ List.replicate 8 0x7E ++ [0x80])).flatten ++
    [0xC6, 0xC7, 0x84, 0xA6, 0, 0, 0, 0, 0x2F, 0x87, 0xEA, 0x32]

theorem parse_endlessPatch : Patch.parse endlessPatch =
    .ok ⟨endlessPatch, 10, 10, [], ⟨0xA684C7C6, 0, 0x32EA872F⟩, ⟨7, endlessPatch.drop 7⟩⟩ := by
  decide +kernel

/-- A folder with the patch. -/
def endlessFolder : Folder := .ofFiles (.ofString "/roms") [(.ofString "a.bps", endlessPatch)]

/-- The one literal of a patch is counted. A patch with more bytes than can be counted is reported
on, but not its instructions. -/
theorem run_info_totals_hack :
    (∃ tallies total, Tells [.targetRead [0x62]] tallies total ∧
      (run bareBuild none ["info", "hack.bps", "--instructions"] hackFolder).stdout =
        patchReport bareBuild.family (.ofString "hack.bps")
            ⟨hackPatch, 1, 1, [], ⟨0xE8B7BE43, 0x71BEEFF9, 0x677B94F0⟩, ⟨7, hackPatch.drop 7⟩⟩ ++
          instructionReport tallies total ∧
      (run bareBuild none ["info", "hack.bps", "--instructions"] hackFolder).exitCode = 0) ∧
    (run bareBuild none ["info", "a.bps", "--instructions"] endlessFolder).exitCode = 101 := by
  have small : Invocation.parse ["info", "hack.bps", "--instructions"] =
      .ok { command := .info { patch := .ofString "hack.bps", instructions := true } } := by
    decide +kernel
  have large : Invocation.parse ["info", "a.bps", "--instructions"] =
      .ok { command := .info { patch := .ofString "a.bps", instructions := true } } := by
    decide +kernel
  have smallRead : hackFolder.read (.ofString "hack.bps") = .ok hackPatch := by decide +kernel
  have largeRead : endlessFolder.read (.ofString "a.bps") = .ok endlessPatch := by decide +kernel
  constructor
  · have one (p : Patch) (parsed : Patch.parse hackPatch = .ok p) :
        p.stream.instructions = [.targetRead [0x62]] ∧ p.stream.fault = none := by
      cases parse_hackPatch.symm.trans parsed
      decide +kernel
    obtain ⟨literal, sound⟩ := one _ parse_hackPatch
    have totals := (@run_info_totals bareBuild none _ _ _ _ _ _ small rfl rfl smallRead
      parse_hackPatch sound).1
    rw [literal] at totals
    exact totals (by decide)
  · have totals := @run_info_totals bareBuild none _ _ _ _ _ _ large rfl rfl largeRead
      parse_endlessPatch (by decide +kernel)
    exact (totals.2 (by decide +kernel)).2

/-- No word is the total of a patch that describes `2 ^ 64` bytes. All of it is read, but the
command breaks off. -/
theorem not_run_info_totals :
    (run bareBuild none ["info", "a.bps", "--instructions"] endlessFolder).exitCode = 101 ∧
    ∃ p, Patch.parse endlessPatch = .ok p ∧ p.stream.fault = none ∧
      ¬ ∃ tallies total, Tells p.stream.instructions tallies total ∧
        (run bareBuild none ["info", "a.bps", "--instructions"] endlessFolder).stdout =
          patchReport bareBuild.family (.ofString "a.bps") p ++
            instructionReport tallies total := by
  refine ⟨by decide +kernel, _, parse_endlessPatch, by decide +kernel, ?_⟩
  rintro ⟨tallies, total, tells, -⟩
  have exact : total.toNat = 2 ^ 64 := tells.total.trans (by decide +kernel)
  exact absurd total.toNat_lt (exact ▸ Nat.lt_irrefl _)

end CommandLine

end BeatPatch
