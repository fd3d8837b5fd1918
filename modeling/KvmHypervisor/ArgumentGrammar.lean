import Mathlib.Data.List.Nodup
import Mathlib.Data.List.Perm.Basic
import Mathlib.Data.List.TakeWhile
import KvmHypervisor.CommandLine

/-!
# The Grammar of the Command Line

Which command lines `parseArguments` accepts. A command line is a list of option groups, each
an option with its values, in any order and with each kind of option at most once. The grammar
is stated on its own and knows no parser state: `OptionGroup.Words` says how a group is written,
`Spells` that the arguments are these groups and nothing else.

One iteration of the loop reads one group (`parseOption_ok_iff`), so the loop reads the longest
list of groups there is, and what stops it decides how it ends.

## Main results

* `parseArguments_grammar`: the three statuses by the grammar, and the configuration.
-/

namespace KvmHypervisor

/-! ### Option groups -/

/-- An option with its values. -/
inductive OptionGroup where
  | memory (size : ℕ)
  | page (size : ℕ)
  | guest (images : List String)
  | file (paths : List String)
deriving DecidableEq

/-- The kinds of options. -/
inductive OptionKind where
  | memory
  | page
  | guest
  | file
deriving DecidableEq

/-- The option of a group. -/
def OptionGroup.kind : OptionGroup → OptionKind
  | .memory _ => .memory
  | .page _ => .page
  | .guest _ => .guest
  | .file _ => .file

/-- The two spellings of an option. -/
def OptionKind.names : OptionKind → List String
  | .memory => ["-m", "--memory"]
  | .page => ["-p", "--page"]
  | .guest => ["-g", "--guest"]
  | .file => ["-f", "--file"]

/-- The values of a list: at least one, and none that starts with a dash. -/
def AreValues (values : List String) : Prop :=
  values ≠ [] ∧ ∀ value ∈ values, startsWithDash value = false

/-- How a group is written. -/
inductive OptionGroup.Words : OptionGroup → List String → Prop
  | memory {name value : String} {size : ℕ} : name ∈ OptionKind.memory.names →
      (value, size) ∈ [("2", 2 * miB), ("4", 4 * miB), ("8", 8 * miB)] →
      Words (.memory size) [name, value]
  | page {name value : String} {size : ℕ} : name ∈ OptionKind.page.names →
      (value, size) ∈ [("4", 4 * kiB), ("2", 2 * miB)] → Words (.page size) [name, value]
  | guest {name : String} {images : List String} : name ∈ OptionKind.guest.names →
      AreValues images → Words (.guest images) (name :: images)
  | file {name : String} {paths : List String} : name ∈ OptionKind.file.names →
      AreValues paths → Words (.file paths) (name :: paths)

/-- The arguments are these groups, one after the other. -/
inductive Spells : List OptionGroup → List String → Prop
  | nil : Spells [] []
  | cons {g : OptionGroup} {gs : List OptionGroup} {words args : List String} :
      g.Words words → Spells gs args → Spells (g :: gs) (words ++ args)

/-- No option occurs twice. -/
def Distinct (gs : List OptionGroup) : Prop :=
  (gs.map OptionGroup.kind).Nodup

/-- No option occurs twice, and no required one is missing. -/
structure Complete (gs : List OptionGroup) : Prop where
  distinct : Distinct gs
  memory : ∃ size, .memory size ∈ gs
  page : ∃ size, .page size ∈ gs
  guest : ∃ images, .guest images ∈ gs

/-- A configuration holds exactly the values of the groups. -/
structure Config.Holds (config : Config) (gs : List OptionGroup) : Prop where
  memory : .memory config.memorySize ∈ gs
  page : .page config.pageSize ∈ gs
  guest : .guest config.guestImages ∈ gs
  file : .file config.sharedFiles ∈ gs ∨
    (config.sharedFiles = [] ∧ ∀ paths, .file paths ∉ gs)

/-- The arguments ask for help where an option may stand, after distinct groups. -/
def AsksForHelp (args : List String) : Prop :=
  ∃ gs before help rest, args = before ++ help :: rest ∧ (help = "-h" ∨ help = "--help") ∧
    Spells gs before ∧ Distinct gs

/-- Groups of one kind are the same group. -/
theorem Distinct.eq_of_kind {gs : List OptionGroup} (h : Distinct gs) {g g' : OptionGroup}
    (hg : g ∈ gs) (hg' : g' ∈ gs) (hkind : g.kind = g'.kind) : g = g' :=
  List.inj_on_of_nodup_map h hg hg' hkind

/-- **The order of the groups does not matter**: they determine the configuration. -/
theorem Config.Holds.unique {config config' : Config} {gs gs' : List OptionGroup}
    (h : config.Holds gs) (h' : config'.Holds gs') (hperm : gs'.Perm gs) (hgs : Distinct gs) :
    config' = config := by
  have hmemory := hgs.eq_of_kind (hperm.mem_iff.mp h'.memory) h.memory rfl
  have hpage := hgs.eq_of_kind (hperm.mem_iff.mp h'.page) h.page rfl
  have hguest := hgs.eq_of_kind (hperm.mem_iff.mp h'.guest) h.guest rfl
  have hfile : config'.sharedFiles = config.sharedFiles := by
    obtain hf | ⟨hf, hno⟩ := h.file
    · obtain hf' | ⟨-, hno'⟩ := h'.file
      · exact OptionGroup.file.inj (hgs.eq_of_kind (hperm.mem_iff.mp hf') hf rfl)
      · exact absurd (hperm.mem_iff.mpr hf) (hno' _)
    · obtain hf' | ⟨hf', -⟩ := h'.file
      · exact absurd (hperm.mem_iff.mp hf') (hno _)
      · rw [hf, hf']
  cases config
  cases config'
  cases hmemory
  cases hpage
  cases hguest
  cases hfile
  rfl

/-- The first word of a group is its option. -/
theorem OptionGroup.Words.exists_name {g : OptionGroup} {words : List String} (h : g.Words words) :
    ∃ name values, words = name :: values ∧ name ∈ g.kind.names := by
  cases h with
  | memory hname | page hname | guest hname | file hname => exact ⟨_, _, rfl, hname⟩

/-- An option starts with a dash. -/
theorem startsWithDash_of_mem_names {kind : OptionKind} {name : String} (h : name ∈ kind.names) :
    startsWithDash name = true := by
  have hall : ∀ kind : OptionKind, ∀ name ∈ kind.names, startsWithDash name = true := by
    intro kind
    cases kind <;> decide
  exact hall kind name h

/-! ### One iteration -/

/-- A list of values ends at the next dash or at the end. -/
def StopsList (rest : List String) : Prop :=
  ∀ next ∈ rest.head?, startsWithDash next = true

/-- Where the values of a list end. -/
theorem takeWhile_values_iff {args values rest : List String} :
    (args.takeWhile (fun value => !startsWithDash value) = values ∧
        args.dropWhile (fun value => !startsWithDash value) = rest) ↔
      args = values ++ rest ∧ (∀ value ∈ values, startsWithDash value = false) ∧
        StopsList rest := by
  constructor
  · rintro ⟨rfl, rfl⟩
    refine ⟨List.takeWhile_append_dropWhile.symm, fun value hvalue => ?_, fun next hnext => ?_⟩
    · simpa using List.mem_takeWhile_imp hvalue
    · have hstop := List.head?_dropWhile_not (fun value => !startsWithDash value) args
      rw [Option.mem_def] at hnext
      rw [hnext] at hstop
      simpa using hstop
  · rintro ⟨rfl, hvalues, hstops⟩
    have hall : ∀ value ∈ values, (!startsWithDash value) = true := fun value hvalue => by
      rw [hvalues value hvalue, Bool.not_false]
    rw [List.takeWhile_append_of_pos hall, List.dropWhile_append_of_pos hall]
    cases rest with
    | nil => exact ⟨List.append_nil values, rfl⟩
    | cons next rest =>
        have hdash : (!startsWithDash next) = false := by rw [hstops next rfl, Bool.not_true]
        rw [List.takeWhile_cons, List.dropWhile_cons, hdash]
        exact ⟨List.append_nil values, rfl⟩

theorem parseMemoryValue_eq_some {value : String} {size : ℕ} :
    parseMemoryValue value = some size ↔
      (value, size) ∈ [("2", 2 * miB), ("4", 4 * miB), ("8", 8 * miB)] := by
  unfold parseMemoryValue
  simp only [List.mem_cons, Prod.mk.injEq, List.not_mem_nil, or_false]
  split_ifs <;> grind

theorem parsePageValue_eq_some {value : String} {size : ℕ} :
    parsePageValue value = some size ↔ (value, size) ∈ [("4", 4 * kiB), ("2", 2 * miB)] := by
  unfold parsePageValue
  simp only [List.mem_cons, Prod.mk.injEq, List.not_mem_nil, or_false]
  split_ifs <;> grind

/-- The iteration of an option with one value. -/
theorem ScalarOption.parse_ok_iff {option : ScalarOption} {program : String} {s s' : ParseState}
    {rest rest' : List String} : option.parse program s rest = .ok (s', rest') ↔
      option.isSet s = false ∧ ∃ value size, rest = value :: rest' ∧
        option.parseValue value = some size ∧ s' = option.store s size := by
  constructor
  · intro h
    refine ⟨?_, ScalarOption.parse_ok h⟩
    by_contra hset
    rw [Bool.not_eq_false] at hset
    unfold ScalarOption.parse at h
    rw [if_pos hset] at h
    cases h
  · rintro ⟨hset, value, size, rfl, hsize, rfl⟩
    unfold ScalarOption.parse
    rw [if_neg (by rw [hset]; exact Bool.false_ne_true)]
    simp only [hsize]

/-- The iteration of an option with a list of values. -/
theorem ListOption.parse_ok_iff {option : ListOption} {program : String} {s s' : ParseState}
    {rest rest' : List String} : option.parse program s rest = .ok (s', rest') ↔
      option.isSet s = false ∧ ∃ values, AreValues values ∧ rest = values ++ rest' ∧
        StopsList rest' ∧ s' = option.store s values := by
  constructor
  · intro h
    unfold ListOption.parse at h
    split_ifs at h with hset
    dsimp only at h
    split_ifs at h with hempty
    obtain ⟨hs, hrest⟩ := Prod.mk.inj (Except.ok.inj h)
    obtain ⟨heq, hvalues, hstops⟩ := takeWhile_values_iff.mp ⟨rfl, hrest⟩
    refine ⟨by simpa using hset, _, ⟨?_, hvalues⟩, heq, hstops, hs.symm⟩
    rwa [List.isEmpty_iff] at hempty
  · rintro ⟨hset, values, ⟨hne, hvalues⟩, rfl, hstops, rfl⟩
    obtain ⟨htake, hdrop⟩ := takeWhile_values_iff.mpr ⟨rfl, hvalues, hstops⟩
    unfold ListOption.parse
    rw [if_neg (by rw [hset]; exact Bool.false_ne_true), htake, hdrop]
    dsimp only
    rw [if_neg (by rwa [List.isEmpty_iff])]

/-- An option has been seen. -/
def ParseState.isSet (s : ParseState) : OptionKind → Bool
  | .memory => s.memorySet
  | .page => s.pageSet
  | .guest => s.guestSet
  | .file => s.fileSet

/-- The values of a group are stored. -/
def ParseState.add (s : ParseState) : OptionGroup → ParseState
  | .memory size => memoryOption.store s size
  | .page size => pageOption.store s size
  | .guest images => guestOption.store s images
  | .file paths => fileOption.store s paths

/-- What is left after a group: after a list, nothing that it could take. -/
def OptionGroup.Stops : OptionGroup → List String → Prop
  | .memory _, _ | .page _, _ => True
  | .guest _, rest | .file _, rest => StopsList rest

/-- After a group an option has been seen if it was before, or is the group's. -/
theorem ParseState.isSet_add (s : ParseState) (g : OptionGroup) (kind : OptionKind) :
    (s.add g).isSet kind = (s.isSet kind || decide (g.kind = kind)) := by
  cases g <;> cases kind <;> simp [ParseState.add, ParseState.isSet, OptionGroup.kind,
    memoryOption, pageOption, guestOption, fileOption]

/-- **One iteration reads one group** of an option that has not been seen. -/
theorem parseOption_ok_iff {program argument : String} {s s' : ParseState}
    {rest rest' : List String} : parseOption program s argument rest = .ok (s', rest') ↔
      ∃ g words, OptionGroup.Words g words ∧ argument :: rest = words ++ rest' ∧
        s.isSet g.kind = false ∧ g.Stops rest' ∧ s' = s.add g := by
  constructor
  · intro h
    unfold parseOption at h
    split_ifs at h with hhelp hmemory hpage hguest hfile
    · obtain ⟨hset, value, size, rfl, hsize, rfl⟩ := ScalarOption.parse_ok_iff.mp h
      exact ⟨.memory size, [argument, value],
        .memory (by simpa [OptionKind.names] using hmemory) (parseMemoryValue_eq_some.mp hsize),
        rfl, hset, trivial, rfl⟩
    · obtain ⟨hset, value, size, rfl, hsize, rfl⟩ := ScalarOption.parse_ok_iff.mp h
      exact ⟨.page size, [argument, value],
        .page (by simpa [OptionKind.names] using hpage) (parsePageValue_eq_some.mp hsize),
        rfl, hset, trivial, rfl⟩
    · obtain ⟨hset, values, hvalues, rfl, hstops, rfl⟩ := ListOption.parse_ok_iff.mp h
      exact ⟨.guest values, argument :: values,
        .guest (by simpa [OptionKind.names] using hguest) hvalues, rfl, hset, hstops, rfl⟩
    · obtain ⟨hset, values, hvalues, rfl, hstops, rfl⟩ := ListOption.parse_ok_iff.mp h
      exact ⟨.file values, argument :: values,
        .file (by simpa [OptionKind.names] using hfile) hvalues, rfl, hset, hstops, rfl⟩
  · rintro ⟨g, words, hwords, heq, hset, hstops, rfl⟩
    cases hwords with
    | @memory name value size hname hvalue =>
        obtain ⟨rfl, rfl⟩ := List.cons.inj heq
        have hparse : memoryOption.parse program s (value :: rest') =
            .ok (s.add (.memory size), rest') :=
          ScalarOption.parse_ok_iff.mpr
            ⟨hset, value, size, rfl, parseMemoryValue_eq_some.mpr hvalue, rfl⟩
        simp only [OptionKind.names, List.mem_cons, List.not_mem_nil, or_false] at hname
        rcases hname with rfl | rfl <;> exact hparse
    | @page name value size hname hvalue =>
        obtain ⟨rfl, rfl⟩ := List.cons.inj heq
        have hparse : pageOption.parse program s (value :: rest') =
            .ok (s.add (.page size), rest') :=
          ScalarOption.parse_ok_iff.mpr
            ⟨hset, value, size, rfl, parsePageValue_eq_some.mpr hvalue, rfl⟩
        simp only [OptionKind.names, List.mem_cons, List.not_mem_nil, or_false] at hname
        rcases hname with rfl | rfl <;> exact hparse
    | @guest name images hname hvalues =>
        obtain ⟨rfl, rfl⟩ := List.cons.inj heq
        have hparse : guestOption.parse program s (images ++ rest') =
            .ok (s.add (.guest images), rest') :=
          ListOption.parse_ok_iff.mpr ⟨hset, images, hvalues, rfl, hstops, rfl⟩
        simp only [OptionKind.names, List.mem_cons, List.not_mem_nil, or_false] at hname
        rcases hname with rfl | rfl <;> exact hparse
    | @file name paths hname hvalues =>
        obtain ⟨rfl, rfl⟩ := List.cons.inj heq
        have hparse : fileOption.parse program s (paths ++ rest') =
            .ok (s.add (.file paths), rest') :=
          ListOption.parse_ok_iff.mpr ⟨hset, paths, hvalues, rfl, hstops, rfl⟩
        simp only [OptionKind.names, List.mem_cons, List.not_mem_nil, or_false] at hname
        rcases hname with rfl | rfl <;> exact hparse

/-! ### The loop -/

/-- The values of all groups are stored, in order. -/
def ParseState.addAll (s : ParseState) (gs : List OptionGroup) : ParseState :=
  gs.foldl ParseState.add s

/-- Groups whose options have not been seen, and are distinct. -/
def ParseState.Fresh (s : ParseState) (gs : List OptionGroup) : Prop :=
  Distinct gs ∧ ∀ g ∈ gs, s.isSet g.kind = false

/-- The first of fresh groups, and the others after it. -/
theorem ParseState.fresh_cons {s : ParseState} {g : OptionGroup} {gs : List OptionGroup} :
    s.Fresh (g :: gs) ↔ s.isSet g.kind = false ∧ (s.add g).Fresh gs := by
  simp only [Fresh, Distinct, List.map_cons, List.nodup_cons, List.mem_cons, forall_eq_or_imp,
    isSet_add, Bool.or_eq_false_iff, decide_eq_false_iff_not, List.mem_map, not_exists, not_and]
  constructor
  · rintro ⟨⟨hne, hnodup⟩, hset, hall⟩
    exact ⟨hset, hnodup, fun g' hg' => ⟨hall g' hg', fun heq => hne g' hg' heq.symm⟩⟩
  · rintro ⟨hset, hnodup, hall⟩
    exact ⟨⟨fun g' hg' heq => (hall g' hg').2 heq.symm, hnodup⟩, hset, fun g' hg' =>
      (hall g' hg').1⟩

/-- Groups are followed by nothing, or by a dash. -/
theorem Spells.stopsList {gs : List OptionGroup} {args rest : List String} (h : Spells gs args)
    (hrest : StopsList rest) : StopsList (args ++ rest) := by
  cases h with
  | nil => exact hrest
  | cons hwords _ =>
      obtain ⟨name, values, rfl, hname⟩ := hwords.exists_name
      intro next hnext
      obtain rfl : name = next := Option.some.inj hnext
      exact startsWithDash_of_mem_names hname

/-- A list that stops stops any group. -/
theorem StopsList.stops {rest : List String} (h : StopsList rest) (g : OptionGroup) :
    g.Stops rest := by
  cases g with
  | memory | page => trivial
  | guest | file => exact h

/-- **The loop reads fresh groups**, in order. Induction on the groups. -/
theorem parseLoop_append (program : String) {gs : List OptionGroup} {args : List String}
    (h : Spells gs args) {s : ParseState} (hs : s.Fresh gs) {rest : List String}
    (hrest : StopsList rest) {fuel : ℕ} (hfuel : (args ++ rest).length ≤ fuel) :
    ∃ fuel', rest.length ≤ fuel' ∧
      parseLoop program fuel s (args ++ rest) = parseLoop program fuel' (s.addAll gs) rest := by
  induction h generalizing s fuel with
  | nil => exact ⟨fuel, hfuel, rfl⟩
  | @cons g gs words args hwords hspells ih =>
      obtain ⟨hset, hs'⟩ := ParseState.fresh_cons.mp hs
      obtain ⟨name, values, rfl, hname⟩ := hwords.exists_name
      rw [List.append_assoc, List.cons_append, List.length_cons] at hfuel
      obtain ⟨fuel, rfl⟩ : ∃ fuel', fuel = fuel' + 1 := ⟨fuel - 1, by omega⟩
      have hiter : parseOption program s name (values ++ (args ++ rest)) =
          .ok (s.add g, args ++ rest) :=
        parseOption_ok_iff.mpr ⟨g, name :: values, hwords, rfl, hset,
          (hspells.stopsList hrest).stops g, rfl⟩
      have hfuel' : (args ++ rest).length ≤ fuel := by
        rw [List.length_append] at hfuel
        omega
      obtain ⟨fuel', hle, heq⟩ := ih hs' hfuel'
      refine ⟨fuel', hle, ?_⟩
      rw [List.append_assoc, List.cons_append, parseLoop, hiter]
      exact heq

/-- **What the loop has read when it ends**: fresh groups, and then nothing, or an argument that
ends the parse. Induction on the iterations. -/
theorem parseLoop_cases (program : String) {fuel : ℕ} {s : ParseState} {args : List String}
    (hfuel : args.length ≤ fuel) :
    ∃ gs before rest, args = before ++ rest ∧ Spells gs before ∧ s.Fresh gs ∧
      ((rest = [] ∧ parseLoop program fuel s args = finishParse program (s.addAll gs)) ∨
        ∃ argument rest', rest = argument :: rest' ∧
          parseOption program (s.addAll gs) argument rest' =
            .error (parseLoop program fuel s args)) := by
  have hfresh : ∀ s : ParseState, s.Fresh [] := fun s => ⟨List.nodup_nil, nofun⟩
  induction fuel generalizing s args with
  | zero =>
      obtain rfl := List.eq_nil_of_length_eq_zero (Nat.le_zero.mp hfuel)
      exact ⟨[], [], [], rfl, .nil, hfresh s, .inl ⟨rfl, rfl⟩⟩
  | succ fuel ih =>
      cases args with
      | nil => exact ⟨[], [], [], rfl, .nil, hfresh s, .inl ⟨rfl, rfl⟩⟩
      | cons argument rest =>
          rw [parseLoop]
          cases hiter : parseOption program s argument rest with
          | error result => exact ⟨[], [], _, rfl, .nil, hfresh s, .inr ⟨_, _, rfl, hiter⟩⟩
          | ok next =>
              obtain ⟨s', rest'⟩ := next
              obtain ⟨g, words, hwords, heq, hset, -, rfl⟩ := parseOption_ok_iff.mp hiter
              obtain ⟨name, values, rfl, -⟩ := hwords.exists_name
              have hlength := congrArg List.length heq
              simp only [List.length_cons, List.length_append] at hlength hfuel
              have hfuel' : rest'.length ≤ fuel := by omega
              obtain ⟨gs, before, last, rfl, hspells, hs', hends⟩ := ih (s := s.add g) hfuel'
              refine ⟨g :: gs, (name :: values) ++ before, last, ?_, .cons hwords hspells,
                ParseState.fresh_cons.mpr ⟨hset, hs'⟩, hends⟩
              rw [heq, List.append_assoc]

/-! ### The configuration -/

/-- The state after groups: what has been seen, and the values. -/
structure ParseState.Reflects (s : ParseState) (gs : List OptionGroup) : Prop where
  isSet : ∀ kind, s.isSet kind = true ↔ ∃ g ∈ gs, g.kind = kind
  memory : s.memorySet = true → .memory s.config.memorySize ∈ gs
  page : s.pageSet = true → .page s.config.pageSize ∈ gs
  guest : s.guestSet = true → .guest s.config.guestImages ∈ gs
  file : s.fileSet = true → .file s.config.sharedFiles ∈ gs
  noFile : s.fileSet = false → s.config.sharedFiles = []

/-- One group more. -/
theorem ParseState.Reflects.add {s : ParseState} {gs : List OptionGroup} (h : s.Reflects gs)
    (g : OptionGroup) : (s.add g).Reflects (gs ++ [g]) where
  isSet kind := by
    rw [isSet_add, Bool.or_eq_true, h.isSet, decide_eq_true_eq]
    simp only [List.mem_append, List.mem_singleton, or_and_right, exists_or, exists_eq_left]
  memory hset := by
    cases g with
    | memory => exact List.mem_append_right _ List.mem_cons_self
    | page | guest | file => exact List.mem_append_left _ (h.memory hset)
  page hset := by
    cases g with
    | page => exact List.mem_append_right _ List.mem_cons_self
    | memory | guest | file => exact List.mem_append_left _ (h.page hset)
  guest hset := by
    cases g with
    | guest => exact List.mem_append_right _ List.mem_cons_self
    | memory | page | file => exact List.mem_append_left _ (h.guest hset)
  file hset := by
    cases g with
    | file => exact List.mem_append_right _ List.mem_cons_self
    | memory | page | guest => exact List.mem_append_left _ (h.file hset)
  noFile hset := by
    cases g with
    | file => cases hset
    | memory | page | guest => exact h.noFile hset

/-- All groups. Induction on the groups, with those already stored. -/
theorem ParseState.Reflects.addAll {s : ParseState} {done : List OptionGroup} (h : s.Reflects done)
    (gs : List OptionGroup) : (s.addAll gs).Reflects (done ++ gs) := by
  induction gs generalizing s done with
  | nil => rwa [List.append_nil]
  | cons g gs ih =>
      have hrest := ih (h.add g)
      rwa [List.append_assoc, List.singleton_append] at hrest

/-- The state after the groups of a command line. -/
theorem reflects_addAll (gs : List OptionGroup) : (ParseState.initial.addAll gs).Reflects gs := by
  have hinitial : ParseState.initial.Reflects [] :=
    ⟨fun kind => by cases kind <;> simp [ParseState.initial, ParseState.isSet], nofun, nofun,
      nofun, nofun, fun _ => rfl⟩
  exact hinitial.addAll gs

/-- Distinct groups can be read from the start. -/
theorem fresh_initial {gs : List OptionGroup} : ParseState.initial.Fresh gs ↔ Distinct gs := by
  refine ⟨fun h => h.1, fun h => ⟨h, fun g _ => ?_⟩⟩
  cases g.kind <;> rfl

/-- What a state reflects, its configuration holds. -/
theorem ParseState.Reflects.holds {s : ParseState} {gs : List OptionGroup} (h : s.Reflects gs)
    (hmemory : s.memorySet = true) (hpage : s.pageSet = true) (hguest : s.guestSet = true) :
    s.config.Holds gs where
  memory := h.memory hmemory
  page := h.page hpage
  guest := h.guest hguest
  file := by
    cases hfile : s.fileSet with
    | true => exact .inl (h.file hfile)
    | false =>
        refine .inr ⟨h.noFile hfile, fun paths hmem => ?_⟩
        rw [show s.fileSet = true from (h.isSet .file).mpr ⟨_, hmem, rfl⟩] at hfile
        cases hfile

/-- The end of the parse does not ask for help. -/
theorem finishParse_cases (program : String) (s : ParseState) :
    ((finishParse program s).status = .ok ∧ s.memorySet = true ∧ s.pageSet = true ∧
        s.guestSet = true) ∨
      ((finishParse program s).status = .error ∧
        ¬(s.memorySet = true ∧ s.pageSet = true ∧ s.guestSet = true)) := by
  unfold finishParse
  split_ifs with hmemory hpage hguest
  · exact .inl ⟨rfl, hmemory, hpage, hguest⟩
  · exact .inr ⟨rfl, fun h => hguest h.2.2⟩
  · exact .inr ⟨rfl, fun h => hpage h.2.1⟩
  · exact .inr ⟨rfl, fun h => hmemory h.1⟩

/-! ### Main result -/

/-- Complete groups are accepted, with their values. -/
theorem parseArguments_ok (program : String) {gs : List OptionGroup} {args : List String}
    (h : Spells gs args) (hgs : Complete gs) :
    (parseArguments program args).status = .ok ∧ (parseArguments program args).config.Holds gs := by
  have hstops : StopsList [] := nofun
  obtain ⟨fuel, -, heq⟩ := parseLoop_append program h
    (fresh_initial.mpr hgs.distinct) hstops (Nat.le_refl _)
  rw [List.append_nil] at heq
  have hreflects := reflects_addAll gs
  obtain ⟨size, hmemory⟩ := hgs.memory
  obtain ⟨size', hpage⟩ := hgs.page
  obtain ⟨images, hguest⟩ := hgs.guest
  have hmemorySet := (hreflects.isSet .memory).mpr ⟨_, hmemory, rfl⟩
  have hpageSet := (hreflects.isSet .page).mpr ⟨_, hpage, rfl⟩
  have hguestSet := (hreflects.isSet .guest).mpr ⟨_, hguest, rfl⟩
  have hresult : parseArguments program args =
      finishParse program (ParseState.initial.addAll gs) := by
    rw [parseArguments, heq]
    cases fuel <;> rfl
  rw [hresult]
  obtain ⟨hok, -⟩ | ⟨-, hmissing⟩ := finishParse_cases program (ParseState.initial.addAll gs)
  · obtain ⟨hm, hp, hg, hconfig⟩ := finishParse_ok hok
    rw [hconfig]
    exact ⟨hok, hreflects.holds hm hp hg⟩
  · exact absurd ⟨hmemorySet, hpageSet, hguestSet⟩ hmissing

/-- Arguments that ask for help get it. -/
theorem parseArguments_help {program : String} {args : List String} (h : AsksForHelp args) :
    (parseArguments program args).status = .help := by
  obtain ⟨gs, before, help, rest, rfl, hhelp, hspells, hdistinct⟩ := h
  have hstops : StopsList (help :: rest) := by
    intro next hnext
    obtain rfl : help = next := Option.some.inj hnext
    rcases hhelp with rfl | rfl <;> decide
  obtain ⟨fuel, hfuel, heq⟩ := parseLoop_append program hspells
    (fresh_initial.mpr hdistinct) hstops (Nat.le_refl _)
  obtain ⟨fuel, rfl⟩ : ∃ fuel', fuel = fuel' + 1 := ⟨fuel - 1, by
    rw [List.length_cons] at hfuel
    omega⟩
  rw [parseArguments, heq, parseLoop, parseOption, if_pos hhelp]

/-- **The statuses.** A command line is complete groups and accepted, asks for help and gets it,
or is neither and an error. -/
theorem parseArguments_cases (program : String) (args : List String) :
    ((parseArguments program args).status = .ok ∧ ∃ gs, Spells gs args ∧ Complete gs) ∨
      ((parseArguments program args).status = .help ∧ AsksForHelp args) ∨
      ((parseArguments program args).status = .error ∧ (¬∃ gs, Spells gs args ∧ Complete gs) ∧
        ¬AsksForHelp args) := by
  have herror : (parseArguments program args).status = .error →
      (¬∃ gs, Spells gs args ∧ Complete gs) ∧ ¬AsksForHelp args := by
    intro hstatus
    constructor
    · rintro ⟨gs, hspells, hgs⟩
      rw [(parseArguments_ok program hspells hgs).1] at hstatus
      cases hstatus
    · intro hhelp
      rw [parseArguments_help hhelp] at hstatus
      cases hstatus
  obtain ⟨gs, before, rest, rfl, hspells, hfresh, ⟨rfl, heq⟩ | ⟨argument, rest', rfl, hiter⟩⟩ :=
    parseLoop_cases program (s := .initial) (Nat.le_refl args.length)
  · rw [← parseArguments] at heq
    have hreflects := reflects_addAll gs
    obtain ⟨hok, hm, hp, hg⟩ | ⟨hstatus, -⟩ :=
      finishParse_cases program (ParseState.initial.addAll gs)
    · have hholds := hreflects.holds hm hp hg
      refine .inl ⟨by rw [heq, hok], gs, by rwa [List.append_nil], fresh_initial.mp hfresh,
        ⟨_, hholds.memory⟩, ⟨_, hholds.page⟩, ⟨_, hholds.guest⟩⟩
    · rw [← heq] at hstatus
      exact .inr (.inr ⟨hstatus, herror hstatus⟩)
  · rw [← parseArguments] at hiter
    obtain ⟨hhelp, hstatus⟩ | ⟨-, hstatus⟩ := parseOption_error hiter
    · exact .inr (.inl ⟨hstatus, gs, before, argument, rest', rfl, hhelp, hspells,
        fresh_initial.mp hfresh⟩)
    · exact .inr (.inr ⟨hstatus, herror hstatus⟩)

/-- **The command line is accepted exactly by its grammar.** `parseArguments` returns `Ok` for
complete groups and nothing else, `Help` where help is asked for, and `Error` in all other
cases. The configuration of an accepted command line holds the values of its groups, and is the
same for any order and spelling of them. -/
theorem parseArguments_grammar (program : String) (args : List String) :
    ((parseArguments program args).status = .ok ↔ ∃ gs, Spells gs args ∧ Complete gs) ∧
      ((parseArguments program args).status = .help ↔ AsksForHelp args) ∧
      ((parseArguments program args).status = .error ↔
        (¬∃ gs, Spells gs args ∧ Complete gs) ∧ ¬AsksForHelp args) ∧
      ∀ gs, Spells gs args → Complete gs →
        (parseArguments program args).config.Holds gs ∧
        ∀ program' gs' args', gs'.Perm gs → Spells gs' args' →
          (parseArguments program' args').status = .ok ∧
          (parseArguments program' args').config = (parseArguments program args).config := by
  have hcases := parseArguments_cases program args
  refine ⟨⟨fun h => ?_, fun ⟨gs, hspells, hgs⟩ => (parseArguments_ok program hspells hgs).1⟩,
    ⟨fun h => ?_, parseArguments_help⟩, ⟨fun h => ?_, fun ⟨hno, hno'⟩ => ?_⟩,
    fun gs hspells hgs => ?_⟩
  · rw [h] at hcases
    simpa using hcases
  · rw [h] at hcases
    simpa using hcases
  · rw [h] at hcases
    simpa using hcases
  · obtain ⟨-, hok⟩ | ⟨-, hhelp⟩ | ⟨herror, -⟩ := hcases
    · exact absurd hok hno
    · exact absurd hhelp hno'
    · exact herror
  · obtain ⟨-, hholds⟩ := parseArguments_ok program hspells hgs
    refine ⟨hholds, fun program' gs' args' hperm hspells' => ?_⟩
    have hgs' : Complete gs' := by
      refine ⟨(hperm.map _).nodup_iff.mpr hgs.distinct, ?_, ?_, ?_⟩
      · obtain ⟨size, hmem⟩ := hgs.memory
        exact ⟨size, hperm.mem_iff.mpr hmem⟩
      · obtain ⟨size, hmem⟩ := hgs.page
        exact ⟨size, hperm.mem_iff.mpr hmem⟩
      · obtain ⟨images, hmem⟩ := hgs.guest
        exact ⟨images, hperm.mem_iff.mpr hmem⟩
    obtain ⟨hok', hholds'⟩ := parseArguments_ok program' hspells' hgs'
    exact ⟨hok', hholds.unique hholds' hperm hgs.distinct⟩

end KvmHypervisor
