import Mathlib.Data.Nat.Notation
import Mathlib.Logic.Basic
import Mathlib.Tactic.SplitIfs

/-!
# The Command Line

`parseArguments` of `cli.cpp`. The loop over `argv` is a recursion over the arguments that
are left; one iteration consumes one option with its values, or ends the parse. The two
options with one value (`-m`, `-p`) and the two with a list (`-g`, `-f`) are each one
definition with the texts and the field of the option as parameters. What the parser prints
goes to one of two streams and is part of its result.

The number of arguments bounds the number of iterations, so the recursion is on that
number.

## Main results

* `parseArguments_sizes`: an accepted command line sets one of the three memory sizes and
  one of the two page sizes.
-/

namespace KvmHypervisor

/-- `Config`. -/
structure Config where
  memorySize : ℕ
  pageSize : ℕ
  guestImages : List String
  sharedFiles : List String
deriving DecidableEq

/-- `CliStatus`. -/
inductive CliStatus where
  | ok
  | help
  | error
deriving DecidableEq

/-- `CliResult`, and what has been printed on the way. -/
structure CliResult where
  status : CliStatus
  config : Config
  out : String
  err : String
deriving DecidableEq

/-- `MiB`. -/
def miB : ℕ := 1024 * 1024

/-- `KiB`. -/
def kiB : ℕ := 1024

/-- `PAGE_SIZE_4K`. -/
def pageSize4K : ℕ := 4 * 1024

/-- `PAGE_SIZE_2M`. -/
def pageSize2M : ℕ := 2 * 1024 * 1024

/-! ### Messages -/

/-- `printGeneralUsage`. -/
def generalUsage (program : String) : String :=
  "Usage:\n" ++
  "  " ++ program ++
  " -m <2|4|8> -p <4|2> -g <guest-image> [guest-image ...] [-f <shared-file> ...]\n\n" ++
  "Options:\n" ++
  "  -m, --memory <2|4|8>    Guest memory size in MiB\n" ++
  "  -p, --page <4|2>        Guest page size: 4 KiB or 2 MiB\n" ++
  "  -g, --guest <images...>  Guest image paths\n" ++
  "  -f, --file <files...>    Shared file paths\n" ++
  "  -h, --help              Show this help\n"

/-- `printMemoryError`. -/
def memoryError (program message : String) : String :=
  "Error: " ++ message ++ "\n\n" ++
  "Memory option usage:\n" ++
  "  -m <2|4|8>\n" ++
  "  --memory <2|4|8>\n\n" ++
  "Example:\n" ++
  "  " ++ program ++ " -m 4 -p 2 -g guest.img\n"

/-- `printPageError`. -/
def pageError (program message : String) : String :=
  "Error: " ++ message ++ "\n\n" ++
  "Page option usage:\n" ++
  "  -p <4|2>\n" ++
  "  --page <4|2>\n\n" ++
  "Values:\n" ++
  "  4    Use 4 KiB pages\n" ++
  "  2    Use 2 MiB pages\n\n" ++
  "Example:\n" ++
  "  " ++ program ++ " -m 4 -p 2 -g guest.img\n"

/-- `printGuestError`. -/
def guestError (program message : String) : String :=
  "Error: " ++ message ++ "\n\n" ++
  "Guest option usage:\n" ++
  "  -g <guest-image> [guest-image ...]\n" ++
  "  --guest <guest-image> [guest-image ...]\n\n" ++
  "Example:\n" ++
  "  " ++ program ++ " -m 4 -p 2 -g guest1.img guest2.img\n"

/-- `printFileError`. -/
def fileError (program message : String) : String :=
  "Error: " ++ message ++ "\n\n" ++
  "File option usage:\n" ++
  "  -f <shared-file> [shared-file ...]\n" ++
  "  --file <shared-file> [shared-file ...]\n\n" ++
  "Example:\n" ++
  "  " ++ program ++ " -m 4 -p 2 -g guest1.img guest2.img -f a.txt b.txt\n"

/-! ### Values -/

/-- `parseMemoryValue`. -/
def parseMemoryValue (value : String) : Option ℕ :=
  if value = "2" then some (2 * miB)
  else if value = "4" then some (4 * miB)
  else if value = "8" then some (8 * miB)
  else none

/-- `parsePageValue`. -/
def parsePageValue (value : String) : Option ℕ :=
  if value = "4" then some (4 * kiB)
  else if value = "2" then some (2 * miB)
  else none

/-- `!value.empty() && value.front() == '-'`. -/
def startsWithDash (value : String) : Bool :=
  value.toList.head? == some '-'

/-! ### Options -/

/-- The local variables of `parseArguments`. -/
structure ParseState where
  config : Config
  memorySet : Bool
  pageSet : Bool
  guestSet : Bool
  fileSet : Bool
deriving DecidableEq

/-- Nothing has been parsed. -/
def ParseState.initial : ParseState where
  config := { memorySize := 0, pageSize := 0, guestImages := [], sharedFiles := [] }
  memorySet := false
  pageSet := false
  guestSet := false
  fileSet := false

/-- One iteration ends the parse, or goes on with what is left. -/
abbrev Iteration := Except CliResult (ParseState × List String)

/-- Printing an error and returning. -/
def ParseState.failed (s : ParseState) (err : String) : CliResult where
  status := .error
  config := s.config
  out := ""
  err := err

/-- An option with one value. -/
structure ScalarOption where
  printError : String → String → String
  moreThanOnce : String
  requiresValue : String
  invalidValue : String
  parseValue : String → Option ℕ
  isSet : ParseState → Bool
  store : ParseState → ℕ → ParseState

/-- The iteration for an option with one value. -/
def ScalarOption.parse (option : ScalarOption) (program : String) (s : ParseState)
    (rest : List String) : Iteration :=
  if option.isSet s then .error (s.failed (option.printError program option.moreThanOnce))
  else
    match rest with
    | [] => .error (s.failed (option.printError program option.requiresValue))
    | value :: rest =>
      match option.parseValue value with
      | none => .error (s.failed (option.printError program option.invalidValue))
      | some size => .ok (option.store s size, rest)

/-- `-m`, `--memory`. -/
def memoryOption : ScalarOption where
  printError := memoryError
  moreThanOnce := "memory option was specified more than once"
  requiresValue := "memory option requires a value"
  invalidValue := "memory size must be 2, 4 or 8 MiB"
  parseValue := parseMemoryValue
  isSet := ParseState.memorySet
  store s size := { s with config := { s.config with memorySize := size }, memorySet := true }

/-- `-p`, `--page`. -/
def pageOption : ScalarOption where
  printError := pageError
  moreThanOnce := "page option was specified more than once"
  requiresValue := "page option requires a value"
  invalidValue := "page size must be 4 KiB or 2 MiB"
  parseValue := parsePageValue
  isSet := ParseState.pageSet
  store s size := { s with config := { s.config with pageSize := size }, pageSet := true }

/-- An option with a list of values. -/
structure ListOption where
  printError : String → String → String
  moreThanOnce : String
  requiresOne : String
  isSet : ParseState → Bool
  store : ParseState → List String → ParseState

/-- The iteration for an option with a list of values: all arguments up to the next one that
starts with a dash. -/
def ListOption.parse (option : ListOption) (program : String) (s : ParseState)
    (rest : List String) : Iteration :=
  if option.isSet s then .error (s.failed (option.printError program option.moreThanOnce))
  else
    let values := rest.takeWhile fun value => !startsWithDash value
    let s := option.store s values
    if values.isEmpty then .error (s.failed (option.printError program option.requiresOne))
    else .ok (s, rest.dropWhile fun value => !startsWithDash value)

/-- `-g`, `--guest`. -/
def guestOption : ListOption where
  printError := guestError
  moreThanOnce := "guest option was specified more than once"
  requiresOne := "guest option requires at least one image"
  isSet := ParseState.guestSet
  store s values := { s with config := { s.config with guestImages := values }, guestSet := true }

/-- `-f`, `--file`. -/
def fileOption : ListOption where
  printError := fileError
  moreThanOnce := "file option was specified more than once"
  requiresOne := "file option requires at least one path"
  isSet := ParseState.fileSet
  store s values := { s with config := { s.config with sharedFiles := values }, fileSet := true }

/-! ### The parser -/

/-- One iteration of the loop of `parseArguments`, for the argument `argument`. -/
def parseOption (program : String) (s : ParseState) (argument : String) (rest : List String) :
    Iteration :=
  if argument = "-h" ∨ argument = "--help" then
    .error { status := .help, config := s.config, out := generalUsage program, err := "" }
  else if argument = "-m" ∨ argument = "--memory" then memoryOption.parse program s rest
  else if argument = "-p" ∨ argument = "--page" then pageOption.parse program s rest
  else if argument = "-g" ∨ argument = "--guest" then guestOption.parse program s rest
  else if argument = "-f" ∨ argument = "--file" then fileOption.parse program s rest
  else if startsWithDash argument then
    .error (s.failed ("Error: unknown option '" ++ argument ++ "'\n\n" ++ generalUsage program))
  else
    .error
      (s.failed ("Error: unexpected argument '" ++ argument ++ "'\n\n" ++ generalUsage program))

/-- What `parseArguments` checks after the loop. -/
def finishParse (program : String) (s : ParseState) : CliResult :=
  if ¬s.memorySet then s.failed (memoryError program "memory option is required")
  else if ¬s.pageSet then s.failed (pageError program "page option is required")
  else if ¬s.guestSet then s.failed (guestError program "guest option is required")
  else { status := .ok, config := s.config, out := "", err := "" }

/-- The loop of `parseArguments`, for at most `fuel` more iterations. Every iteration consumes
an argument, so with as much fuel as there are arguments it never runs out. -/
def parseLoop (program : String) (fuel : ℕ) (s : ParseState) (args : List String) : CliResult :=
  match fuel, args with
  | _, [] => finishParse program s
  | 0, _ :: _ => s.failed ""
  | fuel + 1, argument :: rest =>
    match parseOption program s argument rest with
    | .error result => result
    | .ok (s, rest) => parseLoop program fuel s rest

/-- `parseArguments`, for the program name and the arguments after it. -/
def parseArguments (program : String) (args : List String) : CliResult :=
  parseLoop program args.length .initial args

/-! ### Accepted sizes -/

/-- One of the sizes `parseMemoryValue` yields. -/
def AdmittedMemorySize (size : ℕ) : Prop :=
  size = 2 * miB ∨ size = 4 * miB ∨ size = 8 * miB

/-- One of the sizes `parsePageValue` yields. -/
def AdmittedPageSize (size : ℕ) : Prop :=
  size = pageSize4K ∨ size = pageSize2M

/-- A size that has been set is an admitted one. -/
structure SizesOk (s : ParseState) : Prop where
  memory : s.memorySet = true → AdmittedMemorySize s.config.memorySize
  page : s.pageSet = true → AdmittedPageSize s.config.pageSize

theorem admitted_of_parseMemoryValue {value : String} {size : ℕ}
    (h : parseMemoryValue value = some size) : AdmittedMemorySize size := by
  unfold parseMemoryValue at h
  split_ifs at h <;> cases h
  · exact .inl rfl
  · exact .inr (.inl rfl)
  · exact .inr (.inr rfl)

theorem admitted_of_parsePageValue {value : String} {size : ℕ}
    (h : parsePageValue value = some size) : AdmittedPageSize size := by
  unfold parsePageValue at h
  split_ifs at h <;> cases h
  · exact .inl rfl
  · exact .inr rfl

/-- An option with one value that goes on has stored a value it could parse. -/
theorem ScalarOption.parse_ok {option : ScalarOption} {program : String} {s s' : ParseState}
    {rest rest' : List String} (h : option.parse program s rest = .ok (s', rest')) :
    ∃ value size, rest = value :: rest' ∧ option.parseValue value = some size ∧
      s' = option.store s size := by
  unfold ScalarOption.parse at h
  split_ifs at h
  cases rest with
  | nil => cases h
  | cons value rest =>
      cases hsize : option.parseValue value with
      | none => simp [hsize] at h
      | some size =>
          simp only [hsize, Except.ok.injEq, Prod.mk.injEq] at h
          obtain ⟨rfl, rfl⟩ := h
          exact ⟨value, size, rfl, hsize, rfl⟩

/-- An option with a list that goes on has stored the arguments up to the next dash. -/
theorem ListOption.parse_ok {option : ListOption} {program : String} {s s' : ParseState}
    {rest rest' : List String} (h : option.parse program s rest = .ok (s', rest')) :
    s' = option.store s (rest.takeWhile fun value => !startsWithDash value) := by
  unfold ListOption.parse at h
  split_ifs at h
  dsimp only at h
  split_ifs at h
  cases h
  rfl

/-- **Every iteration keeps the sizes admitted.** -/
theorem SizesOk.parseOption {program argument : String} {s s' : ParseState}
    {rest rest' : List String} (hI : SizesOk s)
    (h : parseOption program s argument rest = .ok (s', rest')) : SizesOk s' := by
  unfold KvmHypervisor.parseOption at h
  split_ifs at h
  · obtain ⟨value, size, -, hsize, rfl⟩ := ScalarOption.parse_ok h
    exact ⟨fun _ => admitted_of_parseMemoryValue hsize, hI.page⟩
  · obtain ⟨value, size, -, hsize, rfl⟩ := ScalarOption.parse_ok h
    exact ⟨hI.memory, fun _ => admitted_of_parsePageValue hsize⟩
  · obtain rfl := ListOption.parse_ok h
    exact ⟨hI.memory, hI.page⟩
  · obtain rfl := ListOption.parse_ok h
    exact ⟨hI.memory, hI.page⟩

/-- An accepted end of the parse has all three required options. -/
theorem finishParse_ok {program : String} {s : ParseState}
    (h : (finishParse program s).status = .ok) :
    s.memorySet = true ∧ s.pageSet = true ∧ s.guestSet = true ∧
      (finishParse program s).config = s.config := by
  unfold finishParse at h ⊢
  split_ifs at h ⊢ with hmemory hpage hguest
  · exact ⟨hmemory, hpage, hguest, rfl⟩
  all_goals cases h

/-- An option with one value ends the parse only with an error. -/
theorem ScalarOption.parse_error {option : ScalarOption} {program : String} {s : ParseState}
    {rest : List String} {result : CliResult} (h : option.parse program s rest = .error result) :
    result.status = .error := by
  unfold ScalarOption.parse at h
  split_ifs at h
  · cases h
    rfl
  · cases rest with
    | nil =>
        cases h
        rfl
    | cons value rest =>
        cases hsize : option.parseValue value <;> simp only [hsize, reduceCtorEq] at h
        cases h
        rfl

/-- An option with a list ends the parse only with an error. -/
theorem ListOption.parse_error {option : ListOption} {program : String} {s : ParseState}
    {rest : List String} {result : CliResult} (h : option.parse program s rest = .error result) :
    result.status = .error := by
  unfold ListOption.parse at h
  split_ifs at h
  · cases h
    rfl
  · dsimp only at h
    split_ifs at h
    cases h
    rfl

/-- An iteration that ends the parse asks for help, or is an error. -/
theorem parseOption_error {program argument : String} {s : ParseState} {rest : List String}
    {result : CliResult} (h : parseOption program s argument rest = .error result) :
    ((argument = "-h" ∨ argument = "--help") ∧ result.status = .help) ∨
      (¬(argument = "-h" ∨ argument = "--help") ∧ result.status = .error) := by
  unfold parseOption at h
  split_ifs at h with hhelp
  · cases h
    exact .inl ⟨hhelp, rfl⟩
  · exact .inr ⟨hhelp, ScalarOption.parse_error h⟩
  · exact .inr ⟨hhelp, ScalarOption.parse_error h⟩
  · exact .inr ⟨hhelp, ListOption.parse_error h⟩
  · exact .inr ⟨hhelp, ListOption.parse_error h⟩
  · cases h
    exact .inr ⟨hhelp, rfl⟩
  · cases h
    exact .inr ⟨hhelp, rfl⟩

/-- Along the loop the sizes stay admitted. Induction on the arguments left. -/
theorem SizesOk.parseLoop {program : String} {fuel : ℕ} {s : ParseState} {args : List String}
    (hI : SizesOk s) (h : (parseLoop program fuel s args).status = .ok) :
    AdmittedMemorySize (parseLoop program fuel s args).config.memorySize ∧
      AdmittedPageSize (parseLoop program fuel s args).config.pageSize := by
  induction fuel generalizing s args with
  | zero =>
      cases args with
      | nil =>
          obtain ⟨hmemory, hpage, -, hconfig⟩ := finishParse_ok h
          simp only [KvmHypervisor.parseLoop, hconfig]
          exact ⟨hI.memory hmemory, hI.page hpage⟩
      | cons => cases h
  | succ fuel ih =>
      cases args with
      | nil =>
          obtain ⟨hmemory, hpage, -, hconfig⟩ := finishParse_ok h
          simp only [KvmHypervisor.parseLoop, hconfig]
          exact ⟨hI.memory hmemory, hI.page hpage⟩
      | cons argument rest =>
          rw [KvmHypervisor.parseLoop] at h ⊢
          cases hiter : KvmHypervisor.parseOption program s argument rest with
          | error result =>
              simp only [hiter] at h
              obtain ⟨-, hstatus⟩ | ⟨-, hstatus⟩ := parseOption_error hiter
              · rw [hstatus] at h
                cases h
              · rw [hstatus] at h
                cases h
          | ok next =>
              obtain ⟨s', rest'⟩ := next
              simp only [hiter] at h ⊢
              exact ih (hI.parseOption hiter) h

/-- **An accepted command line sets admitted sizes.** -/
theorem parseArguments_sizes {program : String} {args : List String}
    (h : (parseArguments program args).status = .ok) :
    AdmittedMemorySize (parseArguments program args).config.memorySize ∧
      AdmittedPageSize (parseArguments program args).config.pageSize :=
  SizesOk.parseLoop ⟨fun h => Bool.noConfusion h, fun h => Bool.noConfusion h⟩ h

end KvmHypervisor
