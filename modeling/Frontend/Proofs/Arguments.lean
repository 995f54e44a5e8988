import Frontend.CommandLine.Options
import Frontend.Proofs.Paths

/-!
# Arguments in any order

Which arguments are accepted, and what they ask for, does not depend on their order.

* What is asked for.  `Fits` and `Describes` say on their own which arguments are accepted and what
  the options are then.
* One argument at a time.  A `Reading` goes over the arguments from the left and gives up at the
  first one that does not fit.  `Knows` is the invariant of what it has gathered, and what it gives
  up on is refused whatever follows (`Knows.refused`).
* The result is `options_in_any_order`.
-/

namespace Frontend.Options

/-! ## What is asked for -/

/-- One argument is a file, and every other one is a flag that is known. -/
structure Fits (args : List String) : Prop where
  oneFile : args.countP (fun arg => !arg.startsWith "--") = 1
  knownFlags : ∀ arg ∈ args, arg.startsWith "--" = true →
    arg = "--dump-ast" ∨ arg = "--emit-source" ∨ arg = "--verbose"

/-- The options name the file among the arguments, with its stem as the name of the module, and
have the flags that occur. -/
structure Describes (options : Options) (args : List String) : Prop where
  sourcePath : options.sourcePath ∈ args ∧ options.sourcePath.startsWith "--" = false
  moduleName : Path.FileStem options.sourcePath options.moduleName ∨
    (∀ stem, ¬ Path.FileStem options.sourcePath stem) ∧ options.moduleName = "main"
  dumpAst : options.dumpAst = true ↔ "--dump-ast" ∈ args
  emitSource : options.emitSource = true ↔ "--emit-source" ∈ args
  verbose : options.verbose = true ↔ "--verbose" ∈ args

/-- The arguments that are files. -/
def files (args : List String) : List String :=
  args.filter fun arg => !isFlag arg

/-- All flags among the arguments are known. -/
def FlagsKnown (args : List String) : Prop :=
  ∀ arg ∈ args, isFlag arg = true → arg ∈ flags

/-- The options for a file and the flags among the arguments. -/
def withFile (path : String) (args : List String) : Options where
  sourcePath := path
  moduleName := Path.moduleName path
  dumpAst := args.contains "--dump-ast"
  emitSource := args.contains "--emit-source"
  verbose := args.contains "--verbose"

theorem isFlag_eq (arg : String) : isFlag arg = arg.startsWith "--" := by
  rw [Bool.eq_iff_iff, String.startsWith_string_iff, isFlag, List.isPrefixOf_iff_prefix]
  rfl

theorem isFlag_of_mem {flag : String} (hflag : flag ∈ flags) : isFlag flag = true := by
  have hall : ∀ flag ∈ flags, isFlag flag = true := by decide +kernel
  exact hall flag hflag

theorem files_append (args others : List String) :
    files (args ++ others) = files args ++ files others :=
  List.filter_append args others

theorem flagsKnown_append {args others : List String} :
    FlagsKnown (args ++ others) ↔ FlagsKnown args ∧ FlagsKnown others :=
  List.forall_mem_append

theorem contains_filter_isFlag {flag : String} (hflag : flag ∈ flags) (args : List String) :
    (args.filter isFlag).contains flag = args.contains flag := by
  simp [List.contains_eq_mem, List.mem_filter, isFlag_of_mem hflag]

theorem all_filter_isFlag_iff {args : List String} :
    (args.filter isFlag).all flags.contains = true ↔ FlagsKnown args := by
  simp only [FlagsKnown, List.all_eq_true, List.mem_filter, List.contains_iff_mem, and_imp]

/-- The arguments are accepted if there is one file and all flags are known. -/
theorem ofArgs?_eq_some_iff {args : List String} {options : Options} :
    ofArgs? args = some options ↔
      files args = [options.sourcePath] ∧ FlagsKnown args ∧
        withFile options.sourcePath args = options := by
  have hpartition : args.partition isFlag = (args.filter isFlag, files args) :=
    List.partition_eq_filter_filter
  rw [ofArgs?, hpartition]
  rcases files args with _ | ⟨path, _ | ⟨second, others⟩⟩
  · simp
  · simp only [all_filter_isFlag_iff, contains_filter_isFlag (show "--dump-ast" ∈ flags by decide),
      contains_filter_isFlag (show "--emit-source" ∈ flags by decide),
      contains_filter_isFlag (show "--verbose" ∈ flags by decide), Option.ite_none_right_eq_some,
      Option.some.injEq, List.cons.injEq, and_true]
    constructor
    · rintro ⟨hknown, rfl⟩
      exact ⟨rfl, hknown, rfl⟩
    · rintro ⟨rfl, hknown, hoptions⟩
      exact ⟨hknown, hoptions⟩
  · simp

theorem fits_iff {args : List String} :
    Fits args ↔ (∃ path, files args = [path]) ∧ FlagsKnown args := by
  have hfiles : args.countP (fun arg => !arg.startsWith "--") = 1 ↔
      ∃ path, files args = [path] := by
    rw [List.countP_eq_length_filter, List.length_eq_one_iff]
    simp only [files, isFlag_eq]
  have hflags : FlagsKnown args ↔ ∀ arg ∈ args, arg.startsWith "--" = true →
      arg = "--dump-ast" ∨ arg = "--emit-source" ∨ arg = "--verbose" := by
    simp only [FlagsKnown, isFlag_eq, flags, List.mem_cons, List.not_mem_nil, or_false]
  rw [← hfiles, hflags]
  constructor
  · intro hfits
    exact ⟨hfits.oneFile, hfits.knownFlags⟩
  · rintro ⟨hone, hknown⟩
    exact ⟨hone, hknown⟩

theorem describes_iff {options : Options} {args : List String} :
    options.Describes args ↔
      options.sourcePath ∈ files args ∧ withFile options.sourcePath args = options := by
  obtain ⟨path, name, dumpAst, emitSource, verbose⟩ := options
  have hfile : path ∈ files args ↔ path ∈ args ∧ path.startsWith "--" = false := by
    rw [files, List.mem_filter, isFlag_eq, Bool.not_eq_true']
  have hflag (flag : String) (given : Bool) :
      args.contains flag = given ↔ (given = true ↔ flag ∈ args) := by
    rw [Bool.eq_iff_iff, List.contains_iff_mem]
    exact iff_comm
  simp only [withFile, Options.mk.injEq, hfile, hflag, Path.moduleName_eq_iff, true_and]
  constructor
  · rintro ⟨hpath, hname, hdump, hemit, hverbose⟩
    exact ⟨hpath, hname, hdump, hemit, hverbose⟩
  · rintro ⟨hpath, hname, hdump, hemit, hverbose⟩
    exact ⟨hpath, hname, hdump, hemit, hverbose⟩

/-- The order of the arguments makes no difference to what is asked of them. -/
theorem ofArgs?_perm {args other : List String} (hperm : other.Perm args) :
    ofArgs? other = ofArgs? args := by
  have hfiles : (files other).Perm (files args) := hperm.filter _
  have hknown : FlagsKnown other ↔ FlagsKnown args := by
    simp only [FlagsKnown, hperm.mem_iff]
  have hsame (path : String) : withFile path other = withFile path args := by
    simp only [withFile, hperm.contains_eq]
  ext options
  rw [ofArgs?_eq_some_iff, ofArgs?_eq_some_iff, hknown, hsame]
  refine and_congr_left fun _ => ⟨fun hfile => ?_, fun hfile => ?_⟩
  · rw [hfile] at hfiles
    exact List.perm_singleton.1 hfiles.symm
  · rw [hfile] at hfiles
    exact List.perm_singleton.1 hfiles

/-! ## One argument at a time -/

/-- What is known after some of the arguments. -/
structure Reading where
  path? : Option String
  dumpAst : Bool
  emitSource : Bool
  verbose : Bool

namespace Reading

/-- Nothing has been read. -/
def start : Reading :=
  ⟨none, false, false, false⟩

/-- Reads one more argument; gives up at a flag that is unknown and at a second file. -/
def next (reading : Reading) (arg : String) : Option Reading :=
  if arg = "--dump-ast" then some { reading with dumpAst := true }
  else if arg = "--emit-source" then some { reading with emitSource := true }
  else if arg = "--verbose" then some { reading with verbose := true }
  else if arg.startsWith "--" || reading.path?.isSome then none
  else some { reading with path? := some arg }

/-- The options once all arguments are read; there has to be a file. -/
def options? (reading : Reading) : Option Options :=
  reading.path?.map fun path =>
    ⟨path, Path.moduleName path, reading.dumpAst, reading.emitSource, reading.verbose⟩

/-- The reading has gathered what these arguments say. -/
structure Knows (reading : Reading) (args : List String) : Prop where
  file : files args = reading.path?.toList
  known : FlagsKnown args
  dumpAst : reading.dumpAst = args.contains "--dump-ast"
  emitSource : reading.emitSource = args.contains "--emit-source"
  verbose : reading.verbose = args.contains "--verbose"

theorem knows_start : start.Knows [] :=
  ⟨rfl, fun _ hmem => absurd hmem List.not_mem_nil, rfl, rfl, rfl⟩

/-- The reading with one more flag. -/
def note (reading : Reading) (flag : String) : Reading where
  path? := reading.path?
  dumpAst := reading.dumpAst || "--dump-ast" == flag
  emitSource := reading.emitSource || "--emit-source" == flag
  verbose := reading.verbose || "--verbose" == flag

section Steps

variable {reading after : Reading} {args : List String} {arg : String}

theorem next_of_mem (hflag : arg ∈ flags) : reading.next arg = some (reading.note arg) := by
  simp only [flags, List.mem_cons, List.not_mem_nil, or_false] at hflag
  rcases hflag with rfl | rfl | rfl <;> simp [next, note]

theorem next_of_not_mem (hflag : arg ∉ flags) :
    reading.next arg = if isFlag arg || reading.path?.isSome then none
      else some { reading with path? := some arg } := by
  simp only [flags, List.mem_cons, List.not_mem_nil, or_false, not_or] at hflag
  rw [next, if_neg hflag.1, if_neg hflag.2.1, if_neg hflag.2.2, isFlag_eq]

theorem contains_append_singleton (flag : String) :
    (args ++ [arg]).contains flag = (args.contains flag || flag == arg) := by
  rw [List.contains_append, List.contains_cons, List.contains_nil, Bool.or_false]

theorem Knows.note (hknows : reading.Knows args) (hflag : arg ∈ flags) :
    (reading.note arg).Knows (args ++ [arg]) := by
  have hfiles : files [arg] = [] := by simp [files, isFlag_of_mem hflag]
  have hknown : FlagsKnown [arg] := by simp [FlagsKnown, hflag]
  refine ⟨?_, flagsKnown_append.2 ⟨hknows.known, hknown⟩, ?_, ?_, ?_⟩
  · rw [files_append, hfiles, List.append_nil]
    exact hknows.file
  · rw [contains_append_singleton, ← hknows.dumpAst, Reading.note]
  · rw [contains_append_singleton, ← hknows.emitSource, Reading.note]
  · rw [contains_append_singleton, ← hknows.verbose, Reading.note]

theorem Knows.file_append (hknows : reading.Knows args) (hfirst : reading.path? = none)
    (harg : isFlag arg = false) : { reading with path? := some arg }.Knows (args ++ [arg]) := by
  have hfiles : files [arg] = [arg] := by simp [files, harg]
  have hknown : FlagsKnown [arg] := by simp [FlagsKnown, harg]
  have hcontains {flag : String} (hflag : flag ∈ flags) :
      (args ++ [arg]).contains flag = args.contains flag := by
    have hne : (flag == arg) = false := by
      rw [beq_eq_false_iff_ne]
      rintro rfl
      rw [isFlag_of_mem hflag] at harg
      cases harg
    rw [contains_append_singleton, hne, Bool.or_false]
  refine ⟨?_, flagsKnown_append.2 ⟨hknows.known, hknown⟩, ?_, ?_, ?_⟩
  · rw [files_append, hknows.file, hfirst, hfiles]
    rfl
  · rw [hcontains (by decide)]
    exact hknows.dumpAst
  · rw [hcontains (by decide)]
    exact hknows.emitSource
  · rw [hcontains (by decide)]
    exact hknows.verbose

/-- One more argument keeps the invariant. -/
theorem Knows.next (hknows : reading.Knows args) (hnext : reading.next arg = some after) :
    after.Knows (args ++ [arg]) := by
  by_cases hflag : arg ∈ flags
  · rw [next_of_mem hflag, Option.some.injEq] at hnext
    rw [← hnext]
    exact hknows.note hflag
  · rw [next_of_not_mem hflag, Option.ite_none_left_eq_some, Option.some.injEq] at hnext
    obtain ⟨hfile, rfl⟩ := hnext
    rw [Bool.or_eq_true, not_or, Bool.not_eq_true, Option.not_isSome_iff_eq_none] at hfile
    exact hknows.file_append hfile.2 hfile.1

/-- What a reading gives up on is refused, whatever follows. -/
theorem Knows.refused (hknows : reading.Knows args) (hnext : reading.next arg = none)
    (rest : List String) : ofArgs? (args ++ arg :: rest) = none := by
  have hflag : arg ∉ flags := by
    intro hflag
    rw [next_of_mem hflag] at hnext
    cases hnext
  rw [next_of_not_mem hflag, ite_eq_left_iff] at hnext
  rw [Option.eq_none_iff_forall_ne_some]
  intro options hoptions
  obtain ⟨hfiles, hknown, -⟩ := ofArgs?_eq_some_iff.1 hoptions
  cases harg : isFlag arg with
  | true => exact hflag (hknown arg (by simp) harg)
  | false =>
    -- there was a file before, so this is the second one
    have hsome : reading.path?.isSome = true := by
      by_contra hnone
      exact Option.some_ne_none _ (hnext (by simp [harg, hnone]))
    obtain ⟨path, hpath⟩ := Option.isSome_iff_exists.1 hsome
    have hfile : files (arg :: rest) = arg :: files rest := by simp [files, harg]
    rw [files_append, hknows.file, hpath, hfile] at hfiles
    cases hfiles

/-- A reading that knows all arguments has the options that they ask for. -/
theorem Knows.ofArgs?_eq (hknows : reading.Knows args) : ofArgs? args = reading.options? := by
  cases hpath : reading.path? with
  | none =>
    rw [options?, hpath, Option.map_none, Option.eq_none_iff_forall_ne_some]
    intro options hoptions
    have hfiles := (ofArgs?_eq_some_iff.1 hoptions).1
    rw [hknows.file, hpath] at hfiles
    cases hfiles
  | some path =>
    rw [options?, hpath, Option.map_some, ofArgs?_eq_some_iff, hknows.file, hpath]
    refine ⟨rfl, hknows.known, ?_⟩
    rw [withFile, hknows.dumpAst, hknows.emitSource, hknows.verbose]

/-- Going on from what is known gives the options for all arguments.  The induction is on the
arguments that are left. -/
theorem Knows.ofArgs?_append (hknows : reading.Knows args) (rest : List String) :
    ofArgs? (args ++ rest) = (rest.foldlM Reading.next reading).bind options? := by
  induction rest generalizing reading args with
  | nil =>
    rw [List.append_nil]
    exact hknows.ofArgs?_eq
  | cons arg rest ih =>
    rw [List.foldlM_cons]
    cases hnext : reading.next arg with
    | none => exact hknows.refused hnext rest
    | some after =>
      have hrest := ih (hknows.next hnext)
      rwa [List.append_assoc, List.singleton_append] at hrest

end Steps

end Reading

/-! ## The result -/

theorem ofArgs?_eq_some_iff_describes {args : List String} {options : Options} :
    ofArgs? args = some options ↔ Fits args ∧ options.Describes args := by
  rw [ofArgs?_eq_some_iff, fits_iff, describes_iff]
  constructor
  · rintro ⟨hfiles, hknown, hoptions⟩
    exact ⟨⟨⟨_, hfiles⟩, hknown⟩, by simp [hfiles], hoptions⟩
  · rintro ⟨⟨⟨path, hfiles⟩, hknown⟩, hmem, hoptions⟩
    rw [hfiles, List.mem_singleton] at hmem
    exact ⟨hmem ▸ hfiles, hknown, hoptions⟩

/-- Arguments are accepted exactly if one of them is a file and the others are known flags, and the
options then describe them.  Reading them one at a time, up to the first that does not fit, gives
the same, and so does every order of them. -/
theorem options_in_any_order (args : List String) :
    ((ofArgs? args).isSome = true ↔ Fits args) ∧
    (∀ options, ofArgs? args = some options ↔ Fits args ∧ options.Describes args) ∧
    ofArgs? args = (args.foldlM Reading.next .start).bind Reading.options? ∧
    ∀ other, other.Perm args → ofArgs? other = ofArgs? args := by
  refine ⟨⟨fun hsome => ?_, fun hfits => ?_⟩, fun options => ofArgs?_eq_some_iff_describes,
    Reading.knows_start.ofArgs?_append args, fun other => ofArgs?_perm⟩
  · obtain ⟨options, hoptions⟩ := Option.isSome_iff_exists.1 hsome
    exact (ofArgs?_eq_some_iff_describes.1 hoptions).1
  · obtain ⟨⟨path, hfiles⟩, hknown⟩ := fits_iff.1 hfits
    exact Option.isSome_iff_exists.2
      ⟨withFile path args, ofArgs?_eq_some_iff.2 ⟨hfiles, hknown, rfl⟩⟩

/-- Flags on both sides of the file, one of them twice, and then in another order. -/
theorem options_of_scattered_flags :
    let args := ["--verbose", "lib/.old.tar.st/.", "--dump-ast", "--verbose"]
    let other := ["--dump-ast", "--verbose", "--verbose", "lib/.old.tar.st/."]
    other.Perm args ∧
      ofArgs? args = some ⟨"lib/.old.tar.st/.", ".old.tar", true, false, true⟩ ∧
      ofArgs? other = ofArgs? args := by
  intro args other
  have hperm : other.Perm args := by decide +kernel
  have hstem : Path.FileStem "lib/.old.tar.st/." ".old.tar" :=
    ⟨".old.tar.st", ⟨["lib"], ["."], by decide +kernel⟩, .inl ⟨"st", by decide +kernel⟩⟩
  have hfits : Fits args := ⟨by decide +kernel, by decide +kernel⟩
  obtain ⟨-, hsome, -, hany⟩ := options_in_any_order args
  refine ⟨hperm, (hsome _).2 ⟨hfits, ?_⟩, hany other hperm⟩
  exact ⟨by decide +kernel, .inl hstem, by decide +kernel, by decide +kernel, by decide +kernel⟩

end Frontend.Options
