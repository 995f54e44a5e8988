import Frontend.CommandLine.Folder
import Frontend.CommandLine.Options
import Frontend.Typing.Module
import Frontend.Tree.Dump
import Frontend.Tree.Source

/-!
# The command line

One run compiles one source file.  It prints the signatures that the file declares, or, if
asked to, the parsed module as a dump or as source text.
-/

namespace Frontend

/-- What a run leaves: its exit code and what it printed. -/
structure Transcript where
  exitCode : UInt8
  out : String
  err : String

namespace CommandLine

/-- The line that tells how the program is called. -/
def usage : String :=
  "usage: staplc <file> [--dump-ast] [--emit-source] [--verbose]"

/-- Texts with a line break after each. -/
def lines (texts : List String) : String :=
  String.join (texts.map (· ++ "\n"))

/-- The names that the module declares, each once, in the order of the first declarations. -/
def declaredNames (module : Module) : List String :=
  (module.decls.map Decl.name).eraseDups

/-- The signatures of the declared functions, grouped by name. -/
def signatures (compiled : Compiled) : List String :=
  (declaredNames compiled.module).flatMap fun name =>
    (compiled.annotator.overloads.named name).map fun signature => name ++ signature.display

/-- The texts that the options ask for, with what happened on the way. -/
def output (options : Options) (source : String) : List Event × Except Error (List String) :=
  if options.dumpAst || options.emitSource then
    let (module, state) := Module.parse options.moduleName source
    (state.log.toList, module.map fun module =>
      (if options.dumpAst then [module.dump] else []) ++
        if options.emitSource then [module.source] else [])
  else
    let (events, compiled) := compile options.moduleName source
    (events, compiled.map signatures)

/-- The report of a fault in the file at `path`. -/
def report (path : String) (error : Error) : String :=
  lines ["Error: " ++ error.name ++ " (" ++ error.category.name ++ ")", "-> " ++ path,
    "   " ++ error.message]

/-- The run on a source that could be read, with the events of its log written by `render`. -/
def runOn (render : Event → String) (options : Options) (source : String) : Transcript :=
  let (events, texts) := output options source
  let start := Event.readSource options.moduleName source.utf8ByteSize
  let log := if options.verbose then lines (Event.log render .debug (start :: events)) else ""
  match texts with
  | .ok texts => ⟨0, log ++ lines texts, ""⟩
  | .error error => ⟨1, log, report options.sourcePath error⟩

/-- The text of a file, which has to be UTF-8. -/
def decode (content : ByteArray) : Except ReadError String :=
  match String.fromUTF8? content with
  | some source => .ok source
  | none => .error .invalidUtf8

/-- The run with the given arguments, which reads its file by `readFile` and writes the events of
its log by `render`. -/
def run {m : Type → Type} [Monad m] (render : Event → String)
    (readFile : String → m (Except ReadError ByteArray)) (args : List String) :
    m Transcript := do
  match Options.ofArgs? args with
  | none => return ⟨2, "", lines [usage]⟩
  | some options =>
    let content ← readFile options.sourcePath
    match content.bind decode with
    | .ok source => return runOn render options source
    | .error error =>
      return ⟨1, "", lines ["Error: cannot read " ++ options.sourcePath ++ ": " ++ error.message]⟩

end CommandLine

end Frontend
