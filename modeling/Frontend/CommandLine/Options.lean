/-!
# Options

What the arguments of the command line ask for: one source file, and up to three flags in any
order.  The module that is compiled has the name of the file.
-/

namespace Frontend

/-! ## Paths

File names inside paths, with `/` between the parts.  Empty parts and `.` lead nowhere and do
not count.
-/

namespace Path

/-- The parts of a path, those that lead nowhere included. -/
def parts (path : String) : List String :=
  path.splitOn "/"

/-- Whether a part leaves a walk where it is. -/
def leadsNowhere (part : String) : Bool :=
  part == "" || part == "."

/-- The name of the file that a path leads to; `none` if its last part is none or `..`. -/
def fileName? (path : String) : Option String :=
  ((parts path).filter fun part => !leadsNowhere part).getLast?.filter fun name => name != ".."

/-- A file name without its extension, which begins at the last dot.  A dot at the front
begins none. -/
def stem (name : String) : String :=
  match name.toList.reverse.dropWhile fun c => c != '.' with
  | [] | [_] => name
  | _ :: before => String.ofList before.reverse

/-- The name of the module in the file that a path leads to. -/
def moduleName (path : String) : String :=
  ((fileName? path).map stem).getD "main"

end Path

/-! ## Options -/

/-- What the command line asks for. -/
structure Options where
  sourcePath : String
  moduleName : String
  dumpAst : Bool
  emitSource : Bool
  verbose : Bool
  deriving DecidableEq

namespace Options

/-- The flags, in the order of the fields that they set. -/
def flags : List String :=
  ["--dump-ast", "--emit-source", "--verbose"]

/-- Whether an argument has the form of a flag. -/
def isFlag (arg : String) : Bool :=
  ['-', '-'].isPrefixOf arg.toList

/-- The options that the arguments ask for; `none` if a flag is unknown or if there is not
exactly one file. -/
def ofArgs? (args : List String) : Option Options :=
  let (given, files) := args.partition isFlag
  match files with
  | [path] =>
    if given.all flags.contains then
      some {
        sourcePath := path
        moduleName := Path.moduleName path
        dumpAst := given.contains "--dump-ast"
        emitSource := given.contains "--emit-source"
        verbose := given.contains "--verbose" }
    else none
  | _ => none

end Options

end Frontend
