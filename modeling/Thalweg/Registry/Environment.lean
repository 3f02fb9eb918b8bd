import Thalweg.Data.Json.Record
import Thalweg.Data.OrderedStore
import Thalweg.Daemon.Event

/-!
# The files and the environment around a registry

What the loader finds outside of the definition files: the file system, the environment of the
process and the environment files of a definition. Paths are those of a Unix system. Maps of texts
are kept in the order of their keys, in which they are also written.

## Main definitions

* `World`: what a call asks the operating system.
* `loadEnvironmentFiles`, `resolvedEnvironment`: the variables of a definition.
* `expand`, `preflightExecutable`.
-/

namespace Thalweg.Registry.Files

/-! ### Paths -/

/-- `filepath.IsAbs`. -/
def isAbs (path : Text) : Bool := path.head? == some '/'

/-- The elements of a path without those that lead nowhere; `out` holds the ones before, the last
one first. -/
def cleanElements (rooted : Bool) : List Text → List Text → List Text
  | out, [] => out.reverse
  | out, e :: elements =>
    if e = [] ∨ e = ['.'] then cleanElements rooted out elements
    else if e = ['.', '.'] then
      match out with
      | [] => cleanElements rooted (if rooted then [] else [e]) elements
      | last :: before =>
        cleanElements rooted (if last = ['.', '.'] then e :: out else before) elements
    else cleanElements rooted (e :: out) elements

/-- `filepath.Clean`. -/
def clean (path : Text) : Text :=
  let elements := cleanElements (isAbs path) [] (path.splitOn '/')
  if isAbs path then '/' :: ['/'].intercalate elements
  else if elements = [] then ['.'] else ['/'].intercalate elements

/-- `filepath.Join`. -/
def join (elements : List Text) : Text :=
  match elements.dropWhile List.isEmpty with
  | [] => []
  | elements => clean (['/'].intercalate elements)

/-- `filepath.Dir`. -/
def dir (path : Text) : Text := clean (path.reverse.dropWhile (· ≠ '/')).reverse

/-- `filepath.Ext`. -/
def ext (path : Text) : Text :=
  let last := path.reverse.takeWhile (· ≠ '/')
  if '.' ∈ last then '.' :: (last.takeWhile (· ≠ '.')).reverse else []

/-- `filepath.SplitList`. -/
def splitList (path : Text) : List Text := if path = [] then [] else path.splitOn ':'

/-! ### The operating system -/

/-- Why a file cannot be read. -/
inductive FileError where
  | notExist
  | other
  deriving DecidableEq

/-- What is at a path. -/
inductive FileKind where
  | regular
  | directory
  | symlink
  | irregular
  deriving DecidableEq

/-- What `os.Stat` tells of a file. -/
structure FileInfo where
  kind : FileKind
  perm : Nat
  deriving DecidableEq

/-- What the operating system answers as long as nothing changes: the file system, the environment
of the process and its working directory. The contents of files are valid UTF-8. -/
structure World where
  getwd : Option Text
  lstat : Text → Except FileError FileInfo
  stat : Text → Except FileError FileInfo
  /-- The names in a directory, in their order. -/
  readDir : Text → Except FileError (List Text)
  readFile : Text → Option Text
  environ : List Text
  /-- `exec.LookPath` finds an executable. -/
  lookPath : Text → Bool

/-- `strings.Cut` at an equals sign. -/
def cut (item : Text) : Option (Text × Text) :=
  if '=' ∈ item then some (item.takeWhile (· ≠ '='), (item.dropWhile (· ≠ '=')).tail) else none

/-- `os.Getenv`. -/
def getenv (environ : List Text) (key : Text) : Text :=
  ((environ.filterMap cut).lookup key).getD []

/-- `filepath.Abs`. -/
def World.abs (world : World) (path : Text) : Option Text :=
  if isAbs path then some (clean path) else world.getwd.map fun wd => join [wd, path]

/-! ### Names -/

/-- A lower case letter of ASCII. -/
def isLower (c : Char) : Bool := 'a' ≤ c && c ≤ 'z'

/-- A character that a name may start with. -/
def isNameStart (c : Char) : Bool := isLower c || ('A' ≤ c && c ≤ 'Z') || c == '_'

/-- A character of a name. -/
def isNameChar (c : Char) : Bool := isNameStart c || c.isDigit

/-- `environmentNamePattern`. -/
def isEnvironmentName : Text → Bool
  | [] => false
  | c :: s => isNameStart c && s.all isNameChar

/-- `definitionNamePattern`. -/
def isDefinitionName : Text → Bool
  | [] => false
  | c :: s =>
    (isLower c || c.isDigit) && s.length ≤ 127 &&
      s.all fun c => isLower c || c.isDigit || c == '.' || c == '_' || c == '-'

/-! ### Environment files -/

/-- A map that has been made, which may be empty. -/
abbrev StringMap := OrderedStore Char Text

/-- The lines of a text; a line break at the end is not followed by another line. -/
def lines (content : Text) : List Text :=
  let all := content.splitOn '\n'
  if all.getLast? = some [] then all.dropLast else all

/-- A line of this length does not fit into the buffer of a `bufio.Scanner`. -/
def maxScanTokenSize : Nat := 64 * 1024

/-- The assignments of an environment file from a line on. -/
def readAssignments (path : Text) : Nat → StringMap → List Text → Result StringMap
  | _, values, [] => .ok values
  | number, values, line :: rest =>
    if maxScanTokenSize ≤ (Text.toBytes line).length then
      .error (.wrap "read environment file %s: %w" [path] (.external "bufio"))
    else
      let text := Text.trimSpace line
      if text = [] ∨ text.head? = some '#' then readAssignments path (number + 1) values rest
      else
        match cut text with
        | some (key, value) =>
          if isEnvironmentName key then
            readAssignments path (number + 1) (values.set key value) rest
          else errorf "invalid environment assignment in %s:%d" [path, Text.decimal number]
        | none => errorf "invalid environment assignment in %s:%d" [path, Text.decimal number]

/-- The values with those of a file. -/
def loadEnvironmentFile (world : World) (root : Text) (values : StringMap) (name : Text) :
    Result StringMap :=
  if isDefinitionName name = false then errorf "invalid environment file name %q" [name]
  else
    let path := join [root, name ++ ".env".toList]
    match world.lstat path with
    | .error _ => .error (.wrap "inspect environment file %s: %w" [path] (.external "os"))
    | .ok info =>
      if info.kind ≠ .regular ∨ info.perm &&& 0o077 ≠ 0 then
        errorf "environment file %s must be a regular mode-0600 file" [path]
      else
        match world.readFile path with
        | none => .error (.external "os")
        | some content => readAssignments path 1 values (lines content)

/-- The values of files; of one name the last. -/
def loadEnvironmentFiles (world : World) (names : List Text) (root : Text) : Result StringMap :=
  names.foldlM (loadEnvironmentFile world root) OrderedStore.empty

/-! ### Expansion -/

/-- The name in an expansion that a text starts with. -/
def expansionName : Text → Option Text
  | '$' :: '{' :: c :: s =>
    if isNameStart c && (s.dropWhile isNameChar).head? == some '}' then
      some (c :: s.takeWhile isNameChar)
    else none
  | _ => none

/-- The text with its expansions replaced after the first `skip` runes, and the last name that has
no value. -/
def replaceExpansions (environment : StringMap) : Nat → Text → Text × Text
  | _, [] => ([], [])
  | skip + 1, _ :: s => replaceExpansions environment skip s
  | 0, c :: s =>
    match expansionName (c :: s) with
    | none =>
      let (result, missing) := replaceExpansions environment 0 s
      (c :: result, missing)
    | some name =>
      -- the name stands between two runes and one more
      let (result, missing) := replaceExpansions environment (name.length + 2) s
      match environment.get name with
      | some value => (value ++ result, missing)
      | none =>
        ((c :: s).take (name.length + 3) ++ result, if missing = [] then name else missing)

/-- A value with the values of the names that it refers to. -/
def expand (value : Text) (environment : StringMap) : Result Text :=
  match replaceExpansions environment 0 value with
  | (result, []) => .ok result
  | (_, missing) => errorf "environment variable %s is not defined" [missing]

/-! ### Executables -/

/-- `os.Stat` finds an executable file. -/
def World.executable (world : World) (path : Text) : Bool :=
  match world.stat path with
  | .ok info => info.kind ≠ .directory && info.perm &&& 0o111 ≠ 0
  | .error _ => false

/-- The command of a runner can be found and executed. -/
def preflightExecutable (world : World) (command : Text) (environment : StringMap)
    (workingDirectory : Text) : Result Unit :=
  if '/' ∈ command then
    let path := if isAbs command then command else join [workingDirectory, command]
    if world.executable path then .ok ()
    else errorf "runner executable %s is not executable" [command]
  else
    let pathValue := (environment.get "PATH".toList).getD []
    let pathValue := if pathValue = [] then getenv world.environ "PATH".toList else pathValue
    if (splitList pathValue).any fun directory => world.executable (join [directory, command]) then
      .ok ()
    else if world.lookPath command then .ok ()
    else errorf "runner executable %q is not available" [command]

end Thalweg.Registry.Files
