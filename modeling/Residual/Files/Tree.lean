import Residual.Files.Path

/-!
# A tree of files

Files are kept in a tree of directories below a base, which is also where relative paths
start. A file operation follows the steps of its path one by one and fails where the way
ends: at a name that is missing, or at a file that would have to be a directory. Around
the base there are directories too, but nothing in them has a name. Names and paths have
a greatest length, which is counted in bytes.
-/

namespace Residual

/-- Why a file operation fails. -/
inductive FileError where
  | missing
  | exists
  | notDirectory
  | isDirectory
  | nameTooLong
  | notText
  | zeroInPath
  deriving DecidableEq, Repr

/-- The wording of an error. -/
def FileError.message : FileError → String
  | .missing => "No such file or directory (os error 2)"
  | .exists => "File exists (os error 17)"
  | .notDirectory => "Not a directory (os error 20)"
  | .isDirectory => "Is a directory (os error 21)"
  | .nameTooLong => "File name too long (os error 36)"
  | .notText => "stream did not contain valid UTF-8"
  | .zeroInPath => "file name contained an unexpected NUL byte"

/-- What a name in a directory stands for. -/
inductive Entry where
  | directory
  | file (content : ByteArray)

/-- Everything below the base, by the names that lead there from it. -/
structure FileTree where
  entries : List (List String × Entry)

/-- Where some steps have led: below the base by these names, or out of the tree. -/
inductive Place where
  | below (names : List String)
  | outside
  deriving DecidableEq, Repr

namespace FileTree

/-- The tree with nothing below its base. -/
def empty : FileTree := ⟨[]⟩

/-- What is found at a place. The base itself and all places outside are directories. -/
def find? (tree : FileTree) : Place → Option Entry
  | .outside | .below [] => some .directory
  | .below names => (tree.entries.find? fun entry => entry.1 = names).map (·.2)

/-- Puts an entry at a place, in place of what was there. -/
def put (tree : FileTree) (names : List String) (entry : Entry) : FileTree :=
  ⟨(names, entry) :: tree.entries.filter fun other => other.1 ≠ names⟩

/-- The place that a name leads to, whether or not there is something. -/
def Place.child : Place → String → Option Place
  | .below names, name => some (.below (names ++ [name]))
  | .outside, _ => none

/-- The directory around a place. -/
def Place.parent : Place → Place
  | .below names@(_ :: _) => .below names.dropLast
  | .below [] | .outside => .outside

/-- Fails unless there is a directory at the place. -/
def enter (tree : FileTree) (place : Place) : Except FileError Unit :=
  match tree.find? place with
  | none => .error .missing
  | some (.file _) => .error .notDirectory
  | some .directory => .ok ()

/-- The greatest length of a name in bytes. -/
def maxNameLength : Nat := 255

/-- Fails for names that no entry of a directory can have. -/
def checkName (name : String) : Except FileError Unit :=
  if maxNameLength < name.utf8ByteSize then .error .nameTooLong else .ok ()

/-- Follows steps from a place, each of them out of a directory. -/
def walk (tree : FileTree) (place : Place) : List Path.Step → Except FileError Place
  | [] => .ok place
  | step :: steps => do
      tree.enter place
      match step with
      | .here => tree.walk place steps
      | .up => tree.walk (Place.parent place) steps
      | .into name =>
          checkName name
          match Place.child place name with
          | none => .error .missing
          | some child =>
              if (tree.find? child).isNone then .error .missing else tree.walk child steps

/-- The greatest length of a path in bytes. -/
def maxPathLength : Nat := 4095

/-- Fails for paths that cannot be followed at all. -/
def check (path : Path) : Except FileError Unit :=
  if path.text.contains '\x00' then .error .zeroInPath
  else if path.text.isEmpty then .error .missing
  else if maxPathLength < path.text.utf8ByteSize then .error .nameTooLong
  else .ok ()

/-- Where a path starts. -/
def origin (path : Path) : Place := if path.absolute then .outside else .below []

/-- The place that a path leads to. A slash at its end asks for a directory. -/
def locate (tree : FileTree) (path : Path) : Except FileError Place := do
  check path
  tree.walk (origin path) (path.steps ++ if path.slashEnds then [.here] else [])

/-- The text of a file. -/
def readText (tree : FileTree) (path : Path) : Except FileError String := do
  match tree.find? (← tree.locate path) with
  | none => .error .missing
  | some .directory => .error .isDirectory
  | some (.file content) =>
      match String.fromUTF8? content with
      | some text => .ok text
      | none => .error .notText

/-- The directory in which the last step of a path is taken, and that step. -/
def parentOf (tree : FileTree) (path : Path) :
    Except FileError (Place × Option Path.Step) := do
  let place ← tree.walk (origin path) path.steps.dropLast
  if !path.steps.isEmpty then tree.enter place
  return (place, path.steps.getLast?)

/-- Writes a file, which is created if it does not exist. -/
def write (tree : FileTree) (path : Path) (content : ByteArray) :
    Except FileError FileTree := do
  check path
  match ← tree.parentOf path with
  | (place, some (.into name)) =>
      if path.slashEnds then throw .isDirectory
      checkName name
      match Place.child place name with
      | some (.below target) =>
          match tree.find? (.below target) with
          | some .directory => throw .isDirectory
          | _ => return tree.put target (.file content)
      | _ => throw .missing
  | _ => throw .isDirectory

/-- Makes one directory in a directory that exists. -/
def makeDirectory (tree : FileTree) (path : Path) : Except FileError FileTree := do
  check path
  match ← tree.parentOf path with
  | (place, some (.into name)) =>
      checkName name
      match Place.child place name with
      | some (.below target) =>
          match tree.find? (.below target) with
          | some _ => throw .exists
          | none => return tree.put target .directory
      | _ => throw .missing
  | _ => throw .exists

/-- Whether a path leads to a directory. -/
def isDirectory (tree : FileTree) (path : Path) : Bool :=
  match tree.locate path with
  | .ok place =>
      match tree.find? place with
      | some .directory => true
      | _ => false
  | .error _ => false

/-- Makes the directory of a path where those around it are in place. It is no error if
there is a directory already. -/
def ensureDirectory (tree : FileTree) (path : Path) : Except FileError Unit × FileTree :=
  match tree.makeDirectory path with
  | .ok made => (.ok (), made)
  | .error error => (if tree.isDirectory path then .ok () else .error error, tree)

/-- Makes a directory and those around it that are missing, the outermost first. Those
made before a failure stay. -/
def makeDirectories (tree : FileTree) (path : Path) : Except FileError Unit × FileTree :=
  go path.steps.length tree path
where
  /-- Makes a directory that has at most `depth` directories around it. -/
  go : Nat → FileTree → Path → Except FileError Unit × FileTree
    | depth, tree, path =>
        if path.text.isEmpty then (.ok (), tree)
        else
          match tree.ensureDirectory path with
          | (.error .missing, _) =>
              match depth with
              | 0 => (.error .missing, tree)
              | depth + 1 =>
                  match go depth tree path.parent with
                  | (.ok (), around) => around.ensureDirectory path
                  | failed => failed
          | made => made

end FileTree

end Residual
