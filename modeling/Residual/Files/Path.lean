/-!
# Paths

A path is a text that names a file by the steps that lead to it, separated by slashes. It
prints as it was given. For the name of the file, empty steps and steps that stay in
place are passed over, wherever they stand; for the way to the file they count, because
only a directory can be stepped through.
-/

namespace Residual

/-- A path, as it was given. -/
structure Path where
  text : String
  deriving DecidableEq, Repr

namespace Path

/-- One step on the way to a file. -/
inductive Step where
  /-- Stays in a directory. -/
  | here
  /-- Goes to the directory around it. -/
  | up
  /-- Goes to an entry of it. -/
  | into (name : String)
  deriving DecidableEq, Repr

/-- The pieces of a text between slashes. -/
def pieces : List Char → List (List Char)
  | [] => [[]]
  | value :: text =>
      if value = '/' then [] :: pieces text
      else
        match pieces text with
        | [] => [[value]]
        | first :: later => (value :: first) :: later

/-- The step that a piece stands for. An empty piece stands for none. -/
def step? : List Char → Option Step
  | [] => none
  | ['.'] => some .here
  | ['.', '.'] => some .up
  | name => some (.into (String.ofList name))

/-- The steps of a path. -/
def steps (path : Path) : List Step := (pieces path.text.toList).filterMap step?

/-- Whether the path begins at the root of all files. -/
def absolute (path : Path) : Bool := path.text.toList.head? = some '/'

/-- Whether a slash ends the path. -/
def slashEnds (path : Path) : Bool := path.text.toList.getLast? = some '/'

/-- The text of a step. -/
def Step.text : Step → String
  | .here => "."
  | .up => ".."
  | .into name => name

/-- The steps that lead somewhere else. -/
def moves (path : Path) : List Step := path.steps.filter (· ≠ .here)

/-- The path without its last move. -/
def parent (path : Path) : Path :=
  ⟨(if path.absolute then "/" else "") ++
    "/".intercalate (path.moves.dropLast.map Step.text)⟩

/-- The name of the file, if the path ends in a name. -/
def fileName (path : Path) : Option String :=
  match path.moves.getLast? with
  | some (.into name) => some name
  | _ => none

/-- A name cut at its last dot. A dot in front of everything else does not count. -/
def cutAtDot (name : List Char) : List Char × Option (List Char) :=
  match name.reverse.span (· ≠ '.') with
  | (lastReversed, _ :: stemReversed@(_ :: _)) => (stemReversed.reverse, some lastReversed.reverse)
  | _ => (name, none)

/-- The name of the file without its extension. -/
def stem (path : Path) : Option String :=
  path.fileName.map fun name => String.ofList (cutAtDot name.toList).1

/-- What stands behind the last dot of the name of the file. -/
def extension (path : Path) : Option String :=
  path.fileName.bind fun name => (cutAtDot name.toList).2.map String.ofList

end Path

end Residual
