import Residual.Files.Tree
import Residual.Proposition
import Residual.Regex.Parse

/-!
# Models from files

A host picks the language of a file by its extension. A file of this language holds one
expression, and what is loaded from it is a model: the relation of the expression under
the name of the file, and a registry for propositions about its configurations.
-/

namespace Residual

/-- All that a host needs to explore one expression. -/
structure Model where
  relation : Relation Char
  registry : Registry Char
  deriving DecidableEq, Repr

/-- Why there is no model. -/
inductive LoadError where
  /-- The file cannot be read. -/
  | file (error : FileError)
  /-- The file does not hold an expression. -/
  | parse (error : ParseError)
  /-- The path does not have the extension of this language. -/
  | unsupportedExtension (path : Path)
  deriving DecidableEq, Repr

/-- The wording of an error. -/
def LoadError.message : LoadError → String
  | .file error => "io error: " ++ error.message
  | .parse error => "parse error: " ++ error.message
  | .unsupportedExtension path => path.text ++ " is not a regular expression file"

namespace Model

/-- The name under which a host lists the language. -/
def languageName : String := "LRegExp"

/-- The extensions of files of the language, without the dot. -/
def extensions : List String := ["regexp"]

/-- Whether a path has one of the extensions. -/
def handles (path : Path) : Bool := path.extension.any extensions.contains

/-- The model of a text. -/
def ofText (name text : String) : Logged (Except LoadError Model) :=
  (Regex.parse text).map fun
    | .ok expression => .ok ⟨⟨name, expression⟩, .new expression⟩
    | .error error => .error (.parse error)

/-- The model in a file, named after the file. The extension is checked before anything
is read. -/
def load (files : FileTree) (path : Path) : Logged (Except LoadError Model) :=
  if handles path then
    match files.readText path with
    | .error error => .silent (.error (.file error))
    | .ok text =>
        let name := path.fileName.getD ""
        (Logged.reporting (fun _ => [.loading name path.text]) ()).andThen fun _ => ofText name text
  else .silent (.error (.unsupportedExtension path))

end Model

end Residual
