import Residual.Files.Tree
import Residual.StateSpace.Dot

/-!
# Drawings in files

A drawing that is written to a file has a title even if none was chosen: the name of the
file without its extension.
-/

namespace Residual.StateSpace

universe u

variable {α : Type u} [Spelled α]

/-- Draws a state space into a file. -/
def drawTo (space : StateSpace α) (style : Dot.Style) (files : FileTree) (path : Path) :
    Except FileError FileTree :=
  files.write path (space.dot { style with title := style.title.or path.stem }).toUTF8

end Residual.StateSpace
