import Residual.Files.Drawing
import Residual.Files.Model
import Residual.Regex.Language
import Residual.Sharing.Graph
import Residual.Sharing.Workspace
import Residual.StateSpace.Dot
import Residual.StateSpace.Exploration
import Residual.Text.Bounded
import Residual.Transition.Matcher
import Residual.Proofs.Reading.Rules
import Residual.Proofs.Regex.Denotation
import Residual.Proofs.Regex.Tokens
import Residual.Proofs.Reading.Grammar
import Residual.Proofs.Reading.RoundTrip
import Residual.Proofs.StateSpace.Automaton
import Residual.Proofs.Regex.Emptiness
import Residual.Proofs.Transition.Calls
import Residual.Proofs.Transition.EarlyStop
import Residual.Proofs.Regex.Growth
import Residual.Proofs.StateSpace.BreadthFirst
import Residual.Proofs.StateSpace.Finiteness
import Residual.Proofs.StateSpace.Limits
import Residual.Proofs.Reading.Inventory
import Residual.Proofs.Reading.Nesting
import Residual.Proofs.Reading.Absence
import Residual.Proofs.Reading.Association
import Residual.Proofs.StateSpace.Resemblance
import Residual.Proofs.Sharing.Listing
import Residual.Proofs.Lists.Repetition
import Residual.Proofs.Regex.Delta
import Residual.Proofs.StateSpace.DefaultAlphabet
import Residual.Proofs.StateSpace.Alphabets
import Residual.Proofs.StateSpace.Drawings
import Residual.Proofs.StateSpace.Captions
import Residual.Proofs.StateSpace.Turns
import Residual.Proofs.Registration
import Residual.Proofs.Reading.Progress
import Residual.Proofs.Text.Visible
import Residual.Proofs.Files.Names
