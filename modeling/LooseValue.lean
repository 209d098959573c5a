import LooseValue.Bulk
import LooseValue.Machine.Sequences
import LooseValue.Machine.Step
import LooseValue.Number.Floor
import LooseValue.Proofs.Comparison
import LooseValue.Proofs.Machine.Frame
import LooseValue.Proofs.Machine.Identity
import LooseValue.Proofs.Machine.Validity
import LooseValue.Proofs.Coherence
import LooseValue.Proofs.Store.Texts
import LooseValue.Proofs.Access.Rendering
import LooseValue.Proofs.Text.Quoted
import LooseValue.Proofs.Tree.Outline
import LooseValue.Proofs.Store.Renaming
import LooseValue.Proofs.Access.Renaming
import LooseValue.Proofs.Machine.Renaming
import LooseValue.Proofs.Machine.RenamedRuns
import LooseValue.Proofs.Observation
import LooseValue.Proofs.Number.Notation
import LooseValue.Proofs.Scalars
import LooseValue.Proofs.Machine.Events
import LooseValue.Proofs.Machine.Effects
import LooseValue.Proofs.Store.Acyclicity
import LooseValue.Proofs.Store.Nesting
import LooseValue.Proofs.Machine.Nesting
import LooseValue.Proofs.Store.Ownership
import LooseValue.Proofs.Machine.Defaults
import LooseValue.Proofs.Machine.DebugTexts
import LooseValue.Proofs.Machine.Vectors
import LooseValue.Proofs.Number.Conversion
import LooseValue.Proofs.Number.Floor
import LooseValue.Proofs.Concatenation
import LooseValue.Machine.Sequences
import LooseValue.Proofs.Machine.Sequences
