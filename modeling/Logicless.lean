import Logicless.Configuration
import Logicless.Error.Diagnostic
import Logicless.Render.Basic
import Logicless.Repository.Basic
import Logicless.Repository.Catalogue
import Logicless.Tree.Inspect
import Logicless.Proofs.Tree.Inclusions
import Logicless.Proofs.Tree.Changes
import Logicless.Proofs.Compile.Advance
import Logicless.Proofs.Compile.Run
import Logicless.Proofs.Compile.Preservation
import Logicless.Proofs.Repository.Growth
import Logicless.Proofs.Repository.Session
import Logicless.Proofs.Repository.Integrity
import Logicless.Proofs.Compile.Grammar
import Logicless.Proofs.Render.Precedence
import Logicless.Proofs.Render.Channels
import Logicless.Proofs.Render.Overrides
import Logicless.Proofs.Expr.Grammar
import Logicless.Proofs.Expr.Printing
import Logicless.Proofs.Compile.Shape
import Logicless.Proofs.Compile.Printing
import Logicless.Proofs.Compile.Included
import Logicless.Proofs.Compile.Simulation
import Logicless.Proofs.Compile.Grounded
import Logicless.Proofs.Compile.Calls
import Logicless.Proofs.Compile.Finality
import Logicless.Proofs.Repository.Depth
import Logicless.Proofs.Repository.Requests
import Logicless.Proofs.Repository.Termination
import Logicless.Proofs.Repository.Permanence
import Logicless.Proofs.Repository.Frozen
import Logicless.Proofs.Repository.Fidelity
import Logicless.Proofs.Repository.WellFormed
import Logicless.Proofs.Repository.History
import Logicless.Proofs.Compile.Traversal
import Logicless.Proofs.Tree.Inside
import Logicless.Proofs.Render.Scene
import Logicless.Proofs.Render.Marks
import Logicless.Proofs.Render.Safety
import Logicless.Proofs.Render.Places
import Logicless.Proofs.Render.Termination
import Logicless.Proofs.Repository.Invariant
import Logicless.Proofs.Repository.Exhibit
import Logicless.Proofs.Repository.Uncached
import Logicless.Proofs.Compile.Mirroring
import Logicless.Proofs.Compile.Fragments
import Logicless.Proofs.Compile.OpenTags
import Logicless.Proofs.Compile.Closing
import Logicless.Proofs.Compile.Labels
import Logicless.Proofs.Expr.Spacing
import Logicless.Proofs.Compile.Spelling
import Logicless.Proofs.Compile.Refusals
import Logicless.Proofs.Compile.Attribution
import Logicless.Proofs.Render.Nesting
import Logicless.Proofs.Repository.Reports
import Logicless.Proofs.Render.Shadowing
import Logicless.Proofs.TemplateId.Canonical
import Logicless.Proofs.TemplateId.Spellings
import Logicless.Proofs.Compile.LoadOrder
import Logicless.Proofs.Repository.DepthFirst
import Logicless.Proofs.Expr.Viability
import Logicless.Proofs.Text.Stripping
import Logicless.Proofs.Repository.Escaping
import Logicless.Proofs.Repository.Layers
import Logicless.Proofs.Text.OnePass
import Logicless.Proofs.Compile.Stack
import Logicless.Proofs.Objects.Heap
import Logicless.Proofs.Objects.Compiler
import Logicless.Proofs.Objects.Order
import Logicless.Proofs.Objects.Correspondence
import Logicless.Proofs.Repository.Cycles
