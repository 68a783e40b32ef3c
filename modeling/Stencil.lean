import Stencil.Config.Load
import Stencil.Linking.Linker
import Stencil.Proofs.Config.Formats
import Stencil.Proofs.Config.Priority
import Stencil.Proofs.Diagnostic.Message
import Stencil.Proofs.Document.Again
import Stencil.Proofs.Document.Budget
import Stencil.Proofs.Document.Homes
import Stencil.Proofs.Document.Names
import Stencil.Proofs.Document.Places
import Stencil.Proofs.Document.References
import Stencil.Proofs.Document.Unused
import Stencil.Proofs.Expansion.Advance
import Stencil.Proofs.Expansion.Derivation
import Stencil.Proofs.Expansion.Provenance
import Stencil.Proofs.Expansion.Siblings
import Stencil.Proofs.Linking.Composition
import Stencil.Proofs.Linking.Directive
import Stencil.Proofs.Linking.Implicit
import Stencil.Proofs.Linking.Imported
import Stencil.Proofs.Linking.Link
import Stencil.Proofs.Linking.Missing
import Stencil.Proofs.Linking.Postorder
import Stencil.Proofs.Linking.Wholesale
import Stencil.Proofs.Outcome.Causes
import Stencil.Proofs.Outcome.Collisions
import Stencil.Proofs.Outcome.Faithful
import Stencil.Proofs.Outcome.Trace
import Stencil.Proofs.Scope.Frames
import Stencil.Proofs.Template.Acceptance
import Stencil.Proofs.Template.Shadowing
import Stencil.Proofs.Template.Substitution
import Stencil.Proofs.Tree.Printed
