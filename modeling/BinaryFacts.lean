import BinaryFacts.AddressMap
import BinaryFacts.Binary.Basic
import BinaryFacts.Binary.Function
import BinaryFacts.Binary.Reference
import BinaryFacts.Binary.Region
import BinaryFacts.Binding.ArgumentRegisters
import BinaryFacts.Binding.Location
import BinaryFacts.Binding.Signature
import BinaryFacts.Descriptor
import BinaryFacts.Expression.Instruction
import BinaryFacts.Expression.Operation
import BinaryFacts.Expression.Tree
import BinaryFacts.Fault
import BinaryFacts.Json
import BinaryFacts.Json.Binary
import BinaryFacts.Json.Descriptor
import BinaryFacts.Json.Expression
import BinaryFacts.Json.Facts
import BinaryFacts.Json.Target
import BinaryFacts.Json.TypeStore
import BinaryFacts.Layout
import BinaryFacts.Layout.Starts
import BinaryFacts.Memory.ByteMap
import BinaryFacts.Memory.CrossReference
import BinaryFacts.Memory.Extraction
import BinaryFacts.Normalization.Build
import BinaryFacts.Normalization.Draft
import BinaryFacts.Normalization.Form
import BinaryFacts.Normalization.Normalizer
import BinaryFacts.Normalization.Traversal
import BinaryFacts.Program.Basic
import BinaryFacts.Program.Cache
import BinaryFacts.Program.Config
import BinaryFacts.Program.Facts
import BinaryFacts.Proofs.Binding.Agreement
import BinaryFacts.Proofs.Binding.Parameters
import BinaryFacts.Proofs.Binding.Results
import BinaryFacts.Proofs.Descriptor.Aliases
import BinaryFacts.Proofs.Descriptor.Chains
import BinaryFacts.Proofs.Descriptor.Parts
import BinaryFacts.Proofs.Descriptor.Spelling
import BinaryFacts.Proofs.Json.RoundTrip
import BinaryFacts.Proofs.Layout.Elements
import BinaryFacts.Proofs.Layout.Painting
import BinaryFacts.Proofs.Layout.Partition
import BinaryFacts.Proofs.Layout.Starts
import BinaryFacts.Proofs.Memory.CodeSections
import BinaryFacts.Proofs.Memory.CrossReference
import BinaryFacts.Proofs.Memory.Extraction
import BinaryFacts.Proofs.Memory.Runs
import BinaryFacts.Proofs.Normalization.Agreement
import BinaryFacts.Proofs.Normalization.Aliases
import BinaryFacts.Proofs.Normalization.Derivation
import BinaryFacts.Proofs.Normalization.Encounters
import BinaryFacts.Proofs.Normalization.Failure
import BinaryFacts.Proofs.Normalization.Faithfulness
import BinaryFacts.Proofs.Normalization.Growth
import BinaryFacts.Proofs.Normalization.History
import BinaryFacts.Proofs.Normalization.Integrity
import BinaryFacts.Proofs.Normalization.Meaning
import BinaryFacts.Proofs.Normalization.Permanence
import BinaryFacts.Proofs.Normalization.Recursion
import BinaryFacts.Proofs.Normalization.References
import BinaryFacts.Proofs.Normalization.Request
import BinaryFacts.Proofs.Normalization.SameKeys
import BinaryFacts.Proofs.Normalization.Settled
import BinaryFacts.Proofs.Normalization.StructureSize
import BinaryFacts.Proofs.Normalization.Termination
import BinaryFacts.Proofs.Normalization.Traversal
import BinaryFacts.Proofs.Normalization.Unambiguity
import BinaryFacts.Proofs.Normalization.WorkStack
import BinaryFacts.Proofs.Outcome
import BinaryFacts.Proofs.Program.Agreement
import BinaryFacts.Proofs.Program.Cache
import BinaryFacts.Proofs.Program.Calls
import BinaryFacts.Proofs.Program.Signature
import BinaryFacts.Proofs.Text.Brackets
import BinaryFacts.Proofs.Timeline
import BinaryFacts.Proofs.TwoRuns
import BinaryFacts.Proofs.TypeStore.Integrity
import BinaryFacts.Proofs.TypeStore.Peeling
import BinaryFacts.Proofs.TypeStore.Rendering
import BinaryFacts.Proofs.TypeStore.Size
import BinaryFacts.Proofs.TypeStore.Unfolding
import BinaryFacts.Table
import BinaryFacts.Target
import BinaryFacts.Text.Case
import BinaryFacts.Text.CaseTable
import BinaryFacts.Text.Hex
import BinaryFacts.Timeline
import BinaryFacts.TypeStore.Basic
import BinaryFacts.TypeStore.Node
import BinaryFacts.TypeStore.Rendering
import BinaryFacts.TypeStore.Size
import BinaryFacts.TypeStore.Unfolding
import BinaryFacts.Variable
