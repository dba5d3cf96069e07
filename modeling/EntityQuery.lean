import EntityQuery.Config.Reading
import EntityQuery.Engine.Basic
import EntityQuery.Proofs.Compilation.Alias
import EntityQuery.Proofs.Compilation.Steps
import EntityQuery.Proofs.Compilation.Usage
import EntityQuery.Proofs.Meaning.Restrictions
import EntityQuery.Proofs.Meaning.Results
import EntityQuery.Proofs.Resolver.Session
import EntityQuery.Proofs.Engine.Listing
import EntityQuery.Proofs.Compilation.Options
import EntityQuery.Proofs.Engine.Pruning
import EntityQuery.Proofs.Mapping.Leaves
import EntityQuery.Proofs.Engine.RoundTrip
import EntityQuery.Proofs.Storage.Rows
import EntityQuery.Proofs.Compilation.Acceptance
import EntityQuery.Proofs.Conversion.Builtin
import EntityQuery.Proofs.Engine.Deletion
import EntityQuery.Proofs.Engine.Finding
import EntityQuery.Proofs.Compilation.Blocks
import EntityQuery.Proofs.Compilation.Translation
import EntityQuery.Proofs.Engine.Layout
import EntityQuery.Proofs.Compilation.Relocation
import EntityQuery.Proofs.Meaning.Surroundings
import EntityQuery.Proofs.Engine.Nesting
import EntityQuery.Proofs.Engine.Sequence
import EntityQuery.Proofs.Engine.Typing
import EntityQuery.Proofs.Meaning.Answers
import EntityQuery.Proofs.Storage.Removal
import EntityQuery.Proofs.Engine.Independence
import EntityQuery.Proofs.Engine.Failures
import EntityQuery.Proofs.Engine.Filtering
import EntityQuery.Proofs.Meaning.Membership
import EntityQuery.Proofs.Engine.Functions
import EntityQuery.Proofs.Engine.Rejections
import EntityQuery.Proofs.Value.Agreement
import EntityQuery.Proofs.Storage.Selecting
import EntityQuery.Proofs.Text.Regex
import EntityQuery.Proofs.Value.Likeness
import EntityQuery.Proofs.Value.Rounding
import EntityQuery.Proofs.Engine.Integers
import EntityQuery.Proofs.Value.Negation
import EntityQuery.Proofs.Storage.Candidates
import EntityQuery.Proofs.Compilation.Progress
import EntityQuery.Proofs.Storage.Duality
import EntityQuery.Proofs.Compilation.Mentions
import EntityQuery.Proofs.Compilation.Naming
import EntityQuery.Proofs.Compilation.Depth
import EntityQuery.Proofs.Conversion.Registration
import EntityQuery.Proofs.Engine.Unconverted
import EntityQuery.Proofs.Term.Kinds
import EntityQuery.Proofs.Resolver.Repetition
import EntityQuery.Proofs.Storage.Delivery
import EntityQuery.Proofs.Distinct
import EntityQuery.Proofs.Mapping.Declaration
import EntityQuery.Proofs.Mapping.Flattening
import EntityQuery.Proofs.Value.Placement
import EntityQuery.Proofs.Conversion.CodeHistory
import EntityQuery.Proofs.Compilation.Swaps
import EntityQuery.Proofs.Query.Dotted
