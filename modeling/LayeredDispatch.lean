import LayeredDispatch.Capability
import LayeredDispatch.Shape
import LayeredDispatch.Schema
import LayeredDispatch.Layer
import LayeredDispatch.Decimal
import LayeredDispatch.Outcome
import LayeredDispatch.Trace
import LayeredDispatch.Json.Codec
import LayeredDispatch.Storage.Arithmetic
import LayeredDispatch.Machine.Basic
import LayeredDispatch.Value
import LayeredDispatch.Machine.Values
import LayeredDispatch.Machine.Recording
import LayeredDispatch.Guard
import LayeredDispatch.Dispatcher.Standard
import LayeredDispatch.Session.Play
import LayeredDispatch.Proofs.Dispatch.Ends
import LayeredDispatch.Proofs.Dispatch.Selection
import LayeredDispatch.Proofs.Dispatch.Inheritance
import LayeredDispatch.Proofs.Dispatch.Outcomes
import LayeredDispatch.Proofs.Dispatch.Workings
import LayeredDispatch.Proofs.Dispatch.Images
import LayeredDispatch.Proofs.Dispatch.Ambient
import LayeredDispatch.Proofs.Dispatch.Agreement
import LayeredDispatch.Proofs.Dispatch.Scoping
import LayeredDispatch.Proofs.Dispatch.Regime
import LayeredDispatch.Proofs.Dispatch.Meets
import LayeredDispatch.Proofs.Dispatch.Exchange
import LayeredDispatch.Proofs.Dispatch.Restoration
import LayeredDispatch.Proofs.Dispatch.Isolation
import LayeredDispatch.Proofs.Wrappers.Escape
import LayeredDispatch.Proofs.Families.Broadcasting
import LayeredDispatch.Proofs.Families.Slices
import LayeredDispatch.Proofs.Families.Requests
import LayeredDispatch.Proofs.Families.WellFormed
import LayeredDispatch.Proofs.Families.Answers
import LayeredDispatch.Proofs.Families.Operands
import LayeredDispatch.Proofs.Families.Crossing
import LayeredDispatch.Proofs.Families.Interceptors
import LayeredDispatch.Proofs.Families.Padding
import LayeredDispatch.Proofs.Families.Rules
import LayeredDispatch.Proofs.Families.Correctness
import LayeredDispatch.Proofs.Dispatch.Leaves
import LayeredDispatch.Proofs.Dispatch.Replacing
import LayeredDispatch.Proofs.Wrappers.Contracts
import LayeredDispatch.Proofs.Effects.Settling
import LayeredDispatch.Proofs.Effects.Frames
import LayeredDispatch.Proofs.Randomness.Generators
import LayeredDispatch.Proofs.Effects.BaseKernels
import LayeredDispatch.Proofs.Effects.Interceptors
import LayeredDispatch.Proofs.Effects.Rules
import LayeredDispatch.Proofs.Effects.Atomicity
import LayeredDispatch.Proofs.Effects.Steadiness
import LayeredDispatch.Proofs.Wrappers.Captures
import LayeredDispatch.Proofs.Wrappers.Refusals
import LayeredDispatch.Proofs.Results.Batches
import LayeredDispatch.Proofs.Results.Handing
import LayeredDispatch.Proofs.Histories.Course
import LayeredDispatch.Proofs.Histories.Standing
import LayeredDispatch.Proofs.Histories.Liveness
import LayeredDispatch.Proofs.Results.Fitting
import LayeredDispatch.Proofs.Results.Closure
import LayeredDispatch.Proofs.Twins.Beside
import LayeredDispatch.Proofs.Twins.Pairing
import LayeredDispatch.Proofs.Twins.Replacing
import LayeredDispatch.Proofs.Twins.Interceptors
import LayeredDispatch.Proofs.Twins.Selection
import LayeredDispatch.Proofs.Twins.Crossing
import LayeredDispatch.Proofs.Twins.Operands
import LayeredDispatch.Proofs.Twins.Rules
import LayeredDispatch.Proofs.Twins.BaseKernels
import LayeredDispatch.Proofs.Twins.Outside
import LayeredDispatch.Proofs.Twins.DeadTags
import LayeredDispatch.Proofs.Twins.Sums
import LayeredDispatch.Proofs.Twins.InPlaceSums
import LayeredDispatch.Proofs.Records.Recording
import LayeredDispatch.Proofs.Records.Rules
import LayeredDispatch.Proofs.Randomness.Draws
import LayeredDispatch.Proofs.Wrappers.Provenance
import LayeredDispatch.Proofs.Histories.Programs
import LayeredDispatch.Proofs.Histories.Scopes
import LayeredDispatch.Proofs.Histories.Unwinding
import LayeredDispatch.Proofs.Traces.Nodes
import LayeredDispatch.Proofs.Traces.Routes
import LayeredDispatch.Proofs.Traces.Interceptors
import LayeredDispatch.Proofs.Traces.Rules
import LayeredDispatch.Proofs.Traces.Calls
import LayeredDispatch.Proofs.Framing.Echoes
import LayeredDispatch.Proofs.Framing.Kernels
import LayeredDispatch.Proofs.Dispatch.Confinement
import LayeredDispatch.Proofs.Nesting.Lengthening
import LayeredDispatch.Proofs.Nesting.Depth
import LayeredDispatch.Proofs.Nesting.Termination
import LayeredDispatch.Proofs.Framing.Calls
import LayeredDispatch.Proofs.Storages.Stocks
import LayeredDispatch.Proofs.Storages.Kernels
import LayeredDispatch.Proofs.Storages.Programs
import LayeredDispatch.Proofs.Dispatch.Unreached
import LayeredDispatch.Proofs.Results.Evaluation
import LayeredDispatch.Proofs.Results.Handlers
import LayeredDispatch.Proofs.Results.Transparency
import LayeredDispatch.Proofs.Results.Insertion
import LayeredDispatch.Proofs.Broadcasting.Alignment
import LayeredDispatch.Proofs.Broadcasting.Positions
import LayeredDispatch.Proofs.Broadcasting.Limits
import LayeredDispatch.Proofs.Broadcasting.Entries
import LayeredDispatch.Proofs.Broadcasting.Sums
import LayeredDispatch.Proofs.Batches.Resizing
import LayeredDispatch.Proofs.Batches.Sizes
import LayeredDispatch.Proofs.Batches.Families
import LayeredDispatch.Proofs.Batches.Reuse
import LayeredDispatch.Proofs.Schemas.InPlace
import LayeredDispatch.Proofs.Histories.Releases
import LayeredDispatch.Proofs.Results.Reshaping
import LayeredDispatch.Proofs.Records.Retagging
import LayeredDispatch.Proofs.Traces.Recordings
import LayeredDispatch.Proofs.Histories.Overlays
import LayeredDispatch.Proofs.Dispatch.BodyCalls
import LayeredDispatch.Proofs.Batches.Padding
import LayeredDispatch.Proofs.Values.Traversals
import LayeredDispatch.Proofs.Traces.Rendering
