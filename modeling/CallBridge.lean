import CallBridge.Prim
import CallBridge.Ty.Basic
import CallBridge.Ty.Subtyping
import CallBridge.Ty.Passing
import CallBridge.Ty.Registry
import CallBridge.Signature.Basic
import CallBridge.Signature.Difference
import CallBridge.Tag
import CallBridge.Op
import CallBridge.Step.Basic
import CallBridge.Step.Descriptor
import CallBridge.Shuffle.Basic
import CallBridge.Shuffle.Plan
import CallBridge.Binary.Format
import CallBridge.Binary.Shortest
import CallBridge.Text.Unprintable
import CallBridge.Text.Extending
import CallBridge.Text.Ignorable
import CallBridge.Text.Quoted
import CallBridge.Value.Datum
import CallBridge.Value.Basic
import CallBridge.Handle.Basic
import CallBridge.Handle.Invoke
import CallBridge.Elementary.Error
import CallBridge.Elementary.Convert
import CallBridge.Elementary.Reshape
import CallBridge.Adapt
import CallBridge.Rewire
import CallBridge.Collector
import CallBridge.Request
import CallBridge.Session
import CallBridge.Proofs.Path
import CallBridge.Proofs.Stocking
import CallBridge.Proofs.Ordering
import CallBridge.Proofs.Growth
import CallBridge.Proofs.CheckedPlan
import CallBridge.Proofs.Matching
import CallBridge.Proofs.Calls
import CallBridge.Proofs.Rewiring
import CallBridge.Proofs.Typing
import CallBridge.Proofs.Verified
import CallBridge.Proofs.Soundness
import CallBridge.Proofs.Safety
import CallBridge.Proofs.Midway
import CallBridge.Proofs.Adapting
import CallBridge.Proofs.AdaptedCalls
import CallBridge.Proofs.Packing
import CallBridge.Proofs.Balance
import CallBridge.Proofs.Recovery
import CallBridge.Proofs.Outcomes
import CallBridge.Proofs.Interning
import CallBridge.Proofs.Capability
import CallBridge.Proofs.Collecting
import CallBridge.Proofs.CollectedCalls
import CallBridge.Proofs.SubtypeOrder
import CallBridge.Proofs.FreePassing
import CallBridge.Proofs.Integrals
import CallBridge.Proofs.Retyping
import CallBridge.Proofs.Spreading
import CallBridge.Proofs.ExactWidening
import CallBridge.Proofs.RawRetypes
import CallBridge.Proofs.Agreement
import CallBridge.Proofs.MachinePredicates
import CallBridge.Proofs.MachineConstructors
import CallBridge.Proofs.MachineRequests
import CallBridge.Proofs.SingleMoves
import CallBridge.Proofs.Cancelling
import CallBridge.Proofs.PlanLength
import CallBridge.Proofs.Classifying
