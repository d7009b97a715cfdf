import SlicePolicy.Json.Reading
import SlicePolicy.PhysicalForm
import SlicePolicy.Report.Collector
import SlicePolicy.Verifier
import SlicePolicy.Proofs.Formula.Evaluation
import SlicePolicy.Proofs.Encoding.Meaning
import SlicePolicy.Proofs.Encoding.Forwarding
import SlicePolicy.Proofs.Network.Point
import SlicePolicy.Proofs.Query.Solutions
import SlicePolicy.Proofs.Network.Path
import SlicePolicy.Proofs.Network.TagPath
import SlicePolicy.Proofs.Network.Isolation
import SlicePolicy.Proofs.Verifier.Verdict
import SlicePolicy.Proofs.Network.Compilation
import SlicePolicy.Proofs.Query.Simulation
import SlicePolicy.Proofs.Addressing.Lookup
import SlicePolicy.Proofs.Addressing.Tests
import SlicePolicy.Proofs.Addressing.Behavior
import SlicePolicy.Proofs.Policy.Tagging
import SlicePolicy.Proofs.Verifier.TaggedSlice
import SlicePolicy.Proofs.Addressing.Exits
import SlicePolicy.Proofs.Query.Links
import SlicePolicy.Proofs.Verifier.LinkChecks
import SlicePolicy.Proofs.Formula.FoldedForms
import SlicePolicy.Proofs.Verifier.Equivalence
import SlicePolicy.Proofs.Verifier.Reporting
import SlicePolicy.Proofs.Policy.Admission
import SlicePolicy.Proofs.Topology.Hops
import SlicePolicy.Proofs.Json.RoundTrip
import SlicePolicy.Proofs.Encoding.Acceptance
import SlicePolicy.Proofs.Encoding.Transfer
import SlicePolicy.Proofs.Query.Observation
import SlicePolicy.Proofs.Query.Refinement
import SlicePolicy.Proofs.Verifier.ClosedQueries
import SlicePolicy.Proofs.Packet.Recipes
import SlicePolicy.Proofs.Query.PairwiseIsolation
import SlicePolicy.Proofs.Policy.ExactMatch
import SlicePolicy.Proofs.Addressing.Validation
import SlicePolicy.Proofs.Addressing.FirstRefusal
import SlicePolicy.Proofs.Formula.Refusal
import SlicePolicy.Proofs.Addressing.Injectivity
import SlicePolicy.Proofs.Verifier.Silence
import SlicePolicy.Proofs.Policy.PrintedText
import SlicePolicy.Proofs.Verifier.NormalQueries
import SlicePolicy.Proofs.Verifier.TimeLimit
import SlicePolicy.Proofs.Verifier.LeakReport
import SlicePolicy.Proofs.Policy.Traversal
import SlicePolicy.Proofs.Formula.Locality
