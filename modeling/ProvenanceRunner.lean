import ProvenanceRunner.Gateway.Credentials
import ProvenanceRunner.Gateway.Draining
import ProvenanceRunner.Gateway.LiveLog
import ProvenanceRunner.Gateway.Outbox
import ProvenanceRunner.Gateway.Settlement
import ProvenanceRunner.Network.Forwarding
import ProvenanceRunner.Network.Pinning
import ProvenanceRunner.Artifact.CacheInvariant
import ProvenanceRunner.Execution.Guarded
import ProvenanceRunner.Containers.RetirementRuns
import ProvenanceRunner.Control.ResultStream
import ProvenanceRunner.Enrollment.Convergence
import ProvenanceRunner.Evidence.Oracle
import ProvenanceRunner.Evidence.CompleteLog
import ProvenanceRunner.Evidence.LiveBound
import ProvenanceRunner.Network.Maximum
import ProvenanceRunner.Network.Resources
