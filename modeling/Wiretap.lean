import Wiretap.Main
import Wiretap.Proofs.Plan
import Wiretap.RelayScript
import Wiretap.Site
import Wiretap.UnboundedFlow
import Wiretap.Proofs.Obedience
import Wiretap.Proofs.Paths
import Wiretap.Proofs.Course
import Wiretap.Proofs.Frames
import Wiretap.Proofs.Lifecycle
import Wiretap.Proofs.Conversation
import Wiretap.Proofs.Trace
import Wiretap.Proofs.Writer
import Wiretap.Proofs.Interruption
import Wiretap.Proofs.Reached
import Wiretap.Proofs.Datagrams
import Wiretap.Proofs.Forwarding
import Wiretap.Proofs.Batches
import Wiretap.Proofs.OwedHeader
import Wiretap.Proofs.Pausing
import Wiretap.Proofs.Sharing
import Wiretap.Proofs.Framing
import Wiretap.Proofs.Isolation
import Wiretap.Proofs.SnapLength
import Wiretap.Proofs.Decoding
import Wiretap.Proofs.Schedule
import Wiretap.Proofs.Delivery
import Wiretap.Proofs.Ending
import Wiretap.Proofs.Reading
import Wiretap.Proofs.Deeds
import Wiretap.Proofs.Changes
import Wiretap.Proofs.Upkeep
import Wiretap.Proofs.Grammar
import Wiretap.Proofs.Likeness
import Wiretap.Proofs.Viewpoint
import Wiretap.Proofs.GivenEnds
import Wiretap.Proofs.Normalizing
import Wiretap.Proofs.HalfClose
import Wiretap.Proofs.StreamFailure
import Wiretap.Proofs.WriterCalls
import Wiretap.Proofs.Segmentation
import Wiretap.Proofs.RecordedDatagrams
import Wiretap.Proofs.Poisoning
import Wiretap.Proofs.RecordTimes
import Wiretap.Proofs.Wrapping
import Wiretap.Proofs.Directories
import Wiretap.Proofs.Overriding
import Wiretap.Proofs.Rebinding
