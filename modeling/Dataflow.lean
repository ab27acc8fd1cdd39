import Dataflow.Bench.Units
import Dataflow.Channel.Text
import Dataflow.Graph.Text
import Dataflow.Main
import Dataflow.Plan.Edit
import Dataflow.Proofs.Assembly.Frames
import Dataflow.Proofs.Bundle.Outlet
import Dataflow.Proofs.Channel.Blocking
import Dataflow.Proofs.Domain.Overflow
import Dataflow.Proofs.Graph.Canonical
import Dataflow.Proofs.Graph.Construction
import Dataflow.Proofs.Graph.Drawing
import Dataflow.Proofs.Graph.Removal
import Dataflow.Proofs.Insertion.Certificate
import Dataflow.Proofs.Insertion.Domains
import Dataflow.Proofs.Insertion.Limits
import Dataflow.Proofs.Insertion.Periods
import Dataflow.Proofs.Insertion.Report
import Dataflow.Proofs.Insertion.Revalidation
import Dataflow.Proofs.Insertion.Types
import Dataflow.Proofs.Plan.Certificate
import Dataflow.Proofs.Plan.Coverage
import Dataflow.Proofs.Plan.Members
import Dataflow.Proofs.Plan.Schedule
import Dataflow.Proofs.Plan.Sharing
import Dataflow.Proofs.Transport.Framing
import Dataflow.Proofs.Worker.Determinacy
import Dataflow.Proofs.Worker.Startup
import Dataflow.Proofs.Worker.Workplace
import Dataflow.Proofs.Graph.DotReading
