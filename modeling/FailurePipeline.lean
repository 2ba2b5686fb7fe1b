import FailurePipeline.Json.Choice
import FailurePipeline.Main
import FailurePipeline.Proofs.DeadLetter.Archives
import FailurePipeline.Proofs.DeadLetter.Documents
import FailurePipeline.Proofs.Dispatch.Settlement
import FailurePipeline.Proofs.Intake.Rereading
import FailurePipeline.Proofs.Intake.Stopping
import FailurePipeline.Proofs.Interpolation.Concatenation
import FailurePipeline.Proofs.Interpolation.LineBreaks
import FailurePipeline.Proofs.Pipeline.Backpressure
import FailurePipeline.Proofs.Pipeline.Bookkeeping
import FailurePipeline.Proofs.Pipeline.Ownership
import FailurePipeline.Proofs.Program.Conservation
import FailurePipeline.Proofs.Program.Starting
import FailurePipeline.Proofs.Program.Throughput
import FailurePipeline.Proofs.Service.Afterwards
import FailurePipeline.Proofs.Service.Awaiting
import FailurePipeline.Proofs.Service.BoundedDrain
import FailurePipeline.Proofs.Service.Endurance
import FailurePipeline.Proofs.Service.Joining
import FailurePipeline.Proofs.Service.OneWay
import FailurePipeline.Proofs.Storage.PrivateMap
