import Forge.Contract.Lockfile
import Forge.Json.Rewriting
import Forge.Queue.Credits
import Forge.Queue.Consent
import Forge.Queue.Quota
import Forge.Queue.Training
import Forge.Queue.Atomicity
import Forge.Catalog.FileCatalog
import Forge.Contract.Patch
import Forge.Contract.Remigration
import Forge.Lifecycle.Audit
import Forge.Sim.ThrustTable
import Forge.Replay.SourceHash
import Forge.Replay.Verdict
import Forge.Recorder.Custody
import Forge.Ladder.Studio
import Forge.Validate.Checks
import Forge.Export.Frames
import Forge.Interop.Soundness
import Forge.Training.CurveReadback
import Forge.Desktop.ArchiveSize
import Forge.Studio.PolicyPlayback
import Forge.Codesign.SearchPatch
import Forge.Studio.RecorderAgreement
import Forge.Codesign.BatchRecovery
import Forge.Desktop.CustodyRuns
import Forge.Training.ExternalPolicy
import Forge.Contract.PatchLaws
import Forge.Geometry.Pose
import Forge.Gateway.RateLimiter
import Forge.Gateway.Idempotency
import Forge.Geometry.PolyMesh
import Forge.Gateway.PrivateAddress
import Forge.Gateway.ObjectNames
import Forge.Geometry.TriTri
import Forge.Validate.Sweep
import Forge.Training.ExportGate
import Forge.Codesign.Pareto
import Forge.Export.Bom
import Forge.Sim.Course
import Forge.Maintenance.GhostOverlay
import Forge.Geometry.MassProps
import Forge.Validate.Smoke
import Forge.Sim.Hover
import Forge.Export.Inertials
import Forge.Control.DampedStep
import Forge.Control.Servo
import Forge.Motion.Legs
import Forge.Training.GroundJoints
import Forge.Motion.Session
import Forge.Geometry.Dfm
import Forge.Studio.RapierWorker
import Forge.Studio.SessionWorker
import Forge.Studio.GhostReplay
import Forge.Geometry.Incremental
import Forge.Validate.RecorderVerdict
