import OmniDrive.Main
import OmniDrive.Keyboard
import OmniDrive.Proofs.Command.Feeding
import OmniDrive.Proofs.Controller.RecentMotion
import OmniDrive.Proofs.Motor.ZeroCommand
import OmniDrive.Proofs.Telemetry.RoundTrip
import OmniDrive.Proofs.Command.Noise
import OmniDrive.Proofs.Motor.DeadTime
import OmniDrive.Proofs.Run
import OmniDrive.Proofs.Drive.Runs
import OmniDrive.Proofs.Drive.Watchdog
import OmniDrive.Proofs.Checksum.Detection
import OmniDrive.Proofs.Telemetry.Corruption
import OmniDrive.Proofs.Seek
import OmniDrive.Proofs.Command.Frames
import OmniDrive.Proofs.Command.Synchrony
import OmniDrive.Proofs.Command.Damage
import OmniDrive.Proofs.Controller.Input
import OmniDrive.Proofs.Telemetry.Pieces
import OmniDrive.Proofs.Telemetry.Windows
import OmniDrive.Proofs.Session.Runs
import OmniDrive.Proofs.Session.Staging
import OmniDrive.Proofs.Telemetry.Rewriting
import OmniDrive.Proofs.Telemetry.Canonical
import OmniDrive.Proofs.Session.Faults
import OmniDrive.Proofs.Controller.Gating
import OmniDrive.Proofs.Drive.Pace
import OmniDrive.Proofs.Controller.Gradual
import OmniDrive.Proofs.Controller.Answers
import OmniDrive.Proofs.Session.Freshness
import OmniDrive.Proofs.Bench.Axles
import OmniDrive.Proofs.Session.OnBench
import OmniDrive.Proofs.Session.RunLoop
import OmniDrive.Proofs.Motor.Correction
import OmniDrive.Proofs.Motor.Winding
import OmniDrive.Proofs.Controller.Orthogonality
import OmniDrive.Proofs.Json.Grammar
import OmniDrive.Proofs.Json.Reading
import OmniDrive.Proofs.Json.Writing
import OmniDrive.Proofs.Json.Spelling
import OmniDrive.Proofs.Json.Forms
import OmniDrive.Proofs.Json.Lossless
import OmniDrive.Proofs.Drive.Approach
import OmniDrive.Proofs.Drive.Retargeting
import OmniDrive.Proofs.Motor.PowerWindow
import OmniDrive.Proofs.Drive.Saturation
import OmniDrive.Proofs.Command.Bounds
import OmniDrive.Proofs.Drive.Repetition
import OmniDrive.Proofs.Drive.Gains
import OmniDrive.Proofs.Motor.Release
import OmniDrive.Proofs.Bench.Latching
import OmniDrive.Proofs.Controller.OnBench
import OmniDrive.Proofs.Motor.Reversal
import OmniDrive.Proofs.Checksum.Division
import OmniDrive.Proofs.Keyboard.DeadMan
