import ExportVolumes.CommandLine.Machine
import ExportVolumes.Filesystem.System
import ExportVolumes.Main
import ExportVolumes.Manifest.Json
import ExportVolumes.Proofs.Broadcast.Draining
import ExportVolumes.Proofs.CommandLine.Discovery
import ExportVolumes.Proofs.CommandLine.RoundTrip
import ExportVolumes.Proofs.Configuration.Layers
import ExportVolumes.Proofs.Event.RoundTrip
import ExportVolumes.Proofs.Manifest.RoundTrip
import ExportVolumes.Proofs.Provisioner.EmptyTexts
import ExportVolumes.Proofs.Provisioner.Subdirectory
import ExportVolumes.Proofs.Session.Archives
import ExportVolumes.Proofs.Session.Commuting
import ExportVolumes.Proofs.Configuration.Bounds
import ExportVolumes.Proofs.Provisioner.Staging
import ExportVolumes.Proofs.Filesystem.Rooted
import ExportVolumes.Proofs.Provisioner.Decision
import ExportVolumes.Proofs.Session.Calls
import ExportVolumes.Proofs.Filesystem.Release
import ExportVolumes.Proofs.Session.Deletion
import ExportVolumes.Proofs.Filesystem.Obstruction
import ExportVolumes.Proofs.Filesystem.Furnishing
import ExportVolumes.Proofs.Session.Provisioning
import ExportVolumes.Proofs.Text.Numeral
import ExportVolumes.Proofs.Configuration.Numbers
import ExportVolumes.Proofs.Configuration.Validation
import ExportVolumes.Proofs.Path.Climbing
import ExportVolumes.Proofs.Registry.Service
import ExportVolumes.Proofs.Layout.Suffix
import ExportVolumes.Proofs.Template.Scanning
import ExportVolumes.Proofs.Template.Composition
import ExportVolumes.Proofs.Session.Repetition
import ExportVolumes.Proofs.Filesystem.Standing
import ExportVolumes.Proofs.Session.Retrying
import ExportVolumes.Proofs.CommandLine.Failing
import ExportVolumes.Proofs.Path.Cleaning
import ExportVolumes.Proofs.Provisioner.Destination
