import CrashReporter.Reactor
import CrashReporter.Upload.Removal
import CrashReporter.Upload.Permission
import CrashReporter.Upload.Once
import CrashReporter.Upload.Teardown
import CrashReporter.Upload.Sequence
import CrashReporter.Upload.Progress
import CrashReporter.Upload.Counts
import CrashReporter.Upload.FirstFailure
import CrashReporter.Upload.Cancel
import CrashReporter.Upload.OwnErrors
import CrashReporter.Upload.Refusal
import CrashReporter.Upload.SuccessCount
import CrashReporter.Monitor.DaemonMonitor
import CrashReporter.Monitor.Registry
import CrashReporter.Monitor.ParentWatch
import CrashReporter.Daemon.CoreMonitoring
import CrashReporter.Endurance.CollectDaemon
import CrashReporter.Endurance.Collect
import CrashReporter.Settings.ChangeSignals
import CrashReporter.Monitor.Duplicates
import CrashReporter.Endurance.Archive
import CrashReporter.RichCore.Helper
import CrashReporter.Ui.PendingUploads
import CrashReporter.JournalSpy.Grammar
import CrashReporter.JournalSpy.Collections
import CrashReporter.Upload.ClientRuns
import CrashReporter.Endurance.Keepalive
import CrashReporter.Settings.NotificationIds
import CrashReporter.Monitor.Locations
import CrashReporter.StorageMon.Usage
import CrashReporter.Ui.ServiceState
import CrashReporter.Ui.Masking
import CrashReporter.Ui.ReportsWatch
import CrashReporter.Daemon.Startup
import CrashReporter.Endurance.UnderWay
import CrashReporter.JournalSpy.Submission
import CrashReporter.Ui.OptionalServices
import CrashReporter.Ui.ChargerThreshold
import CrashReporter.Upload.Timer
import CrashReporter.Ui.Notifications
import CrashReporter.Monitor.Surplus
import CrashReporter.System.Reports
