import Zstats.Alerts.Engine
import Zstats.Scheduler.Wedge
import Zstats.Alerts.Judging
import Zstats.Alerts.Sections
import Zstats.Alerts.Reminder
import Zstats.Alerts.Pressure
import Zstats.Alerts.PressureEpisode
import Zstats.Alerts.Persistence
import Zstats.Alerts.Reach
import Zstats.Collector.Drives
import Zstats.Collector.DriveRates
import Zstats.Collector.Processes
import Zstats.Collector.Disks
import Zstats.Collector.Networks
import Zstats.Collector.RateBounds
import Zstats.Collector.RefreshWindow
import Zstats.Framework.Lines
import Zstats.Records.Files
import Zstats.Records.Reading
import Zstats.Records.Appending
import Zstats.Collector.Groups
import Zstats.Collector.GroupOrder
import Zstats.Collector.Capacity
import Zstats.Collector.Gauges
import Zstats.Collector.Presented
import Zstats.Collector.ProcessList
import Zstats.Collector.Recycled
import Zstats.Daemon.Attach
import Zstats.Daemon.Client
import Zstats.Framework.Bytes
import Zstats.Listeners.Pcblist
import Zstats.Listeners.Framing
import Zstats.Listeners.Layout
import Zstats.Listeners.RoundTrip
import Zstats.Listeners.Intruding
import Zstats.Listeners.Sockdiag
import Zstats.Listeners.Dump
import Zstats.Listeners.Flows
import Zstats.Listeners.DumpRoundTrip
import Zstats.Framework.FirstClaim
import Zstats.Listeners.Procnet
import Zstats.Listeners.Owners
import Zstats.Collector.Reattached
import Zstats.Daemon.Retention
import Zstats.Alerts.Bookkeeping
import Zstats.Alerts.Isolation
import Zstats.Alerts.DiskCrossing
import Zstats.Framework.Ranking
import Zstats.Alerts.Coverage
import Zstats.Framework.Grouping
import Zstats.Collector.GroupSums
import Zstats.Alerts.Precedence
import Zstats.Framework.FloatText
import Zstats.Settings.Parsing
import Zstats.Settings.Edit
import Zstats.Settings.Places
import Zstats.Settings.Keys
import Zstats.Settings.Targeted
import Zstats.Framework.Quantity
import Zstats.Settings.Amounts
import Zstats.Settings.Printed
import Zstats.Framework.Glob
import Zstats.Alerts.Patterns
import Zstats.Collector.Selection
import Zstats.Collector.Dedupe
import Zstats.Rolling.Entries
import Zstats.Rolling.Seen
import Zstats.Rolling.Weighting
import Zstats.Framework.Switchable
import Zstats.Collector.Switching
import Zstats.Framework.Collapse
import Zstats.Listeners.Canonical
import Zstats.Listeners.Diag
import Zstats.Listeners.Copied
import Zstats.Listeners.Torn
import Zstats.Framework.Numeral
import Zstats.Framework.Columns
import Zstats.Framework.Pieces
import Zstats.Listeners.ProcTable
import Zstats.Listeners.ProcGrammar
import Zstats.Listeners.Signs
import Zstats.Listeners.ProcPrinted
import Zstats.Listeners.Linux
import Zstats.Listeners.Macos
import Zstats.Scheduler.Dispatch
import Zstats.Daemon.AlertSink
import Zstats.Monitor
import Zstats.Collector.Assembly
import Zstats.Framework.Fielded
import Zstats.Framework.FloatRounding
import Zstats.Settings.Toml
import Zstats.Settings.Store
import Zstats.Daemon.Lagging
import Zstats.Daemon.Prompt
