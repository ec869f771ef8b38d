import Triage.Build
import Triage.Cleaning
import Triage.Clustering
import Triage.CommandLine
import Triage.Config
import Triage.Config.File
import Triage.Daemon
import Triage.Defect
import Triage.Detection
import Triage.Document
import Triage.Error
import Triage.History
import Triage.Issue
import Triage.Issue.Type
import Triage.Json
import Triage.Json.Reader
import Triage.Log
import Triage.Log.Filter
import Triage.Log.Render
import Triage.Main
import Triage.Notification
import Triage.Number.Decimal
import Triage.Number.Word
import Triage.Ordered.Key
import Triage.Ordered.Map
import Triage.Ordered.Set
import Triage.Persistence.Basic
import Triage.Persistence.Build
import Triage.Persistence.Config
import Triage.Persistence.Defect
import Triage.Persistence.History
import Triage.Persistence.Issue
import Triage.Proofs.Cleaning
import Triage.Proofs.Cleaning.Budget
import Triage.Proofs.Cleaning.Detachment
import Triage.Proofs.Cleaning.Effect
import Triage.Proofs.Cleaning.Links
import Triage.Proofs.Clustering.Components
import Triage.Proofs.Clustering.Effect
import Triage.Proofs.Clustering.Halfway
import Triage.Proofs.Clustering.Holder
import Triage.Proofs.Clustering.Idempotence
import Triage.Proofs.Clustering.Likeness
import Triage.Proofs.Clustering.Lineage
import Triage.Proofs.Clustering.Merge
import Triage.Proofs.Clustering.Ownership
import Triage.Proofs.Clustering.Placement
import Triage.Proofs.Clustering.Renaming
import Triage.Proofs.Clustering.Repair
import Triage.Proofs.Clustering.Report
import Triage.Proofs.Clustering.Representation
import Triage.Proofs.Clustering.Servers
import Triage.Proofs.Clustering.Supersession
import Triage.Proofs.Commit
import Triage.Proofs.Defect
import Triage.Proofs.Detection
import Triage.Proofs.Detection.Coverage
import Triage.Proofs.Detection.Flakiness
import Triage.Proofs.Detection.Recurrence
import Triage.Proofs.Detection.Registration
import Triage.Proofs.Evolution
import Triage.Proofs.Execution
import Triage.Proofs.Histories
import Triage.Proofs.History
import Triage.Proofs.Interruption
import Triage.Proofs.Json
import Triage.Proofs.Notification.Delivery
import Triage.Proofs.Notification.Due
import Triage.Proofs.Notification.Effect
import Triage.Proofs.Notification.Interruption
import Triage.Proofs.Notification.Isolation
import Triage.Proofs.Notification.Marks
import Triage.Proofs.Notification.Queue
import Triage.Proofs.Notification.Sections
import Triage.Proofs.Number.Decimal
import Triage.Proofs.Number.Digits
import Triage.Proofs.Operation
import Triage.Proofs.Ordered
import Triage.Proofs.Periodic
import Triage.Proofs.Persistence
import Triage.Proofs.Persistence.Records
import Triage.Proofs.Schedule.Clock
import Triage.Proofs.Schedule.Contention
import Triage.Proofs.Schedule.Journal
import Triage.Proofs.Schedule.Quiet
import Triage.Proofs.Schedule.Registry
import Triage.Proofs.Schedule.Requests
import Triage.Proofs.Schedule.Runs
import Triage.Proofs.Schedule.Sessions
import Triage.Proofs.Schedule.Workers
import Triage.Proofs.Store
import Triage.Proofs.Template
import Triage.Proofs.Template.Search
import Triage.Proofs.Template.Wildcard
import Triage.Proofs.Text.Hex
import Triage.Proofs.Time
import Triage.Proofs.Time.Calendar
import Triage.Proofs.Time.Rfc3339
import Triage.Proofs.Window
import Triage.Schedule.Command
import Triage.Schedule.Journal
import Triage.Schedule.Registry
import Triage.Schedule.Task
import Triage.Schedule.Worker
import Triage.Scheduler
import Triage.Service
import Triage.Service.Intervention
import Triage.Service.Job
import Triage.Store
import Triage.Store.Defects
import Triage.Store.Histories
import Triage.Store.Issues
import Triage.Template
import Triage.Text.Blank
import Triage.Text.Hex
import Triage.Text.Quoted
import Triage.Text.Unprintable
import Triage.Time.Calendar
import Triage.Time.Rfc3339
import Triage.Time.Timestamp
import Triage.Toml
import Triage.Toml.Reader
import Triage.Toml.Scalar
import Triage.Work
