import BetterHindsight.Config
import BetterHindsight.Destination
import BetterHindsight.Formatting.Crowding
import BetterHindsight.Formatting.Query
import BetterHindsight.Formatting.Recall
import BetterHindsight.Formatting.Reflection
import BetterHindsight.Formatting.Selection
import BetterHindsight.Formatting.Unframing
import BetterHindsight.Foundations.Dict
import BetterHindsight.Foundations.Fields
import BetterHindsight.Foundations.JsonCanonical
import BetterHindsight.Foundations.JsonDecode
import BetterHindsight.Foundations.JsonEqual
import BetterHindsight.Foundations.Regex
import BetterHindsight.Foundations.Runs
import BetterHindsight.Foundations.Substitution
import BetterHindsight.Foundations.Utf8
import BetterHindsight.Management.Apply
import BetterHindsight.Management.Missions
import BetterHindsight.MentalModels.Allowance
import BetterHindsight.MentalModels.Calls
import BetterHindsight.MentalModels.Content
import BetterHindsight.MentalModels.Frame
import BetterHindsight.MentalModels.Pagination
import BetterHindsight.MentalModels.Policy
import BetterHindsight.MentalModels.Refreshes
import BetterHindsight.MentalModels.Tree
import BetterHindsight.Multimodal
import BetterHindsight.Multimodal.Delivery
import BetterHindsight.Outbox.Admission
import BetterHindsight.Outbox.AdmissionSpec
import BetterHindsight.Outbox.Capacity
import BetterHindsight.Outbox.Eligibility
import BetterHindsight.Outbox.Handle
import BetterHindsight.Outbox.Histories
import BetterHindsight.Outbox.Overtaking
import BetterHindsight.Outbox.Status
import BetterHindsight.Outbox.Transitions
import BetterHindsight.Planner.Capsule
import BetterHindsight.Planner.Convergence
import BetterHindsight.Planner.EvaluationCapture
import BetterHindsight.Planner.Isolation
import BetterHindsight.Planner.MailboxOrphans
import BetterHindsight.Planner.MailboxRuns
import BetterHindsight.Planner.Prefetch
import BetterHindsight.Planner.SessionOrder
import BetterHindsight.Planner.SessionSwitch
import BetterHindsight.Planner.TurnFence
import BetterHindsight.Provider.Handle
import BetterHindsight.Redaction
import BetterHindsight.Redaction.Growth
import BetterHindsight.Redaction.Marks
import BetterHindsight.Retention.Builder
import BetterHindsight.Retention.Paragraphs
import BetterHindsight.Retention.Quotes
import BetterHindsight.Retention.Records
import BetterHindsight.Retention.Smallest
import BetterHindsight.Retention.Turns
import BetterHindsight.Runtime.AsyncRunner
import BetterHindsight.Runtime.Delivery
import BetterHindsight.Runtime.Destinations
import BetterHindsight.Runtime.Diagnostics
import BetterHindsight.Runtime.InFlight
import BetterHindsight.Runtime.Ownership
import BetterHindsight.Runtime.ProcessRuntimes
import BetterHindsight.Runtime.ReadyQueue
import BetterHindsight.Runtime.RetryDelay
import BetterHindsight.Runtime.Sender
import BetterHindsight.Runtime.Wakeups
import BetterHindsight.Watchdog.Damage
import BetterHindsight.Watchdog.Stream
import BetterHindsight.Watchdog.Window
