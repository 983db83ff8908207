import Casework.Access.ContactField
import Casework.Access.Context
import Casework.Access.Membership
import Casework.Access.Permission
import Casework.Access.Recipient
import Casework.Access.Role
import Casework.Access.Sender
import Casework.Access.Store
import Casework.Audit.Store
import Casework.Contact.Basic
import Casework.Contact.Change
import Casework.Contact.Store
import Casework.Definition.Basic
import Casework.Definition.Issue
import Casework.Definition.Place
import Casework.Definition.Reading
import Casework.Definition.Record
import Casework.Definition.Store
import Casework.Definition.Validation
import Casework.Entries
import Casework.Execution.Basic
import Casework.Execution.Engine
import Casework.Execution.Report
import Casework.Execution.Status
import Casework.Execution.Store
import Casework.Execution.Trigger
import Casework.Failure
import Casework.Json.Basic
import Casework.Json.Fault
import Casework.Json.Key
import Casework.Json.Plain
import Casework.Json.Reader
import Casework.Json.Writer
import Casework.Notice.Basic
import Casework.Notice.Sending
import Casework.Notice.Store
import Casework.Number.Basic
import Casework.Number.Binary64
import Casework.Number.Layout
import Casework.Number.Shortest
import Casework.Number.Sorting
import Casework.Program.Instruction
import Casework.Program.Lowering
import Casework.Program.Plan
import Casework.Program.StepId
import Casework.Program.StoredStep
import Casework.Program.Variables
import Casework.Program.Walk
import Casework.Proofs.Access.ContactField
import Casework.Proofs.Access.Context
import Casework.Proofs.Access.Recipient
import Casework.Proofs.Access.Role
import Casework.Proofs.Access.Sender
import Casework.Proofs.Contact.Visibility
import Casework.Proofs.Definition.Grammar
import Casework.Proofs.Definition.Meaning
import Casework.Proofs.Definition.Parts
import Casework.Proofs.Definition.Pointing
import Casework.Proofs.Definition.Reading
import Casework.Proofs.Definition.Sources
import Casework.Proofs.Definition.Standards
import Casework.Proofs.Definition.Statuses
import Casework.Proofs.Definition.Trail
import Casework.Proofs.Execution.Attempt
import Casework.Proofs.Execution.Report
import Casework.Proofs.Execution.Snapshot
import Casework.Proofs.Execution.Start
import Casework.Proofs.Execution.Status
import Casework.Proofs.Notice.Sending
import Casework.Proofs.Number.Order
import Casework.Proofs.Number.Sorting
import Casework.Proofs.Program.Audience
import Casework.Proofs.Program.AuthoredId
import Casework.Proofs.Program.Authors
import Casework.Proofs.Program.Branching
import Casework.Proofs.Program.Census
import Casework.Proofs.Program.Choice
import Casework.Proofs.Program.Course
import Casework.Proofs.Program.CustomPaths
import Casework.Proofs.Program.Jump
import Casework.Proofs.Program.Layout
import Casework.Proofs.Program.Links
import Casework.Proofs.Program.Origin
import Casework.Proofs.Program.Planning
import Casework.Proofs.Program.Preservation
import Casework.Proofs.Program.Simulation
import Casework.Proofs.Program.StepId
import Casework.Proofs.Program.Tour
import Casework.Proofs.Program.Variables
import Casework.Proofs.Program.Wait
import Casework.Proofs.Program.WellFormed
import Casework.Proofs.Result
import Casework.Proofs.Run.Act
import Casework.Proofs.Run.Calls
import Casework.Proofs.Run.Coupling
import Casework.Proofs.Run.Decision
import Casework.Proofs.Run.Duration
import Casework.Proofs.Run.Ending
import Casework.Proofs.Run.Inbox
import Casework.Proofs.Run.Limit
import Casework.Proofs.Run.Notify
import Casework.Proofs.Run.Report
import Casework.Proofs.Run.Schedule
import Casework.Proofs.Run.Seeded
import Casework.Proofs.Run.Setup
import Casework.Proofs.Run.Status
import Casework.Proofs.Run.Step
import Casework.Proofs.Run.TaskToken
import Casework.Proofs.Run.Together
import Casework.Proofs.Run.Wait
import Casework.Proofs.Run.Whole
import Casework.Proofs.Store.Audit
import Casework.Proofs.Store.Commuting
import Casework.Proofs.Store.Confined
import Casework.Proofs.Store.Contact
import Casework.Proofs.Store.Frame
import Casework.Proofs.Store.Senders
import Casework.Proofs.Store.View
import Casework.Proofs.Store.Writing
import Casework.Proofs.Store.Written
import Casework.Proofs.Task.Answer
import Casework.Proofs.Task.Claim
import Casework.Proofs.Task.Claimant
import Casework.Proofs.Task.Course
import Casework.Proofs.Task.Creation
import Casework.Proofs.Task.Delivery
import Casework.Proofs.Task.Entitlement
import Casework.Proofs.Task.Length
import Casework.Proofs.Task.Lifetime
import Casework.Proofs.Task.Office
import Casework.Proofs.Task.Operations
import Casework.Proofs.Task.Phases
import Casework.Proofs.Task.PreviousStatus
import Casework.Proofs.Task.Provenance
import Casework.Proofs.Task.Requirement
import Casework.Proofs.Task.Row
import Casework.Proofs.Task.SideEffects
import Casework.Proofs.Task.Turns
import Casework.Proofs.Task.Vocabulary
import Casework.Proofs.Task.Winner
import Casework.Proofs.Template.BranchField
import Casework.Proofs.Template.Cutting
import Casework.Proofs.Template.FriendlyKey
import Casework.Proofs.Template.Passage
import Casework.Proofs.Template.Reference
import Casework.Proofs.Template.Substitution
import Casework.Proofs.Template.Token
import Casework.Proofs.Text.Blank
import Casework.Proofs.Text.Lowercase
import Casework.Proofs.Time.Calendar
import Casework.Proofs.Time.Spelling
import Casework.Proofs.Time.Universal
import Casework.Proofs.Web.Deeds
import Casework.Proofs.Web.Isolation
import Casework.Proofs.Web.Refusal
import Casework.Proofs.Web.Trail
import Casework.Proofs.Web.Visibility
import Casework.Run.Activities
import Casework.Run.Inbox
import Casework.Run.Interpreter
import Casework.Run.State
import Casework.Setting
import Casework.Store.Column
import Casework.Store.Records
import Casework.Store.Session
import Casework.Task.Basic
import Casework.Task.Changes
import Casework.Task.Dialogue
import Casework.Task.Lifecycle
import Casework.Task.Service
import Casework.Task.Store
import Casework.Template.FriendlyKey
import Casework.Template.Reference
import Casework.Template.Resolution
import Casework.Template.Segment
import Casework.Template.Token
import Casework.Text.Blank
import Casework.Text.Lowercase
import Casework.Text.Numeral
import Casework.Text.Percent
import Casework.Text.Printable
import Casework.Text.Quoted
import Casework.Text.Word
import Casework.Time.Date
import Casework.Time.Moment
import Casework.Time.Reader
import Casework.Web.Path
import Casework.Web.Payload
import Casework.Web.Response
import Casework.Web.Route
import Casework.Web.Service
