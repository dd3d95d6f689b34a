import TaskRouting.Api
import TaskRouting.Availability
import TaskRouting.Catalog.Build
import TaskRouting.Catalog.Containment
import TaskRouting.Catalog.Document
import TaskRouting.Catalog.Source
import TaskRouting.Content
import TaskRouting.Execution.Basic
import TaskRouting.Execution.Collaborators
import TaskRouting.Execution.Leaf
import TaskRouting.Executor
import TaskRouting.Fault
import TaskRouting.Identity
import TaskRouting.Instant
import TaskRouting.Json.Basic
import TaskRouting.Json.Fields
import TaskRouting.Json.Outline
import TaskRouting.Json.Printer
import TaskRouting.Json.Reader
import TaskRouting.Json.Written
import TaskRouting.Message
import TaskRouting.Number.Binary64
import TaskRouting.Number.Power
import TaskRouting.Number.Scaled
import TaskRouting.Number.Shortest
import TaskRouting.Proofs.Bound
import TaskRouting.Proofs.CallTree
import TaskRouting.Proofs.Layer
import TaskRouting.Proofs.NestedTermination
import TaskRouting.Proofs.RecursionGuard
import TaskRouting.Proofs.Setting
import TaskRouting.Proofs.Settling
import TaskRouting.Proofs.Workflow.Circles
import TaskRouting.Proofs.Workflow.Stepping
import TaskRouting.Proofs.Workflow.TableWalk
import TaskRouting.RecordId
import TaskRouting.Rehearsal.Script
import TaskRouting.Rehearsal.Session
import TaskRouting.Rehearsal.World
import TaskRouting.Response.Basic
import TaskRouting.Response.Record
import TaskRouting.Schema
import TaskRouting.Store
import TaskRouting.Table
import TaskRouting.Task.Basic
import TaskRouting.Task.Describe
import TaskRouting.Task.Execute
import TaskRouting.Task.Verdict
import TaskRouting.Text.DisplayTable
import TaskRouting.Text.Hexadecimal
import TaskRouting.Text.Quoted
import TaskRouting.Text.Uppercase
import TaskRouting.Text.UppercaseTable
import TaskRouting.Usage
import TaskRouting.Workflow.Draft
import TaskRouting.Workflow.Route
import TaskRouting.Workflow.Run
import TaskRouting.Workflow.Step
import TaskRouting.Yaml.Cursor
import TaskRouting.Yaml.Node
import TaskRouting.Yaml.Reading
import TaskRouting.Yaml.Resolve
import TaskRouting.Yaml.Scalar
import TaskRouting.Yaml.Tag
import TaskRouting.Yaml.Token
import TaskRouting.Yaml.Tokens
import TaskRouting.Proofs.Terms
import TaskRouting.Proofs.Reach
import TaskRouting.Proofs.Report
import TaskRouting.Proofs.OneRecord
import TaskRouting.Proofs.Catalog.Order
import TaskRouting.Proofs.Catalog.Entry
import TaskRouting.Proofs.Catalog.WellFormed
import TaskRouting.Proofs.Foresight
import TaskRouting.Proofs.Catalog.Circle
import TaskRouting.Proofs.Watching
import TaskRouting.Proofs.ResponseTree
import TaskRouting.Proofs.WellFormedDeed
import TaskRouting.Proofs.Chronicle
import TaskRouting.Proofs.History
import TaskRouting.Proofs.Tally
import TaskRouting.Proofs.Faults
import TaskRouting.Proofs.Cancellation
import TaskRouting.Proofs.Catalog.Rereading
import TaskRouting.Proofs.Json.Lexing
import TaskRouting.Proofs.Json.Parsing
import TaskRouting.Proofs.Keeping
import TaskRouting.Proofs.Catalog.Rearrangement
import TaskRouting.Proofs.Noninterference
import TaskRouting.Proofs.Workflow.ByHand
import TaskRouting.Proofs.Workflow.Intact
import TaskRouting.Proofs.Selection
import TaskRouting.Proofs.Workflow.Turns
import TaskRouting.Proofs.Workflow.Environment
import TaskRouting.Proofs.Workflow.Standstill
import TaskRouting.Proofs.Preparation
import TaskRouting.Proofs.LeadIn
import TaskRouting.Proofs.Workflow.Drafting
