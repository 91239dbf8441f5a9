import CallBoundary.Address
import CallBoundary.Arguments
import CallBoundary.Attempt
import CallBoundary.Boundary
import CallBoundary.Bytes
import CallBoundary.Fault
import CallBoundary.Frame
import CallBoundary.Gas
import CallBoundary.Host
import CallBoundary.Interpreter.RunningSum
import CallBoundary.Json
import CallBoundary.Json.Choice
import CallBoundary.Overlay
import CallBoundary.Program
import CallBoundary.Proofs.Access
import CallBoundary.Proofs.AmountBytes
import CallBoundary.Proofs.Authority
import CallBoundary.Proofs.Bounding
import CallBoundary.Proofs.CallContexts
import CallBoundary.Proofs.CallDepth
import CallBoundary.Proofs.Charges
import CallBoundary.Proofs.CodeEntries
import CallBoundary.Proofs.Conservation
import CallBoundary.Proofs.Consumption
import CallBoundary.Proofs.Content
import CallBoundary.Proofs.Copies
import CallBoundary.Proofs.CopiesRefinement
import CallBoundary.Proofs.Counting
import CallBoundary.Proofs.CutLists
import CallBoundary.Proofs.DeployedCode
import CallBoundary.Proofs.DeploymentAddresses
import CallBoundary.Proofs.EmptyValues
import CallBoundary.Proofs.EntryPoints
import CallBoundary.Proofs.ExactTransfers
import CallBoundary.Proofs.Exhaustion
import CallBoundary.Proofs.FailedAccess
import CallBoundary.Proofs.FaultTexts
import CallBoundary.Proofs.Fields
import CallBoundary.Proofs.GasBooks
import CallBoundary.Proofs.Grounds
import CallBoundary.Proofs.Invocations
import CallBoundary.Proofs.JsonRecords
import CallBoundary.Proofs.JsonTokens
import CallBoundary.Proofs.JsonValues
import CallBoundary.Proofs.Launches
import CallBoundary.Proofs.Lookalikes
import CallBoundary.Proofs.Machine
import CallBoundary.Proofs.MappedRuns
import CallBoundary.Proofs.Metering
import CallBoundary.Proofs.Moments
import CallBoundary.Proofs.Nesting
import CallBoundary.Proofs.Outcomes
import CallBoundary.Proofs.OwnCharges
import CallBoundary.Proofs.Packing
import CallBoundary.Proofs.Postings
import CallBoundary.Proofs.Reading
import CallBoundary.Proofs.RecordedGas
import CallBoundary.Proofs.RecordedRuns
import CallBoundary.Proofs.Records
import CallBoundary.Proofs.Runs
import CallBoundary.Proofs.SettingsText
import CallBoundary.Proofs.Settlement
import CallBoundary.Proofs.SiblingCalls
import CallBoundary.Proofs.SideBySide
import CallBoundary.Proofs.SumRuns
import CallBoundary.Proofs.SumVisits
import CallBoundary.Proofs.TopCommits
import CallBoundary.Proofs.Totals
import CallBoundary.Proofs.Traces
import CallBoundary.Proofs.Transfers
import CallBoundary.Proofs.TwinRuns
import CallBoundary.Proofs.WiderLimits
import CallBoundary.Proofs.WrittenLengths
import CallBoundary.Report
import CallBoundary.Script
import CallBoundary.Script.Frame
import CallBoundary.Script.Overlay
import CallBoundary.Script.Session
import CallBoundary.Settings
import CallBoundary.Settings.Text
import CallBoundary.State
import CallBoundary.Trace
import CallBoundary.Wire
