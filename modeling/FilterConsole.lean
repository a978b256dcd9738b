import FilterConsole.Http.ScriptedServer
import FilterConsole.Main
import FilterConsole.Script
import FilterConsole.Store
import FilterConsole.Proofs.Effects
import FilterConsole.Proofs.Refresh
import FilterConsole.Proofs.Watch
import FilterConsole.Proofs.Verdict
import FilterConsole.Proofs.Scene
import FilterConsole.Proofs.Command
import FilterConsole.Proofs.Slot
import FilterConsole.Proofs.Lifecycle
import FilterConsole.Proofs.Scripted
import FilterConsole.Proofs.SingleFlight
import FilterConsole.Proofs.Sections
import FilterConsole.Proofs.Resort
import FilterConsole.Proofs.Cancellation
import FilterConsole.Proofs.Contents
import FilterConsole.Proofs.Freshness
import FilterConsole.Proofs.ReadYourWrites
import FilterConsole.Proofs.CommandProtocol
import FilterConsole.Proofs.ByteOrder
import FilterConsole.Proofs.Interleaving
import FilterConsole.Proofs.Lookup
import FilterConsole.Proofs.Faithful
import FilterConsole.Proofs.HttpContract
import FilterConsole.Proofs.Deliveries
import FilterConsole.Proofs.UpdateFilter
import FilterConsole.Proofs.Composition
import FilterConsole.Proofs.Beside
import FilterConsole.Proofs.Mirror
import FilterConsole.Proofs.Secrecy
import FilterConsole.Proofs.ExitStatus
import FilterConsole.Proofs.StaleRejection
import FilterConsole.Proofs.SeenOrigin
import FilterConsole.Proofs.WriteRequest
import FilterConsole.Proofs.WireDecoding
import FilterConsole.Proofs.LatencyTotals
import FilterConsole.Proofs.StableOrder
import FilterConsole.Proofs.DottedQuad
import FilterConsole.Proofs.OverrideTable
import FilterConsole.Proofs.PollCount
import FilterConsole.Proofs.DomainNames
import FilterConsole.Proofs.SettingEdits
import FilterConsole.Proofs.Resolution
import FilterConsole.Proofs.PageRows
import FilterConsole.Proofs.HitColumns
import FilterConsole.Proofs.TimestampText
import FilterConsole.Proofs.ResourceAddress
