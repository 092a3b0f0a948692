import ScriptBridge.Number.Decimal
import ScriptBridge.Number.Reader
import ScriptBridge.Text.Blank
import ScriptBridge.Text.Utf8
import ScriptBridge.Host.Conversion
import ScriptBridge.Report
import ScriptBridge.Options
import ScriptBridge.Handle
import ScriptBridge.Host.Registry
import ScriptBridge.Script.Value
import ScriptBridge.Bridge.Coercion
import ScriptBridge.Bridge.Dispatch
import ScriptBridge.Bridge.Body
import ScriptBridge.Machine.State
import ScriptBridge.Session.Globals
import ScriptBridge.Session.Coroutine
import ScriptBridge.Session.TableView
import ScriptBridge.Command
import ScriptBridge.Main
import ScriptBridge.Proofs.ClosedType
import ScriptBridge.Proofs.Coercion
import ScriptBridge.Proofs.EqualArguments
import ScriptBridge.Proofs.HandleMap
import ScriptBridge.Proofs.OperatorClass
import ScriptBridge.Proofs.Operation
import ScriptBridge.Proofs.Pinning
import ScriptBridge.Proofs.Refusal
import ScriptBridge.Proofs.Resuming
import ScriptBridge.Proofs.Session
import ScriptBridge.Proofs.Substitution
import ScriptBridge.Proofs.TableCoercion
import ScriptBridge.Proofs.Talk
import ScriptBridge.Proofs.Target
import ScriptBridge.Proofs.Doubles
import ScriptBridge.Proofs.Nested
import ScriptBridge.Proofs.SameValue
import ScriptBridge.Proofs.Arrival
import ScriptBridge.Proofs.RoundTrip
import ScriptBridge.Proofs.Binding
import ScriptBridge.Proofs.Defaults
import ScriptBridge.Proofs.Selection
import ScriptBridge.Proofs.TypeArguments
import ScriptBridge.Proofs.Acceptance
import ScriptBridge.Proofs.Receiver
import ScriptBridge.Proofs.Redeclaration
import ScriptBridge.Proofs.IntegerCoercion
import ScriptBridge.Proofs.DepthLimit
import ScriptBridge.Proofs.Shadowing
import ScriptBridge.Proofs.Leftover
import ScriptBridge.Proofs.ViewMap
import ScriptBridge.Proofs.HandedBack
import ScriptBridge.Proofs.Crossing
import ScriptBridge.Proofs.ReferenceKeys
import ScriptBridge.Proofs.Presence
import ScriptBridge.Proofs.EventSource
import ScriptBridge.Proofs.EqualConversion
import ScriptBridge.Proofs.Accessors
