import ScriptBridge.Text.Utf16
import ScriptBridge.Text.Quoted
import ScriptBridge.Number.Format
import ScriptBridge.Number.Reader
import ScriptBridge.Script.Equality
import ScriptBridge.Script.Printer
import ScriptBridge.Native.Printer
import ScriptBridge.Error
import ScriptBridge.Ownership
import ScriptBridge.Registry
import ScriptBridge.Event
import ScriptBridge.Host.Engine
import ScriptBridge.Instance
import ScriptBridge.Class.Hierarchy
import ScriptBridge.Module
import ScriptBridge.Conversion.ToScript
import ScriptBridge.Conversion.FromScript
import ScriptBridge.Bridge.Call
import ScriptBridge.Bridge.Loading
import ScriptBridge.Typed.Extraction
import ScriptBridge.Sample.Types
import ScriptBridge.Sample.Blueprint
import ScriptBridge.Proofs.Bridge.Anchors
import ScriptBridge.Proofs.Bridge.Callbacks
import ScriptBridge.Proofs.Bridge.Collecting
import ScriptBridge.Proofs.Bridge.Identity
import ScriptBridge.Proofs.Bridge.Lifetimes
import ScriptBridge.Proofs.Bridge.Nesting
import ScriptBridge.Proofs.Bridge.Refusals
import ScriptBridge.Proofs.Bridge.Reports
import ScriptBridge.Proofs.Bridge.Rooting
import ScriptBridge.Proofs.Bridge.Scopes
import ScriptBridge.Proofs.Bridge.Settling
import ScriptBridge.Proofs.Bridge.Surviving
import ScriptBridge.Proofs.Bridge.SymbolicNames
import ScriptBridge.Proofs.Bridge.Tidiness
import ScriptBridge.Proofs.Bridge.Wrappings
import ScriptBridge.Proofs.Class.Lookups
import ScriptBridge.Proofs.Conversion.Answering
import ScriptBridge.Proofs.Conversion.Dropping
import ScriptBridge.Proofs.Conversion.Elements
import ScriptBridge.Proofs.Conversion.Inhabiting
import ScriptBridge.Proofs.Conversion.Keys
import ScriptBridge.Proofs.Conversion.Limits
import ScriptBridge.Proofs.Conversion.Obstacles
import ScriptBridge.Proofs.Conversion.Reading
import ScriptBridge.Proofs.Conversion.Rendering
import ScriptBridge.Proofs.Conversion.Repeats
import ScriptBridge.Proofs.Conversion.Respelling
import ScriptBridge.Proofs.Conversion.Returning
import ScriptBridge.Proofs.Conversion.Twins
import ScriptBridge.Proofs.Host.Ledger
import ScriptBridge.Proofs.Host.Marking
import ScriptBridge.Proofs.Host.Naming
import ScriptBridge.Proofs.Host.Recycling
import ScriptBridge.Proofs.Matchings
import ScriptBridge.Proofs.Number.Integral
import ScriptBridge.Proofs.OwnershipCalls
import ScriptBridge.Proofs.Sample.Dispatching
import ScriptBridge.Proofs.Sample.ViewRuns
import ScriptBridge.Proofs.Script.Comparing
import ScriptBridge.Proofs.Script.Equality
import ScriptBridge.Proofs.Script.Multisets
import ScriptBridge.Proofs.Sequences
import ScriptBridge.Proofs.Text.Surrogates
import ScriptBridge.Proofs.Text.Transcoding
import ScriptBridge.Proofs.Typed.Extracting
import ScriptBridge.Proofs.Typed.Order
import ScriptBridge.Proofs.Typed.RoundTrip
