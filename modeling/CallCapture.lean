import CallCapture.Call
import CallCapture.Coercion.Basic
import CallCapture.Diagnostic
import CallCapture.Double.Basic
import CallCapture.Double.Shortest
import CallCapture.Double.Text
import CallCapture.Dump
import CallCapture.Dump.Grammar
import CallCapture.Json.Basic
import CallCapture.Json.Capture
import CallCapture.Lookup
import CallCapture.Outline
import CallCapture.Proofs.Call.History
import CallCapture.Proofs.Coercion.Contract
import CallCapture.Proofs.Double.Digits
import CallCapture.Proofs.Double.Grids
import CallCapture.Proofs.Double.Reading
import CallCapture.Proofs.Double.Rounding
import CallCapture.Proofs.Double.Spacing
import CallCapture.Proofs.Dump.Canonical
import CallCapture.Proofs.Dump.Delivery
import CallCapture.Proofs.Dump.Elision
import CallCapture.Proofs.Dump.Framing
import CallCapture.Proofs.Dump.Numbers
import CallCapture.Proofs.Dump.Rendering
import CallCapture.Proofs.Dump.Rounds
import CallCapture.Proofs.Dump.Strings
import CallCapture.Proofs.Json.Numbers
import CallCapture.Proofs.Json.Reading
import CallCapture.Proofs.Json.Sketches
import CallCapture.Proofs.Lookup.Ledger
import CallCapture.Proofs.Lookup.Scanning
import CallCapture.Proofs.Lookup.Simulation
import CallCapture.Proofs.Lookup.Transparency
import CallCapture.Proofs.Sink.Delivery
import CallCapture.Proofs.Utf8.Encoding
import CallCapture.Proofs.Utf8.Segmentation
import CallCapture.Proofs.Utf8.Validation
import CallCapture.Proofs.Value.Equality
import CallCapture.Proofs.Value.Hidden
import CallCapture.Proofs.Walk.Nesting
import CallCapture.Proofs.Walk.Traversals
import CallCapture.Sink
import CallCapture.Tally
import CallCapture.Text.Numeral
import CallCapture.Text.Quoted
import CallCapture.Text.Utf8
import CallCapture.Value.Basic
import CallCapture.Value.Equality
import CallCapture.Value.Payload
import CallCapture.Value.Reduced
import CallCapture.Walk
