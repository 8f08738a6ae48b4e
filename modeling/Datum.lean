import Datum.Exchange
import Datum.Machine
import Datum.Proofs.Behavior.Payload
import Datum.Proofs.Coercion.Mirror
import Datum.Proofs.Coercion.Numbers
import Datum.Proofs.Single.Number
import Datum.Proofs.Storage.Row
import Datum.Script.Interpreter
import Datum.Value.Equality
import Datum.Proofs.Behavior.TotalOrder
import Datum.Proofs.Behavior.Failure
import Datum.Proofs.Value.Grouping
import Datum.Proofs.Coercion.CommonKind
import Datum.Proofs.Coercion.Aggregate
import Datum.Proofs.Coercion.Alike
import Datum.Proofs.Coercion.Congruence
import Datum.Proofs.Coercion.Bounds
import Datum.Proofs.Coercion.Strings
import Datum.Proofs.Text.Lines
import Datum.Proofs.Script.Outline
import Datum.Proofs.Script.Accounting
import Datum.Proofs.Script.Playback
import Datum.Proofs.Script.Regeneration
import Datum.Proofs.Script.Update
import Datum.Proofs.Script.Consumption
import Datum.Proofs.Text.Utf8
import Datum.Proofs.Text.Digits
import Datum.Proofs.Value.Literal
import Datum.Proofs.Single.Text
import Datum.Proofs.Json.Exchange
import Datum.Proofs.Behavior.Operands
import Datum.Proofs.Storage.Slot
import Datum.Proofs.Value.Numeric
import Datum.Proofs.Value.FloatLiteral
import Datum.Date.Packed
import Datum.Proofs.Date.Packed
import Datum.Proofs.Coercion.Operators
import Datum.Proofs.Value.DateLiteral
import Datum.Proofs.Date.TextOrder
import Datum.Proofs.Script.ArgumentText
import Datum.Proofs.Value.Padding
import Datum.Proofs.Kind
import Datum.Proofs.Diagnostic.Causes
import Datum.Proofs.Diagnostic.Rendering
import Datum.Proofs.Script.Difference
import Datum.Proofs.Script.Decoding
