import BinaryRecord.Session
import BinaryRecord.Stream.RecordReader
import BinaryRecord.Stream.RecordWriter
import BinaryRecord.Proofs.Field.Expansion
import BinaryRecord.Proofs.Field.Float
import BinaryRecord.Proofs.Field.FloatLimit
import BinaryRecord.Proofs.Field.Image
import BinaryRecord.Proofs.Field.ImagesOf
import BinaryRecord.Proofs.Field.Integer
import BinaryRecord.Proofs.Field.Mirror
import BinaryRecord.Proofs.Field.RoundTrip
import BinaryRecord.Proofs.Field.Runs
import BinaryRecord.Proofs.Field.StoredFloat
import BinaryRecord.Proofs.FloatFormat.Convert
import BinaryRecord.Proofs.FloatFormat.Double
import BinaryRecord.Proofs.FloatFormat.Nearest
import BinaryRecord.Proofs.FloatFormat.Number
import BinaryRecord.Proofs.FloatFormat.Order
import BinaryRecord.Proofs.FloatFormat.Units
import BinaryRecord.Proofs.Format.Append
import BinaryRecord.Proofs.Format.Fault
import BinaryRecord.Proofs.Format.Grammar
import BinaryRecord.Proofs.Format.Parse
import BinaryRecord.Proofs.Layout.AnyOffsets
import BinaryRecord.Proofs.Layout.Exact
import BinaryRecord.Proofs.Layout.Least
import BinaryRecord.Proofs.Layout.Order
import BinaryRecord.Proofs.Layout.Padding
import BinaryRecord.Proofs.Layout.Placement
import BinaryRecord.Proofs.Outcome
import BinaryRecord.Proofs.Schema.Agreement
import BinaryRecord.Proofs.Schema.Concatenation
import BinaryRecord.Proofs.Schema.FloatOrder
import BinaryRecord.Proofs.Schema.Floats
import BinaryRecord.Proofs.Schema.Gaps
import BinaryRecord.Proofs.Schema.Images
import BinaryRecord.Proofs.Schema.Integers
import BinaryRecord.Proofs.Schema.ListCursor
import BinaryRecord.Proofs.Schema.Marker
import BinaryRecord.Proofs.Schema.Mirror
import BinaryRecord.Proofs.Schema.Pack
import BinaryRecord.Proofs.Schema.PackInto
import BinaryRecord.Proofs.Schema.RecordCursor
import BinaryRecord.Proofs.Schema.Refusal
import BinaryRecord.Proofs.Schema.Repeat
import BinaryRecord.Proofs.Schema.RoundTrip
import BinaryRecord.Proofs.Schema.Safety
import BinaryRecord.Proofs.Schema.WellFormed
import BinaryRecord.Proofs.Session.Memory
import BinaryRecord.Proofs.Stream.Batch
import BinaryRecord.Proofs.Stream.BufferedReader
import BinaryRecord.Proofs.Stream.Calls
import BinaryRecord.Proofs.Stream.Framing
import BinaryRecord.Proofs.Stream.ReadBack
import BinaryRecord.Proofs.Stream.RecordReader
import BinaryRecord.Proofs.Stream.RecordWriter
import BinaryRecord.Proofs.Stream.Sink
import BinaryRecord.Proofs.Stream.Source
import BinaryRecord.Proofs.Window.Fields
import BinaryRecord.Proofs.Window.Memory
import BinaryRecord.Proofs.Window.Slice
import BinaryRecord.Proofs.Word
