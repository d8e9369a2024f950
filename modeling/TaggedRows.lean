import TaggedRows.Cell
import TaggedRows.CommandLine.Invocation
import TaggedRows.CommandLine.Options
import TaggedRows.CommandLine.Run
import TaggedRows.Dump
import TaggedRows.Error
import TaggedRows.Failure
import TaggedRows.FoldedRow
import TaggedRows.Ingest.EventTable
import TaggedRows.Ingest.Intake
import TaggedRows.Ingest.RowBuffer
import TaggedRows.Json.Fields
import TaggedRows.Json.Numeral
import TaggedRows.Json.Printer
import TaggedRows.Json.Reader
import TaggedRows.Json.Token
import TaggedRows.Json.Value
import TaggedRows.Record.Basic
import TaggedRows.Record.Entity
import TaggedRows.Record.Kind
import TaggedRows.Record.LabelPolicy
import TaggedRows.Record.LogRecord
import TaggedRows.Row
import TaggedRows.RowKey.Layout
import TaggedRows.RowKey.Shard
import TaggedRows.RowRange
import TaggedRows.Schema.Cell
import TaggedRows.Schema.EventTable
import TaggedRows.Schema.Record
import TaggedRows.Settings
import TaggedRows.SortedMap
import TaggedRows.Store.Basic
import TaggedRows.Store.Faulty
import TaggedRows.Store.Map
import TaggedRows.Stream.Cursor
import TaggedRows.Stream.Records
import TaggedRows.Tag.Codec
import TaggedRows.Tag.Registry
import TaggedRows.Text.Blank
import TaggedRows.Text.Hidden
import TaggedRows.Text.Lines
import TaggedRows.Text.Numeral
import TaggedRows.Text.Quoted
import TaggedRows.Text.Utf8
import TaggedRows.Time.Calendar
import TaggedRows.Time.DateText
import TaggedRows.Time.Instant
import TaggedRows.Main
import TaggedRows.Proofs.RowKey.Parse
import TaggedRows.Proofs.RowKey.Window
import TaggedRows.Proofs.Text.Utf8
import TaggedRows.Proofs.Text.NumeralOrder
import TaggedRows.Proofs.Row.Families
import TaggedRows.Proofs.Row.Filling
import TaggedRows.Proofs.FoldedRow.RoundTrip
import TaggedRows.Proofs.Tag.Encoding
import TaggedRows.Proofs.Tag.RoundTrip
import TaggedRows.Proofs.Stream.Cursor
import TaggedRows.Proofs.Stream.Reading
import TaggedRows.Proofs.Store.Scan
import TaggedRows.Proofs.Store.ReadBack
import TaggedRows.Proofs.Stream.Skipping
import TaggedRows.Proofs.Store.FoldedScan
import TaggedRows.Proofs.Ingest.Operations
import TaggedRows.Proofs.Ingest.Ledger
import TaggedRows.Proofs.Ingest.Intake
import TaggedRows.Proofs.FoldedRow.Positions
import TaggedRows.Proofs.FoldedRow.Framing
import TaggedRows.Proofs.FoldedRow.Canonical
import TaggedRows.Proofs.RowKey.Format
import TaggedRows.Proofs.RowKey.TimeOrder
import TaggedRows.Proofs.Stream.Interrupted
import TaggedRows.Proofs.Store.LastWrite
import TaggedRows.Proofs.Record.LabelPolicy
import TaggedRows.Proofs.Ingest.Labels
import TaggedRows.Proofs.Json.Fields
import TaggedRows.Proofs.Json.Reading
import TaggedRows.Proofs.Text.Lines
import TaggedRows.Proofs.Text.Padding
import TaggedRows.Proofs.Time.DateText
import TaggedRows.Proofs.Schema.Cell
import TaggedRows.Proofs.Schema.Record
import TaggedRows.Proofs.Time.WholeMillis
import TaggedRows.Proofs.Record.LogDate
import TaggedRows.Proofs.Dump.LineOrder
import TaggedRows.Proofs.Dump.RoundTrip
import TaggedRows.Proofs.Ingest.SharedStore
import TaggedRows.Proofs.Ingest.Accounting
import TaggedRows.Proofs.Tag.Decoding
import TaggedRows.Proofs.Tag.Registry
import TaggedRows.Proofs.Tag.Extension
import TaggedRows.Proofs.Tag.RowShape
import TaggedRows.Proofs.RowRange
import TaggedRows.Proofs.Tag.History
import TaggedRows.Proofs.Stream.Grouping
import TaggedRows.Proofs.Row.Partition
import TaggedRows.Proofs.Stream.Calls
import TaggedRows.Proofs.Tag.Recognition
import TaggedRows.Proofs.Dump.Faults
import TaggedRows.Proofs.Text.CanonicalNumeral
import TaggedRows.Proofs.RowKey.Shards
import TaggedRows.Proofs.RowKey.TextHash
