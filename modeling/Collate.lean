import Collate.Artifact
import Collate.Blake3
import Collate.Budget
import Collate.Bytes.Hex
import Collate.Bytes.LittleEndian
import Collate.Cache.ArtifactStore
import Collate.Cache.Error
import Collate.Cache.KernelCache
import Collate.Cache.Toolchain
import Collate.Check
import Collate.Config
import Collate.Engine.Error
import Collate.Engine.InPlaceSorter
import Collate.Engine.IndexSorter
import Collate.Engine.RecordBatch
import Collate.Engine.ResultCursor
import Collate.Engine.SortContext
import Collate.Engine.SortKernel
import Collate.Engine.SortedRows
import Collate.Engine.Sorter
import Collate.Json.NumberLiteral
import Collate.Json.ReadError
import Collate.Json.Reader
import Collate.Json.Record
import Collate.Json.Skip
import Collate.Json.StringLiteral
import Collate.Json.Value
import Collate.Number.Binary64
import Collate.Proofs.Artifact
import Collate.Proofs.Cache.Obtaining
import Collate.Proofs.Cache.Store
import Collate.Proofs.Cache.Transparency
import Collate.Proofs.Engine.Agreement
import Collate.Proofs.Engine.Bounds
import Collate.Proofs.Engine.Buffers
import Collate.Proofs.Engine.Calls
import Collate.Proofs.Engine.Compaction
import Collate.Proofs.Engine.Cursors
import Collate.Proofs.Engine.Delivery
import Collate.Proofs.Engine.Failures
import Collate.Proofs.Engine.Feeding
import Collate.Proofs.Engine.Holding
import Collate.Proofs.Engine.InPlaceEngine
import Collate.Proofs.Engine.IndexEngine
import Collate.Proofs.Engine.Input
import Collate.Proofs.Engine.Placement
import Collate.Proofs.Engine.Requests
import Collate.Proofs.Engine.RowSorting
import Collate.Proofs.Engine.Safety
import Collate.Proofs.Engine.SortedCells
import Collate.Proofs.Engine.SortedRows
import Collate.Proofs.Engine.Taking
import Collate.Proofs.Json.Atoms
import Collate.Proofs.Json.Containers
import Collate.Proofs.Json.Reading
import Collate.Proofs.Json.Records
import Collate.Proofs.Json.Refusals
import Collate.Proofs.Row.ValueOrder
import Collate.Proofs.Signature.CanonicalText
import Collate.Proofs.Signature.Faithful
import Collate.Proofs.Signature.TypeText
import Collate.Proofs.SortSpec
import Collate.Proofs.Sorting.CountingPass
import Collate.Proofs.Sorting.RadixSort
import Collate.Proofs.Sorting.StableSort
import Collate.Proofs.Storage.Directory
import Collate.Proofs.Storage.Files
import Collate.Proofs.Storage.Paths
import Collate.Proofs.Template.Depth
import Collate.Proofs.Template.Lowering
import Collate.Proofs.Template.RoundTrip
import Collate.Proofs.Template.Valid
import Collate.Row.Address
import Collate.Row.Cells
import Collate.Row.Column
import Collate.Row.RadixSort
import Collate.Row.RowOrder
import Collate.Row.SortKey
import Collate.Schema.ColumnType
import Collate.Schema.DataType
import Collate.Schema.Field
import Collate.Signature
import Collate.SortSpec
import Collate.Storage.Action
import Collate.Storage.Path
import Collate.Storage.Volume
import Collate.Table
import Collate.Template.Basic
import Collate.Template.Codec
import Collate.Template.Lowering
import Collate.Template.Source
import Collate.Text.Blank
import Collate.Text.Bytes
import Collate.Text.Numeral
import Collate.Text.Printable
import Collate.Text.Quoted
import Collate.Proofs.Budget
import Collate.Proofs.Budget.History
import Collate.Proofs.Engine.Accounts
import Collate.Proofs.Engine.Dispatch
import Collate.Proofs.Engine.Draining
import Collate.Proofs.Engine.Isolation
import Collate.Proofs.Engine.Ledger
import Collate.Proofs.Compilation
import Collate.Proofs.Sealing
import Collate.Proofs.Template.Strictness
import Collate.Proofs.Row.Comparison
import Collate.Proofs.Storage.Effects
import Collate.Proofs.Storage.Footprint
import Collate.Proofs.Cache.FileNames
import Collate.Proofs.Cache.Footprint
import Collate.Proofs.Cache.Steps
import Collate.Proofs.Cache.Failures
import Collate.Proofs.Cache.Agreement
import Collate.Proofs.Cache.LaterAnswers
import Collate.Proofs.Cache.Eviction
import Collate.Proofs.Cache.FiniteMap
import Collate.Proofs.Number.FloatValue
import Collate.Proofs.Row.SortKey
import Collate.Proofs.Row.TextOrder
import Collate.Proofs.Template.Canonical
import Collate.Proofs.Template.Resolution
import Collate.Proofs.Engine.Exhaustion
import Collate.Proofs.Config
import Collate.Proofs.Engine.StablePartition
import Collate.Proofs.Engine.Windows
