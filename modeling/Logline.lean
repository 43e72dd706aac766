import Logline.Text.Bytes
import Logline.Text.CharClass
import Logline.Text.Quoted
import Logline.Text.Block
import Logline.Text.Octet
import Logline.Text.Lossy
import Logline.Text.Graphic
import Logline.Text.Inspect
import Logline.Decimal.Binary64
import Logline.Decimal.Shortest
import Logline.Decimal.Layout
import Logline.Json.Basic
import Logline.Json.Printer
import Logline.Json.Position
import Logline.Json.Reader
import Logline.Json.Document
import Logline.Hook
import Logline.Error
import Logline.Severity
import Logline.Thresholds
import Logline.FlagTable
import Logline.Fault
import Logline.Value
import Logline.Trace
import Logline.Message
import Logline.Formatter.Pair
import Logline.Formatter.Compaction
import Logline.Formatter.Lists
import Logline.ObjectRef
import Logline.Path
import Logline.CallSite
import Logline.Line
import Logline.BufferPool
import Logline.PerSeverity
import Logline.Stats
import Logline.FileSystem
import Logline.Appender
import Logline.Context
import Logline.Engine
import Logline.Sink
import Logline.Logger
import Logline.Memory
import Logline.Proofs.Compaction
import Logline.Proofs.Rendering
import Logline.Proofs.Survivors
import Logline.Proofs.Deduplication
import Logline.Proofs.Delivery
import Logline.Proofs.Routing
import Logline.Proofs.Placeholders
import Logline.Proofs.HookRuns
import Logline.Proofs.Containment
import Logline.Proofs.FatalExit
import Logline.Proofs.Literal
import Logline.Proofs.Unquoting
import Logline.Proofs.ContextPairs
import Logline.Proofs.LineFeeds
import Logline.Proofs.ReadBack
import Logline.Proofs.TextValues
import Logline.Proofs.DetailsKeys
import Logline.Proofs.Gating
import Logline.Proofs.Guards
import Logline.Proofs.HelperMarks
import Logline.Proofs.PooledCalls
import Logline.Proofs.FlagRuns
import Logline.Proofs.PutOut
import Logline.Proofs.Accounting
import Logline.Proofs.Warnings
import Logline.Proofs.FrontDoors
import Logline.Proofs.Scopes
import Logline.Proofs.LayeredErrors
import Logline.Proofs.Detours
import Logline.Proofs.FailedMessages
import Logline.Proofs.JsonTexts
import Logline.Proofs.FlagDocuments
import Logline.Proofs.SeverityTexts
import Logline.Proofs.Attribution
import Logline.Proofs.ContextTrails
import Logline.Proofs.HeaderReading
import Logline.Proofs.Tiling
import Logline.Proofs.BlockMoves
