import Mashroom.Lib.Octets
import Mashroom.Lib.DoWhile
import Mashroom.Lib.Dict
import Mashroom.Lib.Codec
import Mashroom.Lib.Format
import Mashroom.Lib.Words
import Mashroom.Lib.Moves
import Mashroom.Lib.Runs
import Mashroom.Lib.Shared
import Mashroom.Lib.Monitor
import Mashroom.Lib.Rows
import Mashroom.Lib.Keyed
import Mashroom.Lib.RowMajor
import Mashroom.Lib.BinaryFormat
import Mashroom.Lib.Calendar
import Mashroom.Lib.Json
import Mashroom.Lib.Extent
import Mashroom.Lib.KeepFirst
import Mashroom.Lib.SortedSets
import Mashroom.Lib.MapKeys
import Mashroom.Lib.Pieces
import Mashroom.Lib.Regex
import Mashroom.Lib.Decimal
import Mashroom.Lib.TextStream
import Mashroom.Lib.Buffered
import Mashroom.Mapped
import Mashroom.OsterLib
import Mashroom.Grib1.Tables
import Mashroom.Grib1.Grid
import Mashroom.Grib1.Section
import Mashroom.Grib1.Decoded
import Mashroom.Grib1.Levels
import Mashroom.Grib1.Message
import Mashroom.Grib1.Assembly
import Mashroom.Grib1.Documented
import Mashroom.Grib1.Points
import Mashroom.Grib1.LatLon
import Mashroom.Grib1.Singles
import Mashroom.Grib1.AddTime
import Mashroom.Grib1.VerfTime
import Mashroom.Grib1.HGrib
import Mashroom.Grib1.Scan
import Mashroom.Grib1.Walk
import Mashroom.Grib1.Decode
import Mashroom.Grib1.Values
import Mashroom.Grib1.Scaling
import Mashroom.Grib1.WriteIeee
import Mashroom.Data.Msg
import Mashroom.Grib1.Throws
import Mashroom.Data.Properties
import Mashroom.Data.DataStruct
import Mashroom.Data.Indexed
import Mashroom.Data.Serialize
import Mashroom.Data.Malformed
import Mashroom.Data.Merge
import Mashroom.Data.Views
import Mashroom.Data.Reading
import Mashroom.Data.Consistent
import Mashroom.Proc.Index
import Mashroom.Proc.Extract
import Mashroom.Proc.Termination
import Mashroom.Proc.Reads
import Mashroom.Proc.Selection
import Mashroom.Proc.Output
import Mashroom.Proc.Windows
import Mashroom.Proc.TextHeader
import Mashroom.Proc.WriteText
import Mashroom.Proc.Delivered
import Mashroom.Program.Tokens
import Mashroom.Program.Clients
import Mashroom.Program.Data
import Mashroom.Program.Saved
import Mashroom.Program.Lifetime
import Mashroom.Network.Stream
import Mashroom.Network.Formats
import Mashroom.Network.GridFormats
import Mashroom.Network.Parts
import Mashroom.Network.Client
import Mashroom.Network.Server
import Mashroom.Network.Reference
import Mashroom.Network.Handler
import Mashroom.Network.Moved
import Mashroom.Network.Exchange
import Mashroom.Network.DataSize
import Mashroom.Network.Reply
import Mashroom.Network.FileParts
import Mashroom.Network.Answers
import Mashroom.Network.Session
import Mashroom.Network.Pool
import Mashroom.Network.Polling
import Mashroom.Network.Link
import Mashroom.Network.Accepting
import Mashroom.Network.Socket
import Mashroom.Network.Process
import Mashroom.Network.Locks
import Mashroom.Network.Queue
import Mashroom.Network.Relock
import Mashroom.Network.Stopping
import Mashroom.Proc.ReadText
import Mashroom.Proc.Restored
import Mashroom.Proc.Json
import Mashroom.Proc.Binary
import Mashroom.Sys.Settings
import Mashroom.Sys.Config
import Mashroom.Sys.Current
import Mashroom.Sys.Reload
import Mashroom.Sys.FileTree
import Mashroom.Proc.Integrity
import Mashroom.Proc.Indexing
import Mashroom.Network.Extents
import Mashroom.Network.Receive
import Mashroom.Data.Hashes
import Mashroom.Sys.PathOrder
import Mashroom.Proc.Order
import Mashroom.Proc.Report
import Mashroom.Proc.KeyJson
import Mashroom.Proc.GridJson
import Mashroom.Program.UniqueValue
import Mashroom.Program.Search
import Mashroom.Proc.SplitIgnore
import Mashroom.Proc.TokenSequence
import Mashroom.Sys.Setup
import Mashroom.Sys.ServerOptions
import Mashroom.Sys.Commands
import Mashroom.Program.Launching
import Mashroom.Network.MessageType
import Mashroom.Network.Transient
import Mashroom.Program.ArrayText
import Mashroom.Program.CoordText
import Mashroom.Program.PathText
import Mashroom.Proc.IndexCommand
import Mashroom.Program.InfoSize
import Mashroom.Proc.RawText
import Mashroom.Proc.RawLines
import Mashroom.Proc.ProjectedJson
