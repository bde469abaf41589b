import RustyAnt.Lib.Prog
import RustyAnt.Lib.Decimal
import RustyAnt.Lib.Pool
import RustyAnt.Error
import RustyAnt.Float64
import RustyAnt.Stream.Basic
import RustyAnt.Storage.Value
import RustyAnt.Storage.Backend
import RustyAnt.Storage.Serde
import RustyAnt.Storage.RoundTrip
import RustyAnt.DynamoDb.Backend
import RustyAnt.DynamoDb.Agreement
import RustyAnt.Storage.Linearizable
import RustyAnt.Storage.Hll
import RustyAnt.Storage.View
import RustyAnt.Storage.Strings
import RustyAnt.S3.Backend
import RustyAnt.S3.Gc
import RustyAnt.Storage.Hashes
import RustyAnt.Storage.Lists
import RustyAnt.Storage.Sets
import RustyAnt.Storage.ZSets
import RustyAnt.Storage.Streams
import RustyAnt.Stream.Run
import RustyAnt.Stream.Monotone
import RustyAnt.Stream.Delivery
import RustyAnt.Lib.Endian
import RustyAnt.Lib.Outcome
import RustyAnt.Rdb.Basic
import RustyAnt.Rdb.Listpack
import RustyAnt.Rdb.Payload
import RustyAnt.Rdb.Totality
import RustyAnt.Rdb.RoundTrip
import RustyAnt.Lib.Twin
import RustyAnt.Storage.Keys
import RustyAnt.Mirror.Backend
import RustyAnt.Mirror.Requests
import RustyAnt.Storage.Methods
import RustyAnt.Mirror.Methods
import RustyAnt.Mirror.Runs
import RustyAnt.Storage.Contention
import RustyAnt.Storage.Removal
import RustyAnt.DynamoDb.Races
import RustyAnt.DynamoDb.Loads
import RustyAnt.DynamoDb.NativeTtl
import RustyAnt.Storage.Renames
import RustyAnt.Storage.Conservation
import RustyAnt.Commands.Args
import RustyAnt.Commands.Sets
import RustyAnt.Storage.Attempts
import RustyAnt.Commands.Moves
import RustyAnt.Commands.ZSets
import RustyAnt.Commands.Geo
import RustyAnt.Commands.Stores
import RustyAnt.Commands.Overwrites
import RustyAnt.Commands.Strings
import RustyAnt.Commands.Hashes
import RustyAnt.Commands.Keys
import RustyAnt.DynamoDb.Kept
import RustyAnt.Commands.AllOrNothing
import RustyAnt.Stream.Pending
import RustyAnt.Commands.Streams
import RustyAnt.Stream.Bookkeeping
import RustyAnt.Commands.Following
import RustyAnt.Storage.Solo
import RustyAnt.Commands.Relocation
import RustyAnt.Commands.GroupReads
import RustyAnt.Lib.OffsetScan
import RustyAnt.Commands.Scans
import RustyAnt.Lib.Crc
import RustyAnt.Rdb.Corruption
import RustyAnt.Commands.ReadBack
import RustyAnt.Commands.Server
import RustyAnt.Commands.Dispatch
import RustyAnt.Commands.ReadOnly
import RustyAnt.Commands.Writers
import RustyAnt.Commands.Expiries
import RustyAnt.Storage.NonEmpty
import RustyAnt.Commands.NonEmpty
import RustyAnt.Lib.Window
import RustyAnt.Commands.Windows
import RustyAnt.Commands.ByIndex
import RustyAnt.Commands.InBounds
import RustyAnt.Stream.Idle
import RustyAnt.Lib.Paging
import RustyAnt.Stream.Sweep
import RustyAnt.Stream.Replay
import RustyAnt.Commands.Deadlines
import RustyAnt.Storage.OneClient
import RustyAnt.Mirror.OneClient
import RustyAnt.Commands.CreateOnly
import RustyAnt.Commands.TableScan
import RustyAnt.Lib.Xorshift
import RustyAnt.Commands.Listing
import RustyAnt.Storage.Refusal
import RustyAnt.Mirror.Lookups
import RustyAnt.Commands.Named
import RustyAnt.Commands.Refusals
import RustyAnt.Commands.WrongKind
import RustyAnt.Commands.LcsTable
import RustyAnt.Lib.Subsequence
import RustyAnt.Commands.Lcs
import RustyAnt.Commands.Between
import RustyAnt.Commands.TrimClause
import RustyAnt.Commands.Claims
import RustyAnt.Commands.Creation
import RustyAnt.Lib.Merge
import RustyAnt.Lib.Occurrence
import RustyAnt.Storage.Finds
import RustyAnt.Commands.Aggregates
import RustyAnt.Commands.Results
import RustyAnt.Lib.KeySort
import RustyAnt.Storage.ZOrder
import RustyAnt.Commands.UnifiedRange
import RustyAnt.Commands.Partitions
import RustyAnt.Commands.OneOrder
import RustyAnt.Commands.Occurrences
import RustyAnt.Storage.Found
import RustyAnt.Commands.SetRange
import RustyAnt.Lib.BitArray
import RustyAnt.Commands.BitArrays
import RustyAnt.Commands.ZaddFlags
import RustyAnt.Commands.ScoreReplies
import RustyAnt.Lib.Selection
import RustyAnt.Commands.Nearest
import RustyAnt.Lib.Stable
import RustyAnt.Rdb.Leftover
import RustyAnt.Lib.PyBytes
import RustyAnt.Client.Connection
import RustyAnt.Client.Frames
import RustyAnt.Lib.Packed
import RustyAnt.Storage.Registers
import RustyAnt.Lib.Joins
import RustyAnt.Storage.Sketch
import RustyAnt.Storage.Cardinality
import RustyAnt.Lib.Cyclic
import RustyAnt.Rdb.Lzf
import RustyAnt.Lib.Interleave
import RustyAnt.Geo.Cells
import RustyAnt.Storage.Sampling
import RustyAnt.Commands.Sampling
import RustyAnt.Lib.Radix
import RustyAnt.Storage.Mixing
import RustyAnt.DynamoDb.Versions
import RustyAnt.Lib.Serial
import RustyAnt.Storage.OneStep
import RustyAnt.Storage.Serializable
import RustyAnt.Lib.Refinement
import RustyAnt.Storage.Lapsing
import RustyAnt.Storage.OneCall
import RustyAnt.S3.Refinement
import RustyAnt.DynamoDb.Refinement
import RustyAnt.DynamoDb.Serializable
import RustyAnt.Commands.OneCall
import RustyAnt.Commands.Serializable
import RustyAnt.Resp
import RustyAnt.Server.Lambda
import RustyAnt.Resp.Wire
import RustyAnt.Resp.Codec
import RustyAnt.Client.Replies
import RustyAnt.Client.Dialogue
import RustyAnt.Client.Hiredis
import RustyAnt.Client.Sessions
