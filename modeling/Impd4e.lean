import Impd4e.Constants
import Impd4e.Hash
import Impd4e.IpfixTemplates
import Impd4e.PacketHandler
import Impd4e.Dissector
import Impd4e.DissectorSafety
import Impd4e.ExtensionWalk
import Impd4e.FieldMap
import Impd4e.Settings
import Impd4e.Traffic
import Impd4e.HopInvariance
import Impd4e.BufferBound
import Impd4e.Datagrams
import Impd4e.Padding
import Impd4e.LinkTypes
import Impd4e.PacketId
import Impd4e.Lib.Machine
import Impd4e.Netcon
import Impd4e.ConsoleCommands
import Impd4e.ExportHandler
import Impd4e.SamplingLedger
import Impd4e.RangeParser
import Impd4e.ByteSelection
import Impd4e.Lib.Cut
import Impd4e.Lib.Binary64
import Impd4e.Lib.EvTimer
import Impd4e.CString
import Impd4e.CNumber
import Impd4e.CmdLine
import Impd4e.ConfigHandler
import Impd4e.EventLoop
import Impd4e.TemplateAgreement
import Impd4e.ExportBacklog
import Impd4e.OptionOrder
import Impd4e.IntervalReconfig
import Impd4e.RuntimeCommands
import Impd4e.DeviceHandles
import Impd4e.SocketHandler
import Impd4e.StreamSegments
import Impd4e.ConnectionList
import Impd4e.ConfigFile
import Impd4e.ConfigReading
import Impd4e.ConfigCalls
import Impd4e.Lib.Bounds
import Impd4e.SelectionRange
import Impd4e.RangeCopy
import Impd4e.RangeList
import Impd4e.SelectionOptions
import Impd4e.LayerOffsets
import Impd4e.LayerKeywords
import Impd4e.ProbeStats
import Impd4e.LogFilter
import Impd4e.RuntimeMessages
import Impd4e.CommandEntrances
import Impd4e.Lib.DownScan
import Impd4e.ChunkTrim
import Impd4e.Lib.Mixing
import Impd4e.HashFunctions
import Impd4e.HashSampling
import Impd4e.HashChoice
import Impd4e.UnixSocket
import Impd4e.Lib.Reach
import Impd4e.PacketReads
import Impd4e.PathAgreement
import Impd4e.Lib.Simulation
import Impd4e.DeviceIsolation
import Impd4e.WholeProgram
import Impd4e.RecordContents
import Impd4e.CommandLine
import Impd4e.Lib.Traces
import Impd4e.OptionFunctions
import Impd4e.OptionSwap
import Impd4e.ConfigWords
import Impd4e.Configured
import Impd4e.NarrowRange
