import ZigbeeService.Lib.Fault
import ZigbeeService.Lib.Text
import ZigbeeService.Lib.CharArray
import ZigbeeService.Lib.Number
import ZigbeeService.Lib.Machine
import ZigbeeService.Lib.Fifo
import ZigbeeService.Lib.Ledger
import ZigbeeService.Lib.LinkedList
import ZigbeeService.Queue.Linked
import ZigbeeService.Sdk.Base64
import ZigbeeService.Sdk.Value
import ZigbeeService.Message.Parse
import ZigbeeService.Message.RoundTrip
import ZigbeeService.Message.Reading
import ZigbeeService.Message.Malformed
import ZigbeeService.Command.Compose
import ZigbeeService.Command.Codec
import ZigbeeService.Driver.Discovery
import ZigbeeService.Driver.System
import ZigbeeService.Driver.Commands
import ZigbeeService.Driver.Replies
import ZigbeeService.Driver.Answers
import ZigbeeService.Driver.Poll
import ZigbeeService.Driver.Receive
import ZigbeeService.Driver.Memory
import ZigbeeService.Lib.Json
import ZigbeeService.Rest.Records
import ZigbeeService.Rest.Write
import ZigbeeService.Rest.Read
import ZigbeeService.Rest.RoundTrip
import ZigbeeService.Rest.ProfileRoundTrip
import ZigbeeService.Rest.DeviceRoundTrip
import ZigbeeService.Sdk.CmdInfo
import ZigbeeService.Devices.Map
import ZigbeeService.Devices.Effects
import ZigbeeService.Devices.Index
import ZigbeeService.Devices.Threads
import ZigbeeService.Devices.RefCount
import ZigbeeService.Devices.Lifetimes
import ZigbeeService.Devices.Compare
import ZigbeeService.Devices.Copy
import ZigbeeService.Devices.Callback
import ZigbeeService.Lib.Arith
import ZigbeeService.Sdk.Transform
import ZigbeeService.Lib.Cbor
import ZigbeeService.Sdk.Event
import ZigbeeService.Sdk.RunOne
import ZigbeeService.Rest.Ingest
import ZigbeeService.Devices.Ingest
import ZigbeeService.Message.Counts
import ZigbeeService.Message.Origin
import ZigbeeService.Sdk.Discovery
import ZigbeeService.Devices.Clear
import ZigbeeService.Devices.Profiles
import ZigbeeService.Devices.Push
import ZigbeeService.Sdk.AutoEvent
import ZigbeeService.Lib.Block
import ZigbeeService.Sdk.AllCommand
import ZigbeeService.Config.Consul
import ZigbeeService.Config.NvConfig
import ZigbeeService.Config.NvRoundTrip
import ZigbeeService.Command.Sizes
import ZigbeeService.Devices.Reachable
import ZigbeeService.Devices.Replace
import ZigbeeService.Devices.Remove
import ZigbeeService.Sdk.DeviceUrl
import ZigbeeService.Sdk.TransformExact
import ZigbeeService.Sdk.TransformLaws
import ZigbeeService.Sdk.ValueText
import ZigbeeService.Lib.Bits
import ZigbeeService.Sdk.Base64Memory
import ZigbeeService.Sdk.AutoEventLife
import ZigbeeService.Devices.Forcmd
import ZigbeeService.Config.File
import ZigbeeService.Devices.Dup
import ZigbeeService.Config.Document
import ZigbeeService.Config.Numbers
import ZigbeeService.Sdk.AutoEventStart
import ZigbeeService.Sdk.Startup
import ZigbeeService.Http.Server
import ZigbeeService.Lib.Runs
import ZigbeeService.Http.Routing
import ZigbeeService.Http.Upload
import ZigbeeService.Http.Headers
import ZigbeeService.Config.ConsulPoll
import ZigbeeService.Http.Answers
import ZigbeeService.Lib.Reader
import ZigbeeService.Parson.Strings
import ZigbeeService.Parson.Parse
import ZigbeeService.Lib.Output
import ZigbeeService.Parson.Serialize
import ZigbeeService.Parson.RoundTrip
import ZigbeeService.Parson.Utf16
import ZigbeeService.Parson.StringMemory
import ZigbeeService.Rest.Texts
import ZigbeeService.Config.Registry
import ZigbeeService.Http.Client
import ZigbeeService.Http.ServiceRoutes
import ZigbeeService.Config.RegistryUrl
import ZigbeeService.Devices.MapRuns
import ZigbeeService.Lib.Alloc
import ZigbeeService.Rest.Blocks
import ZigbeeService.Rest.Balance
import ZigbeeService.Rest.ReadBlocks
import ZigbeeService.Rest.Leaks
import ZigbeeService.Driver.Device
import ZigbeeService.Lib.Exchange
import ZigbeeService.Sdk.Registration
import ZigbeeService.Sdk.Starts
