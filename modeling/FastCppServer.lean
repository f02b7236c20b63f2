import FastCppServer.Lib.Framer
import FastCppServer.FlyControl.Parser
import FastCppServer.FlyControl.Stall
import FastCppServer.FlyControl.Resync
import FastCppServer.Lib.Cursor
import FastCppServer.MyTools.MyLEHelper
import FastCppServer.MyTools.MyBEHelper
import FastCppServer.MyTools.EndianRoundTrip
import FastCppServer.MyTools.EndianSafety
import FastCppServer.FlyControl.Codec
import FastCppServer.FlyControl.RoundTrip
import FastCppServer.FlyControl.Send
import FastCppServer.Searchlight.Protocol
import FastCppServer.Searchlight.Stream
import FastCppServer.Searchlight.Refinement
import FastCppServer.Searchlight.RoundTrip
import FastCppServer.Searchlight.Hex
import FastCppServer.Cache.Path
import FastCppServer.Cache.MyCache
import FastCppServer.Cache.Disk
import FastCppServer.Cache.Index
import FastCppServer.Cache.Concurrent
import FastCppServer.Cache.ScanRace
import FastCppServer.Cache.SaveRace
import FastCppServer.FastMqtt.BlockingQueue
import FastCppServer.FastMqtt.Publish
import FastCppServer.FastMqtt.Callbacks
import FastCppServer.FastMqtt.Subscriptions
import FastCppServer.FastMqtt.Lifecycle
import FastCppServer.Lib.Ledger
import FastCppServer.MyComm.Bridge
import FastCppServer.MyComm.Handles
import FastCppServer.MyComm.Delivery
import FastCppServer.Mqtt.MqttService
import FastCppServer.Lib.Condvar
import FastCppServer.Tools.ThreadSafeQueue
import FastCppServer.Searchlight.Lifecycle
import FastCppServer.Edge.SelfTask
import FastCppServer.Lib.RwLock
import FastCppServer.Edge.Locking
import FastCppServer.Lib.Debounce
import FastCppServer.Lib.Process
import FastCppServer.PodStream.PodStreamManager
import FastCppServer.PodStream.Connectivity
import FastCppServer.PodStream.Children
import FastCppServer.Lib.Window
import FastCppServer.PodStream.CrashBudget
import FastCppServer.MyData.Json
import FastCppServer.MyData.Task
import FastCppServer.MyControl.Pipeline
import FastCppServer.MyDevice.UUVDevice
import FastCppServer.MyControl.StartStop
import FastCppServer.MyDb.TaskRepository
import FastCppServer.Edge.BaseEdge
import FastCppServer.Edge.EStop
import FastCppServer.Edge.Init
import FastCppServer.Edge.Lifecycle
import FastCppServer.Edge.Shutdown
import FastCppServer.Edge.Consumers
import FastCppServer.Lib.Since
import FastCppServer.MyAirdropLock.AirdropLock
import FastCppServer.MyAirdropLock.Report
import FastCppServer.MyAirdropLock.DutyCycle
import FastCppServer.Lib.Scan
import FastCppServer.MySoftHealthy.ProcStat
import FastCppServer.Lib.Search
import FastCppServer.MySoftHealthy.Subtree
import FastCppServer.Lib.Rounding
import FastCppServer.MyContext.MyContext
import FastCppServer.Lib.History
import FastCppServer.MyContext.Faithful
import FastCppServer.MyGasDetectorPoll.Config
import FastCppServer.MyGasDetectorPoll.Poll
import FastCppServer.MyGasDetectorPoll.Books
import FastCppServer.Lib.Shell
import FastCppServer.MyScript.Command
import FastCppServer.Lib.Execution
import FastCppServer.MyScript.RunBash
import FastCppServer.MyScript.RunBashResult
import FastCppServer.MyScript.RunBashReturns
import FastCppServer.MyScript.RunBashExact
import FastCppServer.MyMediamtxMonitor.RtspRelayMonitor
import FastCppServer.MyMediamtxMonitor.Supervision
import FastCppServer.MyMqttBrokerManager.BrokerManager
import FastCppServer.MyMqttBrokerManager.Tracking
import FastCppServer.MyPod.PodConfig
import FastCppServer.MyPod.Pod
import FastCppServer.MyPod.Connection
import FastCppServer.MyPod.PodManager
import FastCppServer.MyPod.Release
import FastCppServer.MyPod.Capability
import FastCppServer.MyPod.PodMonitor
import FastCppServer.MyPod.OnlineWindow
import FastCppServer.MyPod.RuntimeStatus
import FastCppServer.MyPod.Reconnect
import FastCppServer.Mqtt.TopicFilter
import FastCppServer.Tools.TimedPop
import FastCppServer.Lib.Redirection
import FastCppServer.MyTools.PingTools
import FastCppServer.FastMqtt.Dispatch
import FastCppServer.Lib.Numbering
import FastCppServer.FlyControl.SendFrame
import FastCppServer.FlyControl.Inbound
import FastCppServer.Lib.Connection
import FastCppServer.MyDb.Schema
import FastCppServer.MyDb.MyDB
import FastCppServer.MyConfig.MyJSONConfigV2
import FastCppServer.Cache.PathCheck
import FastCppServer.Lib.LinkTree
import FastCppServer.MyTools.MyFolderTools
import FastCppServer.Lib.Crc
import FastCppServer.MyGasDetectorPoll.Crc
import FastCppServer.MyGasDetectorPoll.Frame
import FastCppServer.MyGasDetectorPoll.Addresses
import FastCppServer.Cache.Limit
import FastCppServer.Cache.SaveAtomic
import FastCppServer.Cache.Sweep
import FastCppServer.MyData.RoundTrip
import FastCppServer.Edge.FailedStart
import FastCppServer.Edge.InitResult
import FastCppServer.Edge.QueueBound
import FastCppServer.Lib.Mask
import FastCppServer.MyTools.MyIPTools
import FastCppServer.Lib.Carry
import FastCppServer.MyTools.ICMPChecksum
import FastCppServer.Lib.Calendar
import FastCppServer.Lib.Scanf
import FastCppServer.MySerial.GetUint32Value
import FastCppServer.MyTools.ParseCIDR
import FastCppServer.MyTools.PingHost
import FastCppServer.MyTools.PingScan
import FastCppServer.MyTools.MyDateTime
import FastCppServer.MyTools.DateTimeRoundTrip
import FastCppServer.MyTools.DateTimeFormat
import FastCppServer.MyMediamtxMonitor.JsonToYaml
import FastCppServer.MyMediamtxMonitor.YamlReading
import FastCppServer.MyMediamtxMonitor.YamlLosses
import FastCppServer.FlyControl.Link
import FastCppServer.FlyControl.Session
import FastCppServer.Lib.Shared
import FastCppServer.FlyControl.Manager
import FastCppServer.MySerial.MySerial
import FastCppServer.FastMqtt.Connection
import FastCppServer.Cache.FileApi
import FastCppServer.Pipeline.Pipeline
import FastCppServer.Edge.Fleet
