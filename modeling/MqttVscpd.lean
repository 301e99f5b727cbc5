import MqttVscpd.Lib.Transition
import MqttVscpd.Lib.Lock
import MqttVscpd.DeviceItem
import MqttVscpd.WorkLoop
import MqttVscpd.DeviceThread
import MqttVscpd.WorkLoopFacts
import MqttVscpd.DeviceSafety
import MqttVscpd.DriverApi
import MqttVscpd.Resources
import MqttVscpd.Database
import MqttVscpd.DeviceDispatch
import MqttVscpd.Discovery
import MqttVscpd.DiscoverySafety
import MqttVscpd.DiscoveryRetry
import MqttVscpd.DiscoveryStore
import MqttVscpd.Lib.Simulation
import MqttVscpd.DiscoverySerial
import MqttVscpd.DiscoveryAtomic
import MqttVscpd.DiscoveryOrder
import MqttVscpd.Process
import MqttVscpd.ProcessSafety
import MqttVscpd.ProcessEvents
import MqttVscpd.ProcessDevice
import MqttVscpd.ProcessStops
import MqttVscpd.ProcessEnds
import MqttVscpd.ProcessReceives
import MqttVscpd.ProcessCalls
import MqttVscpd.Lib.Posting
import MqttVscpd.ProcessLogged
import MqttVscpd.ProcessConfigured
import MqttVscpd.ControlObject
import MqttVscpd.ReadJson
import MqttVscpd.ReadJsonTotal
import MqttVscpd.Level2Frame
import MqttVscpd.ReadJsonFrame
import MqttVscpd.Lib.Channel
import MqttVscpd.LogSinks
import MqttVscpd.EncryptionKey
import MqttVscpd.Signals
import MqttVscpd.ServerGuid
import MqttVscpd.Shutdown
import MqttVscpd.DriverConfig
import MqttVscpd.Lib.JsonText
import MqttVscpd.DriverList
import MqttVscpd.Translation
import MqttVscpd.Topics
import MqttVscpd.Lib.DoWhile
import MqttVscpd.AddressLoop
import MqttVscpd.Lib.Buffer
import MqttVscpd.PeriodicEvents
import MqttVscpd.MainLoop
import MqttVscpd.DriverRestart
import MqttVscpd.Paused
import MqttVscpd.TokenMaps
import MqttVscpd.DriverCounts
import MqttVscpd.Lib.Records
import MqttVscpd.DriverString
import MqttVscpd.Lib.FileTree
import MqttVscpd.LogDirectory
import MqttVscpd.Lib.Getopt
import MqttVscpd.CommandLine
