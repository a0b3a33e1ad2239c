import Thesada.Library.Machine
import Thesada.Library.CString
import Thesada.Library.JsonText
import Thesada.Library.Word32
import Thesada.Net.HttpUrl
import Thesada.Net.TlsClient
import Thesada.Ota.VerifyPolicy
import Thesada.Ota.Session
import Thesada.Ota.Chunked
import Thesada.Ota.Fled
import Thesada.Ota.FledTries
import Thesada.Ota.FledAge
import Thesada.Ota.FledClock
import Thesada.Ota.HealthPolicy
import Thesada.Ota.BootGuard
import Thesada.Ota.ConfirmGate
import Thesada.Ota.SwitchOnce
import Thesada.Library.RingBuffer
import Thesada.Mqtt.Outbox
import Thesada.Mqtt.CriticalConfig
import Thesada.Mqtt.Reconnect
import Thesada.Mqtt.RebootBudget
import Thesada.Mqtt.Rollback
import Thesada.Mqtt.LastGood
import Thesada.Cli.AuthzPolicy
import Thesada.Mqtt.ClientCert
import Thesada.Mqtt.CertVerdict
import Thesada.Mqtt.SessionAuth
import Thesada.Identity.Keypair
import Thesada.Library.Json
import Thesada.Config.Store
import Thesada.Enroll.Policy
import Thesada.Enroll.CertReply
import Thesada.Enroll.Client
import Thesada.Enroll.Revocation
import Thesada.Config.SetCommand
import Thesada.Config.Writers
import Thesada.Config.HeldPrefix
import Thesada.Library.JsonGrammar
import Thesada.Config.CmdConfig
import Thesada.Config.CmdConfigScan
import Thesada.Config.CmdConfigVerdict
import Thesada.Library.ExpiringSlots
import Thesada.Http.Tokens
import Thesada.Http.LoginRate
import Thesada.Http.LoginGuesses
import Thesada.Http.Upload
import Thesada.Http.BodyBuffer
import Thesada.Http.CmdReply
import Thesada.Library.TopicFilter
import Thesada.Mqtt.SubTable
import Thesada.Cli.PagePolicy
import Thesada.Cli.Pages
import Thesada.Cli.FsCat
import Thesada.Enroll.RequestPace
import Thesada.Enroll.StatusMessage
import Thesada.Enroll.StoredOnce
import Thesada.Shell.DeferredRing
import Thesada.Ota.Redirects
import Thesada.Library.Varint
import Thesada.Lora.MeshFrame
import Thesada.Library.ProtoWire
import Thesada.Lora.MeshDecode
import Thesada.Library.SlashPath
import Thesada.Shell.RmGlob
import Thesada.Script.Reload
import Thesada.Script.State
import Thesada.Script.Budget
import Thesada.Cellular.Activation
import Thesada.Mqtt.Manifest
import Thesada.Http.FatCommit
import Thesada.Library.WhileLoop
import Thesada.Lora.DecodeIndex
import Thesada.Http.WsAuth
import Thesada.Sd.LogSlots
import Thesada.Sd.LogFiles
import Thesada.Shell.PumpConsole
import Thesada.Cli.FsWrite
import Thesada.Secret.Heap
import Thesada.Setup.ApplyForm
import Thesada.Cellular.ResolveHost
import Thesada.Cellular.AtCommand
import Thesada.Cellular.HttpsHead
import Thesada.Cellular.HttpsGet
import Thesada.Cellular.NtpServers
import Thesada.Temperature.Roster
import Thesada.Mqtt.Discovery
import Thesada.Temperature.Guard
import Thesada.Lora.DedupRing
import Thesada.Library.Base64
import Thesada.Lora.MeshKey
import Thesada.Ota.VersionOrder
import Thesada.Ota.CellularUrl
import Thesada.Library.Glob
import Thesada.Shell.GlobMatch
import Thesada.Library.Words
import Thesada.Shell.SplitLine
import Thesada.Config.SetNumbers
import Thesada.Config.GetCommand
import Thesada.Config.SetThenGet
import Thesada.Config.ReloadCommand
import Thesada.Sleep.WakeDeadline
import Thesada.Library.Gregorian
import Thesada.Clock.BuildFloor
import Thesada.Library.JsonLookup
import Thesada.Mqtt.SubSlots
import Thesada.Script.ConfigGet
import Thesada.Clock.NtpSet
import Thesada.Net.HttpJob
import Thesada.Library.CounterMode
import Thesada.Lora.MeshLink
import Thesada.Cellular.SocketRecover
import Thesada.Clock.FloorRuns
import Thesada.Log.Console
import Thesada.Library.ExchangeSort
import Thesada.Secret.Store
import Thesada.Wifi.Manager
import Thesada.Script.Timers
import Thesada.Cellular.Failover
import Thesada.Mqtt.CliTopics
import Thesada.Http.Admission
import Thesada.Http.ForeignPages
import Thesada.Http.DeferredReply
import Thesada.Setup.Session
import Thesada.Library.JsonObject
import Thesada.Enroll.Requests
