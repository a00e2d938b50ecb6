import SmartSOCKSProxy.Foundations.CString
import SmartSOCKSProxy.Foundations.Memory
import SmartSOCKSProxy.Foundations.Network
import SmartSOCKSProxy.Foundations.Stream
import SmartSOCKSProxy.Foundations.RuleChain
import SmartSOCKSProxy.Config.BindAddress
import SmartSOCKSProxy.Config.Changes
import SmartSOCKSProxy.Config.ConfigFile
import SmartSOCKSProxy.Config.ConfigNewline
import SmartSOCKSProxy.Config.Configuration
import SmartSOCKSProxy.Config.Dispatch
import SmartSOCKSProxy.Config.Escapes
import SmartSOCKSProxy.Config.FieldSettings
import SmartSOCKSProxy.Config.IncludeDepth
import SmartSOCKSProxy.Config.Keywords
import SmartSOCKSProxy.Config.LineBreaks
import SmartSOCKSProxy.Config.LineEffects
import SmartSOCKSProxy.Config.LineReadings
import SmartSOCKSProxy.Config.Lines
import SmartSOCKSProxy.Config.Normalisation
import SmartSOCKSProxy.Config.PolicyScript
import SmartSOCKSProxy.Config.Ports
import SmartSOCKSProxy.Config.References
import SmartSOCKSProxy.Config.RouteDir
import SmartSOCKSProxy.Config.RouteFile
import SmartSOCKSProxy.Config.RouteLoading
import SmartSOCKSProxy.Config.RouteNewline
import SmartSOCKSProxy.Config.RuleArrays
import SmartSOCKSProxy.Config.Script
import SmartSOCKSProxy.Config.SectionNames
import SmartSOCKSProxy.Config.Services
import SmartSOCKSProxy.Config.SettingUpdates
import SmartSOCKSProxy.Config.Settings
import SmartSOCKSProxy.Config.SpecParsers
import SmartSOCKSProxy.Config.Substitution
import SmartSOCKSProxy.Config.SubstitutionStores
import SmartSOCKSProxy.Core.ClientConnection
import SmartSOCKSProxy.Core.DnsAnswers
import SmartSOCKSProxy.Core.DnsUtil
import SmartSOCKSProxy.Core.Exchange
import SmartSOCKSProxy.Core.FullLength
import SmartSOCKSProxy.Core.HostId
import SmartSOCKSProxy.Core.HostIdMemory
import SmartSOCKSProxy.Core.ReadWrite
import SmartSOCKSProxy.Core.RouteRule
import SmartSOCKSProxy.Core.Service
import SmartSOCKSProxy.Core.World
import SmartSOCKSProxy.Foundations.Assignments
import SmartSOCKSProxy.Foundations.BitMask
import SmartSOCKSProxy.Foundations.Counters
import SmartSOCKSProxy.Foundations.Decimal
import SmartSOCKSProxy.Foundations.Generations
import SmartSOCKSProxy.Foundations.Handles
import SmartSOCKSProxy.Foundations.HttpMessage
import SmartSOCKSProxy.Foundations.IncludeStack
import SmartSOCKSProxy.Foundations.IncludeTree
import SmartSOCKSProxy.Foundations.Json
import SmartSOCKSProxy.Foundations.LinkedList
import SmartSOCKSProxy.Foundations.Loops
import SmartSOCKSProxy.Foundations.Numerals
import SmartSOCKSProxy.Foundations.Ownership
import SmartSOCKSProxy.Foundations.PrintedNumbers
import SmartSOCKSProxy.Foundations.Registry
import SmartSOCKSProxy.Foundations.SlotSort
import SmartSOCKSProxy.Foundations.Stores
import SmartSOCKSProxy.Foundations.StreamLines
import SmartSOCKSProxy.Foundations.SystemCalls
import SmartSOCKSProxy.Foundations.Tokens
import SmartSOCKSProxy.Foundations.Transition
import SmartSOCKSProxy.Foundations.Words
import SmartSOCKSProxy.Logging.ByteCount
import SmartSOCKSProxy.Logging.Closing
import SmartSOCKSProxy.Logging.LogFile
import SmartSOCKSProxy.Logging.LogLevel
import SmartSOCKSProxy.Logging.Rotation
import SmartSOCKSProxy.Logging.Runs
import SmartSOCKSProxy.Relay.Accounting
import SmartSOCKSProxy.Relay.Bounds
import SmartSOCKSProxy.Relay.Completion
import SmartSOCKSProxy.Relay.Integrity
import SmartSOCKSProxy.Relay.Passage
import SmartSOCKSProxy.Relay.Shuttle
import SmartSOCKSProxy.Routing.AddressMap
import SmartSOCKSProxy.Routing.Cidr
import SmartSOCKSProxy.Routing.ClauseOrder
import SmartSOCKSProxy.Routing.Clauses
import SmartSOCKSProxy.Routing.Criteria
import SmartSOCKSProxy.Routing.Engine
import SmartSOCKSProxy.Routing.Grammar
import SmartSOCKSProxy.Routing.LastRewrite
import SmartSOCKSProxy.Routing.LetterCase
import SmartSOCKSProxy.Routing.Meaning
import SmartSOCKSProxy.Routing.Networks
import SmartSOCKSProxy.Routing.Policy
import SmartSOCKSProxy.Routing.RuleParser
import SmartSOCKSProxy.Routing.String2
import SmartSOCKSProxy.Routing.TunnelArray
import SmartSOCKSProxy.Server.Admission
import SmartSOCKSProxy.Server.Attendance
import SmartSOCKSProxy.Server.BuildJson
import SmartSOCKSProxy.Server.Cleanup
import SmartSOCKSProxy.Server.Connections
import SmartSOCKSProxy.Server.EventLoop
import SmartSOCKSProxy.Server.FileNames
import SmartSOCKSProxy.Server.FileSending
import SmartSOCKSProxy.Server.HttpResponse
import SmartSOCKSProxy.Server.HttpService
import SmartSOCKSProxy.Server.JsonBuffer
import SmartSOCKSProxy.Server.Lifetime
import SmartSOCKSProxy.Server.PollSet
import SmartSOCKSProxy.Server.Polling
import SmartSOCKSProxy.Server.Reclamation
import SmartSOCKSProxy.Server.RequestLine
import SmartSOCKSProxy.Server.ScratchBuffer
import SmartSOCKSProxy.Server.SshDemand
import SmartSOCKSProxy.Server.SshPolicy
import SmartSOCKSProxy.Server.StatusDocument
import SmartSOCKSProxy.Server.StatusHandover
import SmartSOCKSProxy.Server.StatusRequest
import SmartSOCKSProxy.Server.StatusValidity
import SmartSOCKSProxy.Server.TunnelPipes
import SmartSOCKSProxy.Socks.Attempts
import SmartSOCKSProxy.Socks.Chain
import SmartSOCKSProxy.Socks.Client
import SmartSOCKSProxy.Socks.Confinement
import SmartSOCKSProxy.Socks.Connect
import SmartSOCKSProxy.Socks.Conversation
import SmartSOCKSProxy.Socks.Decoding
import SmartSOCKSProxy.Socks.Descriptors
import SmartSOCKSProxy.Socks.Destination
import SmartSOCKSProxy.Socks.Dialing
import SmartSOCKSProxy.Socks.Encoding
import SmartSOCKSProxy.Socks.FinalStatus
import SmartSOCKSProxy.Socks.Handler
import SmartSOCKSProxy.Socks.Handshake
import SmartSOCKSProxy.Socks.Interop
import SmartSOCKSProxy.Socks.Outcome
import SmartSOCKSProxy.Socks.PerformedCommand
import SmartSOCKSProxy.Socks.PortForward
import SmartSOCKSProxy.Socks.Reencoding
import SmartSOCKSProxy.Socks.Replies
import SmartSOCKSProxy.Socks.Retries
import SmartSOCKSProxy.Socks.RoundTrip
import SmartSOCKSProxy.Socks.Transparency
import SmartSOCKSProxy.Socks.Wire
