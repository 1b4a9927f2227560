import Anisa.Container.CastOptions
import Anisa.Container.Environment
import Anisa.Container.FileLoader.CheckedFiles
import Anisa.Container.FileLoader.SeedList
import Anisa.Container.ForceExit
import Anisa.Container.PeersJson.Boots
import Anisa.Container.PluginRegistrar.Dependencies
import Anisa.Container.PluginRegistrar.FailedRegistration
import Anisa.Container.PluginRegistrar.OptionsOrder
import Anisa.Container.PluginRegistrar.Selection
import Anisa.Container.PluginRegistrar.Survival
import Anisa.Container.PluginRegistrar.TearDownOrder
import Anisa.Container.Resolution
import Anisa.Container.Shutdown
import Anisa.Container.TearDownFailures
import Anisa.Core.Command
import Anisa.Core.Config.Settings
import Anisa.Core.Paths
import Anisa.Core.Update
import Anisa.DatabasePostgres.CamelizeColumns
import Anisa.EventEmitter.Capacity
import Anisa.EventEmitter.Once
import Anisa.EventEmitter.Removal
import Anisa.P2p.Blacklist
import Anisa.P2p.Cleansing
import Anisa.P2p.Codec.PassingOn
import Anisa.P2p.Codec.RoundTrip
import Anisa.P2p.Eviction
import Anisa.P2p.NetworkMonitor.Candidates
import Anisa.P2p.NetworkMonitor.Rearming
import Anisa.P2p.NetworkMonitor.Seeding
import Anisa.P2p.OwnNetwork
import Anisa.P2p.PeerCommunicator.CommonBlocks
import Anisa.P2p.PeerCommunicator.PluginPorts
import Anisa.P2p.PeerCommunicator.StatusUpdate
import Anisa.P2p.PeerConnector.OpenSockets
import Anisa.P2p.PeerConnector.SocketEvents
import Anisa.P2p.PingIntervals
import Anisa.P2p.Provenance
import Anisa.P2p.RateLimiter.Ban
import Anisa.P2p.RateLimiter.Prediction
import Anisa.P2p.Refinement
import Anisa.P2p.SocketServer.Delivery
import Anisa.P2p.SocketServer.Replies
import Anisa.P2p.SubnetCap
import Anisa.P2p.WellFormed
import Anisa.Utils.Httpie
import Anisa.WalletApi.QueryCache
import Anisa.WalletApi.ResponseHeaders
import Anisa.WalletApi.Stopping
