import Musicat.Lib.Run
import Musicat.Player.Queue
import Musicat.Player.Playing
import Musicat.Player.Marker
import Musicat.Player.Skip
import Musicat.Server.Dashboard
import Musicat.Server.Identity
import Musicat.Stream.Context
import Musicat.Stream.Start
import Musicat.Lib.Lists
import Musicat.Stream.Scheduler
import Musicat.Stream.NoLoss
import Musicat.Child.Command
import Musicat.Child.Codec
import Musicat.Child.Pipe
import Musicat.Child.Ready
import Musicat.Child.Worker
import Musicat.Child.Killing
import Musicat.Lib.Ghost
import Musicat.Child.Execute
import Musicat.Child.Tracked
import Musicat.Child.ShutdownQueue
import Musicat.Child.Fetch
import Musicat.Lib.Playlist
import Musicat.Stream.EndOfTrack
import Musicat.Player.QueueCommand
import Musicat.Player.QueueKept
import Musicat.Player.ShiftedIndex
import Musicat.Player.Failed
import Musicat.Player.Download
import Musicat.Lib.Transducer
import Musicat.Stream.Codec
import Musicat.Lib.Feed
import Musicat.Server.OggStream
import Musicat.Lib.Locks
import Musicat.Server.OAuthStates
import Musicat.Server.ServiceCache
import Musicat.Server.ServiceCacheLocks
import Musicat.Player.ResumeTimer
import Musicat.Player.ResumeJoined
import Musicat.Player.VoiceTimeout
import Musicat.Player.Embed
import Musicat.Player.EmbedQueue
import Musicat.Player.EmbedDeleted
import Musicat.Stream.EffectChain
import Musicat.Server.Response
import Musicat.Server.ResponseOnce
import Musicat.Stream.Lifetime
import Musicat.Task
import Musicat.Lib.Clients
import Musicat.Server.RecvBody
import Musicat.Lib.Find
import Musicat.Lib.Decimal
import Musicat.Filters.Equalizer
import Musicat.Filters.FxStates
import Musicat.Filters.Commands
import Musicat.Player.Config
import Musicat.Child.Outfile
import Musicat.Lib.Base64
import Musicat.Child.DownloadIds
import Musicat.Child.SearchCache
import Musicat.Paginate.Pages
import Musicat.Paginate.Lifetime
import Musicat.Player.VcsSetting
import Musicat.Database.Playlist
import Musicat.Database.PlaylistView
import Musicat.Child.ReadyReply
import Musicat.Threads.Manager
import Musicat.Threads.Shutdown
import Musicat.Threads.PythonContexts
import Musicat.Player.Rearranged
import Musicat.Audio.HelperChain
import Musicat.Audio.ChainFlow
import Musicat.Audio.Processor
import Musicat.Player.Blocks
import Musicat.Player.FindTrack
import Musicat.Player.History
import Musicat.Lib.Sink
import Musicat.Audio.Decoder
import Musicat.Server.OggHeaders
import Musicat.Server.Cors
import Musicat.Server.Cookie
import Musicat.Database.PlaylistPages
import Musicat.Player.TrackList
import Musicat.Lib.Paged
import Musicat.Player.MusicCache
import Musicat.Lib.Word
import Musicat.Player.SeekParser
import Musicat.Player.Seek
import Musicat.Audio.ChainCall
import Musicat.Audio.ChainOptions
import Musicat.Child.PollStack
import Musicat.Child.OutputLimit
import Musicat.Autocomplete
import Musicat.Server.TimeEvents
import Musicat.Lib.MaxRuns
import Musicat.RuntimeCli
import Musicat.Util.Throttler
import Musicat.Server.OAuthLedger
import Musicat.Player.Provenance
import Musicat.Database.PlaylistStore
import Musicat.Server.Login
import Musicat.Server.Sessions
import Musicat.Server.Listeners
import Musicat.Server.Sockets
import Musicat.Player.VoiceWaits
import Musicat.AutocompleteEvents
