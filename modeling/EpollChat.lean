import EpollChat.Chat.Overlong
import EpollChat.Chat.Frames
import EpollChat.Chat.Canonical
import EpollChat.Net.Sending
import EpollChat.Net.Receiving
import EpollChat.Net.SocketAddress
import EpollChat.Net.SetUp
import EpollChat.Chat.Membership
import EpollChat.Chat.EndToEnd
import EpollChat.Chat.ClientRun
import EpollChat.Chat.ClientTimeout
import EpollChat.Chat.ServerDispatch
import EpollChat.Utils.SingleInstance
import EpollChat.Loops.Computation
import EpollChat.Terminal.Ansi
import EpollChat.Cli.OnScreen
import EpollChat.Cli.Ending
import EpollChat.Chat.ClientScreen
import EpollChat.Terminal.Lines
import EpollChat.Chat.Conversation
import EpollChat.Chat.Agreement
import EpollChat.Chat.ServerSimulation
import EpollChat.Cpp.Getopt
import EpollChat.Utils.OptionsParser
import EpollChat.Processes.Forking
import EpollChat.Utils.Daemon
import EpollChat.Chat.ServerStart
import EpollChat.Chat.ClientDisplay
import EpollChat.Loops.Outcomes
import EpollChat.Exceptions.Scopes
import EpollChat.Net.Registered
import EpollChat.Chat.ClientMain
import EpollChat.Chat.ClientOutcome
import EpollChat.Chat.ClientLife
