import QuicP2p.Types
import QuicP2p.Context
import QuicP2p.Communicate
import QuicP2p.Connect
import QuicP2p.Listener
import QuicP2p.Loop
import QuicP2p.Attempt
import QuicP2p.Outcomes
import QuicP2p.Client
import QuicP2p.Lifetime
import QuicP2p.Events
import QuicP2p.Runs
import QuicP2p.Groups
import QuicP2p.Cache
import QuicP2p.Sessions
import QuicP2p.Chat
