/-
# The data model of the connection state machine

quic-p2p keeps one `Connection` per remote address: the outbound half
`ToPeer`, the inbound half `FromPeer`, the bootstrap group the record takes
part in, and whether we dialled the peer. The context holds the table of
records with the bootstrap cache, the event channel and the one-shot slot for
our external address. Which future of the event loop runs next is free, so the
futures `connect.rs` and `listener.rs` spawn are part of the state too: the
leaf of each outbound attempt (`Leaf`), the connection drivers (`Driver`), the
read loops (`Reader`) and the writes (`Writer`).

`connection.rs`, `context.rs` and `communicate.rs` are not among the sources;
the fields here are the ones `connect.rs` and `listener.rs` read and write,
named as they name them. Addresses, sessions and terminators are only ever
compared, so they are numbers; a terminator is the number of the attempt that
made its channel.

Two fields are ghost, kept for the statements only: the lifetime of a record
(which insertion made it) and the lifetime each event is tagged with.
-/
import Mathlib.Logic.Function.Basic

namespace QuicP2p

/-- A peer's UDP endpoint, the key of the connection table. -/
abbrev SocketAddr := ℕ

/-- The DER bytes of a certificate, carried opaquely. -/
abbrev CertDer := List UInt8

/-- A QUIC session (`QConn`): which of the sessions the endpoint opened. -/
abbrev QConn := ℕ

/-- `NodeInfo`: a Node's address and certificate. -/
structure NodeInfo where
  peerAddr : SocketAddr
  peerCertDer : CertDer
  deriving DecidableEq, Repr

inductive Peer
  | node (nodeInfo : NodeInfo)
  | client (peerAddr : SocketAddr)
  deriving DecidableEq, Repr

/-- The address an event about `peer` is about. -/
def Peer.peerAddr : Peer → SocketAddr
  | .node i => i.peerAddr
  | .client a => a

inductive OurType
  | node
  | client
  deriving DecidableEq, Repr

inductive Handshake
  | node (certDer : CertDer)
  | client
  deriving DecidableEq, Repr

inductive WireMsg
  | handshake (h : Handshake)
  | endpointEchoReq
  | endpointEchoResp (addr : SocketAddr)
  | userMsg (msg : List UInt8)
  deriving DecidableEq, Repr

/-- The errors the connect path raises and the failure callbacks receive. -/
inductive Error
  | connectionCancelled
  | duplicateConnectionToPeer (peerAddr : SocketAddr)
  | certificateParseError
  | quicConnectError
  | quicConnectionError
  deriving DecidableEq, Repr

/-- The events sent on `event_tx`: by the two paths, by the dispatcher, and by
the drop of a record. `SentUserMessage` (the completion of a write) and
`Finish` (teardown) are not sent by anything modelled. -/
inductive Event
  | connectedTo (peer : Peer)
  | bootstrappedTo (node : NodeInfo)
  | newMessage (peerAddr : SocketAddr) (msg : List UInt8)
  | connectionFailure (peerAddr : SocketAddr) (err : Error)
  | unsentUserMessage (peerAddr : SocketAddr) (msg : List UInt8)
  deriving DecidableEq, Repr

/-- The address an event is about. -/
def Event.peerAddr : Event → SocketAddr
  | .connectedTo peer => peer.peerAddr
  | .bootstrappedTo nodeInfo => nodeInfo.peerAddr
  | .newMessage peerAddr _ | .connectionFailure peerAddr _ | .unsentUserMessage peerAddr _ => peerAddr

/-- A connection-success event: `ConnectedTo` or `BootstrappedTo`. -/
def Event.isSuccess : Event → Bool
  | .connectedTo _ | .bootstrappedTo _ => true
  | _ => false

def Event.isNewMessage : Event → Bool
  | .newMessage _ _ => true
  | _ => false

/-- The outbound half. The terminator of an `initiated` half is the number of
the attempt whose channel it is. -/
inductive ToPeer
  | noConnection
  | notNeeded
  | initiated (terminator : ℕ) (peerCertDer : CertDer) (pendingSends : List WireMsg)
  | established (peerCertDer : CertDer) (qConn : QConn)
  deriving DecidableEq, Repr

/-- The inbound half. -/
inductive FromPeer
  | noConnection
  | notNeeded
  | established (qConn : QConn) (pendingReads : List WireMsg)
  deriving DecidableEq, Repr

def ToPeer.isEstablished : ToPeer → Bool
  | .established _ _ => true
  | _ => false

/-- The inbound half is up, or a Client expects none. -/
def FromPeer.isReady : FromPeer → Bool
  | .established _ _ | .notNeeded => true
  | _ => false

/-- The record for one remote address. -/
structure Connection where
  toPeer : ToPeer
  fromPeer : FromPeer
  bootstrapGroupRef : Option ℕ
  weContactedPeer : Bool
  /-- Ghost: the number of the insertion that made this record. -/
  lifetime : ℕ
  deriving DecidableEq, Repr

/-- Modelled from the spec: `Connection::new` (`connection.rs`) is not among the
sources. A record starts with both halves `NoConnection` and the group ref it
is given; `we_contacted_peer` holds exactly for a record the Connect path
creates (§3). -/
def Connection.new (weContactedPeer : Bool) (bootstrapGroupRef : Option ℕ) (lifetime : ℕ) :
    Connection :=
  ⟨.noConnection, .noConnection, bootstrapGroupRef, weContactedPeer, lifetime⟩

/-- Both halves are up: the point at which a record fires its success event. -/
def Connection.ready (conn : Connection) : Bool :=
  conn.toPeer.isEstablished && conn.fromPeer.isReady

/-- Modelled from the spec: the bootstrap group (`connection.rs`) is not among
the sources. §3 makes a group a set of members `(peer_address, terminator)`
with a `finished` flag; the context keeps the members of all groups in one
table, each tagged with its group. -/
structure Member where
  group : ℕ
  peerAddr : SocketAddr
  terminator : ℕ
  deriving DecidableEq, Repr

/-- The future `connect_to` spawns for one attempt: the receiver of its
terminator raced (`select`) against the QUIC handshake, which authenticates
the peer to `peerCertDer`, the certificate the client config was derived
from. -/
structure Leaf where
  peerAddr : SocketAddr
  terminator : ℕ
  peerCertDer : CertDer
  deriving DecidableEq, Repr

/-- A spawned `ConnectionDriver`: an outbound one reports its failure to
`handle_connect_err`, an inbound one to `handle_communication_err`. -/
structure Driver where
  peerAddr : SocketAddr
  qConn : QConn
  outbound : Bool
  deriving DecidableEq, Repr

/-- A read loop (`read_from_peer`) on the streams of session `qConn`. -/
structure Reader where
  peerAddr : SocketAddr
  qConn : QConn
  deriving DecidableEq, Repr

/-- The future `write_to_peer_connection(peer_addr, q_conn, msg)` spawns for
one message on `qConn`; it reports a failure under `peerAddr`. -/
structure Writer where
  peerAddr : SocketAddr
  qConn : QConn
  deriving DecidableEq, Repr

/-- What is fixed at process start: our role and certificate, and what the
endpoint does with a certificate or an address. `peer_config::new_client_cfg`
is not among the sources; `certParses` says whether it derives a config from
the bytes. `connectWithOk` says whether `connect_with` starts a handshake to
the address. -/
structure Env where
  ourType : OurType
  ourCertDer : CertDer
  certParses : CertDer → Bool
  connectWithOk : SocketAddr → Bool
  bootstrapCacheCapacity : ℕ

/-- The context with the futures spawned on the event loop. `events` is
`event_tx`, each event tagged with the lifetime of its record; `writes` is what
`write_to_peer_connection` was asked to send, in order, and `writers` the
futures it spawned for them; `ourExtAddrTx` says whether the one-shot sender is
still in its slot and `ourExtAddr` what its receiver got; `signalled` holds the
terminators fired so far, whose receivers hold the signal. -/
structure Context where
  connections : SocketAddr → Option Connection
  bootstrapCache : List NodeInfo
  events : List (ℕ × Event)
  ourExtAddrTx : Bool
  ourExtAddr : Option SocketAddr
  members : List Member
  finishedGroups : List ℕ
  leaves : List Leaf
  signalled : List ℕ
  drivers : List Driver
  readers : List Reader
  writes : List (QConn × WireMsg)
  writers : List Writer
  nextId : ℕ

/-- The context at start: no records, no futures, the external-address slot
full. -/
def Context.init : Context :=
  ⟨fun _ => none, [], [], true, none, [], [], [], [], [], [], [], [], 0⟩

end QuicP2p
