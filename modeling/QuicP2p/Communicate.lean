/-
# Dispatch and the read loop

`communicate.rs` and `utils.rs` are not among the sources. What
`handle_new_connection_res` hands `dispatch_wire_msg` (the peer, the new
session, the sender taken from the external-address slot, the event channel)
is in `connect.rs`; what it does with each message, and how a read loop treats
what it reads, is §4.6 of the spec: a message read while the record is not up
on both halves waits in the inbound half's `pending_reads`, any other is
dispatched.

§4.6 routes handshakes through the same rule. A Node's record for a Client
that reached it never comes up, since a Node does not dial a Client (§8
scenario 6), so its `Handshake(Client)` waits in `pending_reads` for good and
no run here sends `ConnectedTo{Client}`: scenario 6 needs the handshake
handling of `communicate.rs`, which §4.6 describes only as "marks the remote
as a Client", and §3 gives the record no state for that (`ToPeer::NotNeeded`
is the outbound half of a Client). Dispatching a handshake to a record that is
up does nothing: the identity a `Handshake(Node)` completes is a `connect_to`
back in the implementation, the host's connect step of the loop here, and the
record cannot tell a first handshake from the second that §4.6 says severs it.
`connect.rs` also hands `dispatch_wire_msg` the bootstrap cache and
`we_contacted_peer`; neither §4.6 nor §3 gives dispatch an effect on the cache
(§3 admits a peer only when an outbound attempt completes), so here it leaves
the cache alone.

A failure of a read loop or of a write is `handle_communication_err`, which
severs the record for the address the future was spawned with (§4.6, §7).

Key definitions: `dispatchWireMsg`, `readFromPeer`, `handleCommunicationErr`.
-/
import QuicP2p.Context

namespace QuicP2p

/-- Modelled from the spec: `dispatch_wire_msg` (§4.6). `ourExtAddrTx` says
whether it was handed the sender of the external-address slot. -/
def dispatchWireMsg (c : Context) (lifetime : ℕ) (peer : Peer) (qConn : QConn)
    (ourExtAddrTx : Bool) : WireMsg → Context
  | .handshake _ => c
  | .endpointEchoReq => c.write peer.peerAddr qConn (.endpointEchoResp peer.peerAddr)
  | .endpointEchoResp addr => if ourExtAddrTx then { c with ourExtAddr := some addr } else c
  | .userMsg msg => c.emit lifetime (.newMessage peer.peerAddr msg)

/-- The events dispatching `msg` sends: a `NewMessage` for a user message. -/
def dispatchedEvents (lifetime : ℕ) (peer : Peer) : WireMsg → List (ℕ × Event)
  | .userMsg msg => [(lifetime, .newMessage peer.peerAddr msg)]
  | _ => []

/-- What dispatching `msg` writes on `qConn`: the answer to an echo request. -/
def dispatchedWrites (peer : Peer) (qConn : QConn) : WireMsg → List (QConn × WireMsg)
  | .endpointEchoReq => [(qConn, .endpointEchoResp peer.peerAddr)]
  | _ => []

/-- What dispatching `msg` delivers to the external-address receiver, holding
`addr`: an echo response's address, when it was handed the sender. -/
def dispatchedExtAddr (tx : Bool) (addr : Option SocketAddr) : WireMsg → Option SocketAddr
  | .endpointEchoResp a => if tx then some a else addr
  | _ => addr

/-- The futures of the writes in `ws`, made for `peerAddr`. -/
def writersOf (peerAddr : SocketAddr) (ws : List (QConn × WireMsg)) : List Writer :=
  ws.map fun w => ⟨peerAddr, w.1⟩

@[simp] theorem writersOf_nil (peerAddr : SocketAddr) : writersOf peerAddr [] = [] := rfl

@[simp] theorem writersOf_append (peerAddr : SocketAddr) (ws ws' : List (QConn × WireMsg)) :
    writersOf peerAddr (ws ++ ws') = writersOf peerAddr ws ++ writersOf peerAddr ws' :=
  List.map_append ..

/-- Dispatch touches the event channel, the session and the external-address
receiver, nothing else. -/
theorem dispatchWireMsg_eq (c : Context) (lifetime : ℕ) (peer : Peer) (qConn : QConn) (tx : Bool)
    (msg : WireMsg) :
    dispatchWireMsg c lifetime peer qConn tx msg =
      { c with
        events := c.events ++ dispatchedEvents lifetime peer msg
        writes := c.writes ++ dispatchedWrites peer qConn msg
        writers := c.writers ++ writersOf peer.peerAddr (dispatchedWrites peer qConn msg)
        ourExtAddr := dispatchedExtAddr tx c.ourExtAddr msg } := by
  cases msg <;> cases tx <;> simp [dispatchWireMsg, dispatchedEvents, dispatchedWrites,
    dispatchedExtAddr, Context.emit, Context.write, writersOf]

/-- The peer a record's events name: the Node its outbound half reached, else
the Client at its address. -/
def Connection.peer (conn : Connection) (peerAddr : SocketAddr) : Peer :=
  match conn.toPeer with
  | .established peerCertDer _ => .node ⟨peerAddr, peerCertDer⟩
  | _ => .client peerAddr

@[simp] theorem Connection.peer_peerAddr (conn : Connection) (peerAddr : SocketAddr) :
    (conn.peer peerAddr).peerAddr = peerAddr := by
  unfold Connection.peer; split <;> rfl

/-- Modelled from the spec: a read loop delivers `msg`, read on `qConn` from
`peerAddr` (§4.6). Only an echo response takes the sender out of its slot. -/
def readFromPeer (c : Context) (peerAddr : SocketAddr) (qConn : QConn) (msg : WireMsg) :
    Context :=
  match c.connections peerAddr with
  | none => c
  | some conn =>
    if conn.ready then
      match msg with
      | .endpointEchoResp _ =>
        dispatchWireMsg { c with ourExtAddrTx := false } conn.lifetime (conn.peer peerAddr) qConn
          c.ourExtAddrTx msg
      | _ => dispatchWireMsg c conn.lifetime (conn.peer peerAddr) qConn false msg
    else
      match conn.fromPeer with
      | .established q pendingReads =>
        c.setConn peerAddr { conn with fromPeer := .established q (pendingReads ++ [msg]) }
      | _ => c

/-- The inbound half with `msg` buffered, if it holds a session. -/
def FromPeer.buffer (msg : WireMsg) : FromPeer → FromPeer
  | .established qConn pendingReads => .established qConn (pendingReads ++ [msg])
  | f => f

/-- A buffered read keeps an inbound half that is not needed, and the session
of one that is up. -/
@[simp] theorem FromPeer.buffer_eq_notNeeded {f : FromPeer} {msg : WireMsg} :
    f.buffer msg = .notNeeded ↔ f = .notNeeded := by
  cases f <;> simp [FromPeer.buffer]

theorem FromPeer.buffer_eq_established {f : FromPeer} {msg : WireMsg} {q : QConn}
    {rs : List WireMsg} (h : f.buffer msg = .established q rs) : ∃ rs', f = .established q rs' := by
  cases f <;> simp_all [FromPeer.buffer]

/-- Whether a dispatch of `msg` takes the sender out of the slot. -/
def WireMsg.isEchoResp : WireMsg → Bool
  | .endpointEchoResp _ => true
  | _ => false

section read

variable {c : Context} {peerAddr : SocketAddr} {qConn : QConn} {msg : WireMsg} {conn : Connection}

theorem readFromPeer_of_none (h : c.connections peerAddr = none) :
    readFromPeer c peerAddr qConn msg = c := by
  simp [readFromPeer, h]

/-- A record up on both halves gets the read dispatched; only an echo response
takes the sender. -/
theorem readFromPeer_of_ready (h : c.connections peerAddr = some conn) (hr : conn.ready) :
    readFromPeer c peerAddr qConn msg =
      { c with
        events := c.events ++ dispatchedEvents conn.lifetime (conn.peer peerAddr) msg
        writes := c.writes ++ dispatchedWrites (conn.peer peerAddr) qConn msg
        writers := c.writers ++ writersOf peerAddr (dispatchedWrites (conn.peer peerAddr) qConn msg)
        ourExtAddrTx := c.ourExtAddrTx && !msg.isEchoResp
        ourExtAddr := dispatchedExtAddr c.ourExtAddrTx c.ourExtAddr msg } := by
  cases msg <;> simp [readFromPeer, h, hr, dispatchWireMsg_eq, WireMsg.isEchoResp, dispatchedExtAddr]

/-- Any other record buffers the read in its inbound half. -/
theorem readFromPeer_of_not_ready (h : c.connections peerAddr = some conn) (hr : conn.ready = false) :
    readFromPeer c peerAddr qConn msg =
      c.setConn peerAddr { conn with fromPeer := conn.fromPeer.buffer msg } := by
  unfold readFromPeer
  simp only [h, hr, Bool.false_eq_true, if_false]
  cases hf : conn.fromPeer <;> simp [FromPeer.buffer, Context.setConn, ← hf, ← h]

@[simp] theorem readFromPeer_nextId : (readFromPeer c peerAddr qConn msg).nextId = c.nextId := by
  cases hc : c.connections peerAddr with
  | none => rw [readFromPeer_of_none hc]
  | some conn =>
    cases hr : conn.ready
    · rw [readFromPeer_of_not_ready hc hr]; rfl
    · rw [readFromPeer_of_ready hc hr]

/-- A read loop leaves the groups and the terminators alone. -/
@[simp] theorem readFromPeer_members : (readFromPeer c peerAddr qConn msg).members = c.members := by
  cases hc : c.connections peerAddr with
  | none => rw [readFromPeer_of_none hc]
  | some conn =>
    cases hr : conn.ready
    · rw [readFromPeer_of_not_ready hc hr]; rfl
    · rw [readFromPeer_of_ready hc hr]

@[simp] theorem readFromPeer_signalled : (readFromPeer c peerAddr qConn msg).signalled = c.signalled := by
  cases hc : c.connections peerAddr with
  | none => rw [readFromPeer_of_none hc]
  | some conn =>
    cases hr : conn.ready
    · rw [readFromPeer_of_not_ready hc hr]; rfl
    · rw [readFromPeer_of_ready hc hr]

@[simp] theorem readFromPeer_finishedGroups :
    (readFromPeer c peerAddr qConn msg).finishedGroups = c.finishedGroups := by
  cases hc : c.connections peerAddr with
  | none => rw [readFromPeer_of_none hc]
  | some conn =>
    cases hr : conn.ready
    · rw [readFromPeer_of_not_ready hc hr]; rfl
    · rw [readFromPeer_of_ready hc hr]

@[simp] theorem readFromPeer_bootstrapCache :
    (readFromPeer c peerAddr qConn msg).bootstrapCache = c.bootstrapCache := by
  cases hc : c.connections peerAddr with
  | none => rw [readFromPeer_of_none hc]
  | some conn =>
    cases hr : conn.ready
    · rw [readFromPeer_of_not_ready hc hr]; rfl
    · rw [readFromPeer_of_ready hc hr]

/-- A read loop spawns no future and ends none. -/
theorem readFromPeer_futures :
    (readFromPeer c peerAddr qConn msg).drivers = c.drivers ∧
      (readFromPeer c peerAddr qConn msg).readers = c.readers ∧
      (readFromPeer c peerAddr qConn msg).leaves = c.leaves := by
  cases hc : c.connections peerAddr with
  | none => rw [readFromPeer_of_none hc]; exact ⟨rfl, rfl, rfl⟩
  | some conn =>
    cases hr : conn.ready
    · rw [readFromPeer_of_not_ready hc hr]; exact ⟨rfl, rfl, rfl⟩
    · rw [readFromPeer_of_ready hc hr]; exact ⟨rfl, rfl, rfl⟩

end read

/-- Modelled from the spec: `utils::handle_communication_err` severs the record
after a mid-session failure `err` (§7). -/
def handleCommunicationErr (c : Context) (peerAddr : SocketAddr) (err : Error) : Context :=
  c.removeConnection peerAddr (some err)

end QuicP2p
