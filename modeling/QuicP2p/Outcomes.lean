/-
# What one call of the connect path does

`connect_to` on an address whose outbound half is busy, and
`handle_new_connection_res` on a session for an `Initiated` record, over every
context, every queue of sends and reads, and every state of the inbound half.

`connect_to` derives the client config before it looks at the table, so
certificate bytes that give no config end in `handle_connect_err` and remove
the record, busy or not, whose drop reports the user messages it still queued
and the error; only a config that parses reaches the duplicate check
(`connectTo_of_certParses_false`, `connectTo_of_busy`). A session for an
`Initiated` record writes our handshake, then the answers the drained reads
call for, then the queued sends, all on that session (`establish_writes`). The
drain takes the external-address sender out of its slot on every turn, so the
first drained read gets it, whatever it is (`establish_ourExtAddrTx`).

Key definitions: `Established`.
-/
import QuicP2p.Loop

namespace QuicP2p

/-! ### `connect_to` on a busy outbound half -/

/-- **`connect_to` on a busy outbound half.** With a config from the
certificate, `DuplicateConnectionToPeer` and nothing changes. Without one,
`CertificateParseError`: the record for the address goes with its group
member, and its drop sends `UnsentUserMessage` for each user message it still
queued, then `ConnectionFailure`; nothing else changes. -/
theorem connectTo_busy_outcome {env : Env} {c : Context} {peerInfo : NodeInfo}
    {m : Option WireMsg} {g : Option ℕ} {conn : Connection}
    (hc : c.connections peerInfo.peerAddr = some conn) (ht : conn.toPeer ≠ .noConnection) :
    connectTo env c peerInfo m g =
      if env.certParses peerInfo.peerCertDer then
        .ok (c, .error (.duplicateConnectionToPeer peerInfo.peerAddr))
      else .ok ({ c with
          connections := Function.update c.connections peerInfo.peerAddr none
          members := c.members.filter fun mb =>
            !(conn.bootstrapGroupRef = some mb.group ∧ mb.peerAddr = peerInfo.peerAddr)
          events := c.events ++ (conn.toPeer.pendingUserMsgs.map (Event.unsentUserMessage peerInfo.peerAddr) ++
            [Event.connectionFailure peerInfo.peerAddr .certificateParseError]).map (conn.lifetime, ·) },
        .error .certificateParseError) := by
  cases hp : env.certParses peerInfo.peerCertDer
  · simp [connectTo_of_certParses_false hp, Context.removeConnection, Context.dropped, hc,
      Connection.dropEvents]
  · exact connectTo_of_busy hp hc ht

theorem connectTo_busy_outcome_initiated :
    let c := Context.init.setConn 1 ⟨.initiated 0 [1] [], .noConnection, none, true, 0⟩
    c.connections 1 = some ⟨.initiated 0 [1] [], .noConnection, none, true, 0⟩ ∧
      ToPeer.initiated 0 [1] [] ≠ .noConnection ∧
      connectTo ⟨.node, [9], fun d => !d.isEmpty, fun _ => true, 64⟩ c ⟨1, [1]⟩ none none =
        .ok (c, .error (.duplicateConnectionToPeer 1)) :=
  ⟨rfl, by decide, connectTo_busy_outcome rfl (by decide)⟩

/-- A reachable context with `Initiated` at address 1: `connect_to` with
certificate bytes that give no config removes the record instead of leaving
the context as it was. -/
theorem connectTo_busy_bad_cert_removes :
    let env : Env := ⟨.node, [9], fun d => !d.isEmpty, fun _ => true, 64⟩
    ∃ c conn, Reachable env c ∧ c.connections 1 = some conn ∧
      conn.toPeer = .initiated 0 [1] [] ∧
      connectTo env c ⟨1, []⟩ none none =
        .ok (c.removeConnection 1 (some .certificateParseError), .error .certificateParseError) ∧
      (c.removeConnection 1 (some .certificateParseError)).connections 1 = none := by
  intro env
  exact ⟨_, _, .step (.connectTo ⟨1, [1]⟩ none) .init rfl, rfl, rfl,
    connectTo_of_certParses_false rfl, by simp⟩

/-! ### `handle_new_connection_res` on an `Initiated` record -/

/-- What `handle_new_connection_res` leaves after a session `qConn` for the
`Initiated` record `conn` (certificate `peerCertDer`, queued sends
`pendingSends`) at `peerAddr`. -/
structure Established (env : Env) (c c' : Context) (peerAddr : SocketAddr) (conn : Connection)
    (peerCertDer : CertDer) (pendingSends : List WireMsg) (qConn : QConn) : Prop where
  /-- Our handshake, the answers of the drained reads, the queued sends, in
  order, all on the session. -/
  writes : c'.writes = c.writes ++ (handshakeToSend env conn.fromPeer).map (qConn, ·) ++
    conn.fromPeer.pendingReads.flatMap (dispatchedWrites (.node ⟨peerAddr, peerCertDer⟩) qConn) ++
    pendingSends.map (qConn, ·)
  /-- The success event if the inbound half is ready, then the drained reads'
  events in order. -/
  events : c'.events = c.events ++ (if conn.fromPeer.isReady then
      [(conn.lifetime, conn.successEvent ⟨peerAddr, peerCertDer⟩)] else []) ++
    conn.fromPeer.pendingReads.flatMap
      (dispatchedEvents conn.lifetime (.node ⟨peerAddr, peerCertDer⟩))
  /-- `Established` with the certificate and the session; no read or send is
  left queued. -/
  record : ∃ conn', c'.connections peerAddr = some conn' ∧
    conn'.toPeer = .established peerCertDer qConn ∧ conn'.fromPeer.pendingReads = []

/-- **A session for an `Initiated` record.** The call does not panic and
commits `Established`; what it writes and sends is `Established`. -/
theorem handleNewConnectionRes_initiated {env : Env} {c : Context} {peerAddr : SocketAddr}
    {conn : Connection} {k : ℕ} {peerCertDer : CertDer} {pendingSends : List WireMsg}
    {qConn : QConn} (hc : c.connections peerAddr = some conn)
    (ht : conn.toPeer = .initiated k peerCertDer pendingSends) :
    ∃ c', handleNewConnectionRes env c peerAddr (.ok qConn) = .ok c' ∧
      Established env c c' peerAddr conn peerCertDer pendingSends qConn := by
  refine ⟨_, handleNewConnectionRes_of_initiated hc ht, ⟨?_, ?_, ?_⟩⟩
  · simp [establish_writes]
  · simp [establish_events]
  · exact ⟨establishedRecord conn peerCertDer qConn, by simp, rfl, by simp⟩

theorem handleNewConnectionRes_initiated_echo :
    let conn : Connection := ⟨.initiated 0 [1] [.userMsg [7]], .established 5 [.endpointEchoReq],
      none, true, 0⟩
    let env : Env := ⟨.node, [9], fun d => !d.isEmpty, fun _ => true, 64⟩
    (Context.init.setConn 1 conn).connections 1 = some conn ∧
      conn.toPeer = .initiated 0 [1] [.userMsg [7]] ∧
      ∃ c', handleNewConnectionRes env (Context.init.setConn 1 conn) 1 (.ok 6) = .ok c' ∧
        Established env (Context.init.setConn 1 conn) c' 1 conn [1] [.userMsg [7]] 6 :=
  ⟨rfl, rfl, handleNewConnectionRes_initiated rfl rfl⟩

/-- An echo request buffered before the outbound half came up: its answer goes
out on the session before the queued send, so the session carries more than
the handshake (none here) and the queued sends. -/
theorem handleNewConnectionRes_writes_echo_reply :
    let conn : Connection := ⟨.initiated 0 [1] [.userMsg [7]], .established 5 [.endpointEchoReq],
      none, true, 0⟩
    let env : Env := ⟨.node, [9], fun d => !d.isEmpty, fun _ => true, 64⟩
    (handleNewConnectionRes env (Context.init.setConn 1 conn) 1 (.ok 6)).map (·.writes) =
      .ok [(6, .endpointEchoResp 1), (6, .userMsg [7])] := rfl

/-! ### The external-address slot in the drain -/

/-- **The drain loses the external-address sender.** With the slot full, a
drain whose first read is a user message and whose second is an echo
response empties the slot and delivers no address. -/
theorem drain_loses_ext_addr_sender :
    let conn : Connection := ⟨.initiated 0 [1] [], .established 5 [.userMsg [], .endpointEchoResp 9],
      none, true, 0⟩
    let env : Env := ⟨.node, [9], fun d => !d.isEmpty, fun _ => true, 64⟩
    (handleNewConnectionRes env (Context.init.setConn 1 conn) 1 (.ok 6)).map
        (fun c => (c.ourExtAddrTx, c.ourExtAddr)) = .ok (false, none) := rfl

end QuicP2p
