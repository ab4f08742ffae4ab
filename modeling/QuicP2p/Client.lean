/-
# A Client never expects an inbound session

A Client's endpoint accepts no session, so `handle_new_conn` never runs and
every record is made by `connect_to`, which marks its inbound half
`NotNeeded` and installs `Initiated`; nothing afterwards touches the inbound
half of such a record, and the outbound half only moves on to `Established`
(`ClientRecord`). The reverse-connect panic of `connect_to` needs a record whose
outbound half is free and whose inbound half is not, so it is never reached,
and every session for an `Initiated` record takes the `NotNeeded` branch: the
Client handshake, the success event and a read loop on the session.

Key definitions: `ClientRecord`.
Key theorems: `ClientRecord.connectTo`, `ClientRecord.handshake`, `ClientRecord.step`.
-/
import QuicP2p.Outcomes

namespace QuicP2p

/-- A Client's record: no inbound session expected, the outbound half used. -/
def ClientRecord (conn : Connection) : Prop :=
  conn.fromPeer = .notNeeded ∧ conn.toPeer ≠ .noConnection

namespace ClientRecord

variable {env : Env} {c c' : Context}

theorem handshake (h : c.AllRecords ClientRecord) {peerAddr : SocketAddr} {res : Except Error QConn}
    (hs : handleNewConnectionRes env c peerAddr res = .ok c') : c'.AllRecords ClientRecord := by
  rcases handleNewConnectionRes_cases hs with ⟨e, -, rfl⟩ | ⟨q, -, -, rfl⟩ |
    ⟨q, conn, k, cert, ps, -, hc, -, rfl⟩
  · rcases handleConnectErr_eq c peerAddr e with he | he <;> rw [he]
    · exact h
    · exact h.removeConnection _ _
  · exact h.of_connections rfl
  · refine h.update ?_ (establish_connections ..)
    rintro _ ⟨⟩
    exact ⟨by simp [(h _ _ hc).1, FromPeer.drain], by simp⟩

theorem readFromPeer (h : c.AllRecords ClientRecord) (a : SocketAddr) (q : QConn) (msg : WireMsg) :
    (QuicP2p.readFromPeer c a q msg).AllRecords ClientRecord := by
  cases hc : c.connections a with
  | none => rwa [readFromPeer_of_none hc]
  | some conn =>
    cases hr : conn.ready
    · rw [readFromPeer_of_not_ready hc hr]
      refine h.update ?_ rfl
      rintro _ ⟨⟩
      exact ⟨by simp [(h _ _ hc).1, FromPeer.buffer], (h _ _ hc).2⟩
    · rw [readFromPeer_of_ready hc hr]
      exact h.of_connections rfl

variable (henv : env.ourType = .client)
include henv

theorem initiatedRecord (peerInfo : NodeInfo) (m : Option WireMsg) (g : Option ℕ) :
    ClientRecord (QuicP2p.initiatedRecord env c peerInfo m g) :=
  ⟨by simp [initiatedRecord_fromPeer, henv], by simp⟩

theorem connectTo (h : c.AllRecords ClientRecord) {peerInfo : NodeInfo} {m : Option WireMsg}
    {g : Option ℕ} {r : Except Error Unit}
    (hs : QuicP2p.connectTo env c peerInfo m g = .ok (c', r)) : c'.AllRecords ClientRecord := by
  have hi : (QuicP2p.installed env c peerInfo m g).AllRecords ClientRecord :=
    h.update (by rintro _ ⟨⟩; exact initiatedRecord henv _ _ _) (installed_connections ..)
  rcases connectTo_cases hs with ⟨-, rfl⟩ | rfl | ⟨-, rfl | ⟨-, rfl⟩⟩
  · exact h.removeConnection _ _
  · exact h
  · exact hi.of_connections rfl
  · exact hi.removeConnection _ _

/-- **Every step of a Client keeps every record a Client's record.** -/
theorem step (h : c.AllRecords ClientRecord) {l : Label} (hs : QuicP2p.step env c l = .ok c') :
    c'.AllRecords ClientRecord := by
  cases l with
  | connectTo peerInfo m =>
    obtain ⟨r, hs⟩ := step_connectTo hs
    exact connectTo henv h hs
  | bootstrap proxies m =>
    exact bootstrap_induction _ (h.of_connections rfl) (fun _ _ _ _ _ h₁ h₂ => connectTo henv h₁ h₂) hs
  | send peer msg =>
    rcases step_send hs with ⟨a, conn, k, cert, ps, hc, ht, rfl⟩ | ⟨a, q, rfl⟩ | ⟨info, r, -, hs⟩ | rfl
    · exact h.update (by rintro _ ⟨⟩; exact ⟨(h _ _ hc).1, by simp⟩) rfl
    · exact h.of_connections rfl
    · exact connectTo henv h hs
    · exact h
  | disconnectFrom a => cases hs; exact h.removeConnection _ _
  | terminator k =>
    rcases step_terminator hs with rfl | ⟨-, -, -, -, rfl⟩ | ⟨l, -, -, rfl, -⟩
    · exact h
    · exact h.of_connections rfl
    · have h₁ : (c.dropLeaf k).AllRecords ClientRecord := h.of_connections rfl
      exact h₁.removeConnection _ _
  | handshake k ok =>
    rcases step_handshake hs with rfl | ⟨l, -, -, -, -, hs, -⟩
    · exact h
    · have h₁ : Context.AllRecords ClientRecord { c.dropLeaf k with nextId := c.nextId + 1 } :=
        h.of_connections rfl
      exact handshake h₁ hs
  | driverFailed q =>
    rcases step_driverFailed hs with rfl | ⟨d, -, -, rfl, -⟩
    · exact h
    · have h₁ : Context.AllRecords ClientRecord { c with drivers := c.drivers.filter (·.qConn ≠ q) } :=
        h.of_connections rfl
      exact h₁.removeConnection _ _
  | incoming a =>
    rcases step_incoming hs with rfl | ⟨ho, -⟩
    · exact h
    · rw [henv] at ho; cases ho
  | read q msg =>
    rcases step_read hs with rfl | ⟨r, -, rfl⟩
    · exact h
    · exact readFromPeer h _ _ _
  | readFailed q e =>
    rcases step_readFailed hs with rfl | ⟨r, -, rfl, -⟩
    · exact h
    · exact h.removeConnection _ _
  | writeFailed q e =>
    rcases step_writeFailed hs with rfl | ⟨w, -, rfl, -⟩
    · exact h
    · have h₁ : Context.AllRecords ClientRecord { c with writers := c.writers.erase w } :=
        h.of_connections rfl
      exact h₁.removeConnection _ _

end ClientRecord

/-- **A Client never expects an inbound session.** In every reachable context
of a Client, every record's inbound half is `NotNeeded`; `connect_to` never
panics; and a session for an `Initiated` record sends the Client handshake and
then the queued sends, fires the success event, and starts the read loop on the
session. -/
theorem client_never_expects_inbound {env : Env} {c : Context} (henv : env.ourType = .client)
    (hc : Reachable env c) :
    (∀ a conn, c.connections a = some conn → conn.fromPeer = .notNeeded) ∧
    (∀ peerInfo m g e, connectTo env c peerInfo m g ≠ .error e) ∧
    (∀ a conn k peerCertDer pendingSends qConn, c.connections a = some conn →
      conn.toPeer = .initiated k peerCertDer pendingSends →
      ∃ c', handleNewConnectionRes env c a (.ok qConn) = .ok c' ∧
        c'.writes = c.writes ++ (qConn, .handshake .client) :: pendingSends.map (qConn, ·) ∧
        c'.events = c.events ++ [(conn.lifetime, conn.successEvent ⟨a, peerCertDer⟩)] ∧
        c'.readers = c.readers ++ [⟨a, qConn⟩]) := by
  have hI : c.AllRecords ClientRecord :=
    hc.invariant (fun _ _ h => by cases h) fun _ _ _ _ h hs => ClientRecord.step henv h hs
  refine ⟨fun a conn h => (hI a conn h).1, fun peerInfo m g e he => ?_, ?_⟩
  · obtain ⟨conn, hc, ht, -⟩ := connectTo_error he
    exact (hI _ _ hc).2 ht
  · intro a conn k cert ps q hc ht
    have hf := (hI a conn hc).1
    refine ⟨_, handleNewConnectionRes_of_initiated hc ht, ?_, ?_, ?_⟩
    · simp [establish_writes, hf, handshakeToSend, FromPeer.pendingReads]
    · simp [establish_events, hf, FromPeer.isReady, FromPeer.pendingReads]
    · simp [establish_readers, hf]

theorem client_never_expects_inbound_first :
    let env : Env := ⟨.client, [9], fun d => !d.isEmpty, fun _ => true, 64⟩
    ∃ c, env.ourType = .client ∧ Reachable env c ∧
      (∀ a conn, c.connections a = some conn → conn.fromPeer = .notNeeded) ∧
      (∀ peerInfo m g e, connectTo env c peerInfo m g ≠ .error e) ∧
      (∀ a conn k peerCertDer pendingSends qConn, c.connections a = some conn →
        conn.toPeer = .initiated k peerCertDer pendingSends →
        ∃ c', handleNewConnectionRes env c a (.ok qConn) = .ok c' ∧
          c'.writes = c.writes ++ (qConn, .handshake .client) :: pendingSends.map (qConn, ·) ∧
          c'.events = c.events ++ [(conn.lifetime, conn.successEvent ⟨a, peerCertDer⟩)] ∧
          c'.readers = c.readers ++ [⟨a, qConn⟩]) := by
  intro env
  have hc : Reachable env _ := .step (.connectTo ⟨1, [1]⟩ none) .init rfl
  exact ⟨_, rfl, hc, client_never_expects_inbound rfl hc⟩

end QuicP2p
