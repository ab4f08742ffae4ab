/-
# The listen path

`handle_new_conn` (`listener.rs`): for each session the endpoint accepts, the
driver is spawned first, then the record for the remote address is taken or
made; a free inbound half takes the session, with the success event when the
outbound half is already up, and a read loop starts on it; a busy one makes
the session a duplicate, dropped with the record untouched.
-/
import QuicP2p.Connect

namespace QuicP2p

/-- `handle_new_conn` for a session from `peerAddr`; the session is the next
number. -/
def handleNewConn (c : Context) (peerAddr : SocketAddr) : Context :=
  let qConn := c.nextId
  let c := { c with drivers := c.drivers ++ [(⟨peerAddr, qConn, false⟩ : Driver)], nextId := qConn + 1 }
  let conn := (c.connections peerAddr).getD (Connection.new false none qConn)
  if conn.fromPeer = .noConnection then
    let conn := { conn with fromPeer := .established qConn [] }
    let r := match conn.toPeer with
      | .established peerCertDer _ => fireConnected c peerAddr conn ⟨peerAddr, peerCertDer⟩
      | _ => (c, conn)
    { r.1.setConn peerAddr r.2 with readers := r.1.readers ++ [⟨peerAddr, qConn⟩] }
  else c

/-- The record `handle_new_conn` leaves when the inbound half was free: the
session installed, and the group ref given up if the outbound half was up. -/
def inboundRecord (conn : Connection) (qConn : QConn) : Connection :=
  { conn with
    fromPeer := .established qConn []
    bootstrapGroupRef := if conn.toPeer.isEstablished then none else conn.bootstrapGroupRef }

@[simp] theorem inboundRecord_toPeer (conn : Connection) (qConn : QConn) :
    (inboundRecord conn qConn).toPeer = conn.toPeer := rfl

@[simp] theorem inboundRecord_fromPeer (conn : Connection) (qConn : QConn) :
    (inboundRecord conn qConn).fromPeer = .established qConn [] := rfl

/-- The success event `handle_new_conn` fires: only when the outbound half is
already up. -/
def inboundEvents (conn : Connection) (peerAddr : SocketAddr) : List (ℕ × Event) :=
  match conn.toPeer with
  | .established peerCertDer _ => [(conn.lifetime, conn.successEvent ⟨peerAddr, peerCertDer⟩)]
  | _ => []

section handleNewConn

variable (c : Context) (peerAddr : SocketAddr)

@[simp] theorem handleNewConn_leaves : (handleNewConn c peerAddr).leaves = c.leaves := by
  unfold handleNewConn; dsimp only; split <;> (try split) <;> simp

@[simp] theorem handleNewConn_nextId : (handleNewConn c peerAddr).nextId = c.nextId + 1 := by
  unfold handleNewConn; dsimp only; split <;> (try split) <;> simp

@[simp] theorem handleNewConn_drivers :
    (handleNewConn c peerAddr).drivers = c.drivers ++ [⟨peerAddr, c.nextId, false⟩] := by
  unfold handleNewConn; dsimp only; split <;> (try split) <;> simp

@[simp] theorem handleNewConn_writes : (handleNewConn c peerAddr).writes = c.writes := by
  unfold handleNewConn; dsimp only; split <;> (try split) <;> simp

@[simp] theorem handleNewConn_ourExtAddrTx :
    (handleNewConn c peerAddr).ourExtAddrTx = c.ourExtAddrTx := by
  unfold handleNewConn; dsimp only; split <;> (try split) <;> simp

@[simp] theorem handleNewConn_ourExtAddr : (handleNewConn c peerAddr).ourExtAddr = c.ourExtAddr := by
  unfold handleNewConn; dsimp only; split <;> (try split) <;> simp

@[simp] theorem handleNewConn_bootstrapCache :
    (handleNewConn c peerAddr).bootstrapCache = c.bootstrapCache := by
  unfold handleNewConn; dsimp only; split <;> (try split) <;> simp

/-- The record for the address has a busy inbound half, or the record
`handle_new_conn` takes, made if missing, has a free one. -/
theorem handleNewConn_busy_or_free :
    (∃ conn, c.connections peerAddr = some conn ∧ conn.fromPeer ≠ .noConnection) ∨
      ∃ conn, (c.connections peerAddr).getD (Connection.new false none c.nextId) = conn ∧
        conn.fromPeer = .noConnection := by
  cases c.connections peerAddr with
  | none => exact .inr ⟨_, rfl, rfl⟩
  | some conn =>
    by_cases hf : conn.fromPeer = .noConnection
    · exact .inr ⟨conn, rfl, hf⟩
    · exact .inl ⟨conn, rfl, hf⟩

variable {c peerAddr} {conn : Connection}

/-- A duplicate session: the driver is spawned and the session dropped; nothing
else changes. -/
theorem handleNewConn_of_busy (h : c.connections peerAddr = some conn)
    (hf : conn.fromPeer ≠ .noConnection) :
    handleNewConn c peerAddr =
      { c with drivers := c.drivers ++ [⟨peerAddr, c.nextId, false⟩], nextId := c.nextId + 1 } := by
  simp [handleNewConn, h, hf]

/-- The record `handle_new_conn` fills is the one it found, with its lifetime,
or a new one with the counter's number. -/
theorem inboundRecord_origin
    (hconn : (c.connections peerAddr).getD (Connection.new false none c.nextId) = conn) (qConn : QConn) :
    (∃ conn₀, c.connections peerAddr = some conn₀ ∧
      conn₀.lifetime = (inboundRecord conn qConn).lifetime) ∨
    (inboundRecord conn qConn).lifetime = c.nextId := by
  cases hc : c.connections peerAddr with
  | none => rw [hc] at hconn; subst hconn; exact .inr rfl
  | some conn₀ => rw [hc] at hconn; subst hconn; exact .inl ⟨conn₀, rfl, rfl⟩

section free

variable (hconn : (c.connections peerAddr).getD (Connection.new false none c.nextId) = conn)
  (hf : conn.fromPeer = .noConnection)
include hconn hf

theorem handleNewConn_connections_of_free :
    (handleNewConn c peerAddr).connections =
      Function.update c.connections peerAddr (some (inboundRecord conn c.nextId)) := by
  unfold handleNewConn inboundRecord; dsimp only
  simp only [hconn, hf, if_true]
  cases conn.toPeer <;> simp [ToPeer.isEstablished]

theorem handleNewConn_events_of_free :
    (handleNewConn c peerAddr).events = c.events ++ inboundEvents conn peerAddr := by
  unfold handleNewConn inboundEvents; dsimp only
  simp only [hconn, hf, if_true]
  cases conn.toPeer <;> simp [fireConnected_events, Connection.successEvent]

theorem handleNewConn_readers_of_free :
    (handleNewConn c peerAddr).readers = c.readers ++ [⟨peerAddr, c.nextId⟩] := by
  unfold handleNewConn; dsimp only
  simp only [hconn, hf, if_true]
  cases conn.toPeer <;> simp

/-- Members only go, and a record that fired leaves no member of its group at
its address. -/
theorem mem_handleNewConn_members_of_free {m : Member} (h : m ∈ (handleNewConn c peerAddr).members) :
    m ∈ c.members ∧
      (conn.toPeer.isEstablished → conn.bootstrapGroupRef = some m.group → m.peerAddr ≠ peerAddr) := by
  unfold handleNewConn at h; dsimp only at h
  simp only [hconn, hf, if_true] at h
  cases ht : conn.toPeer <;> simp only [ht, ToPeer.isEstablished] at h ⊢
  all_goals first
    | exact ⟨h, by simp⟩
    | simpa using mem_fireConnected_members _ _ _ _ h

theorem mem_handleNewConn_finishedGroups_of_free {g : ℕ} (ht : conn.toPeer.isEstablished)
    (hg : conn.bootstrapGroupRef = some g) : g ∈ (handleNewConn c peerAddr).finishedGroups := by
  unfold handleNewConn; dsimp only
  simp only [hconn, hf, if_true]
  cases htp : conn.toPeer <;> simp only [htp, ToPeer.isEstablished, Bool.false_eq_true] at ht ⊢
  exact mem_fireConnected_finishedGroups _ _ _ _ hg

end free

/-- A finished group stays finished. -/
theorem mem_handleNewConn_finishedGroups_of_mem {g : ℕ} (h : g ∈ c.finishedGroups) :
    g ∈ (handleNewConn c peerAddr).finishedGroups := by
  unfold handleNewConn; dsimp only
  split
  · split <;> simp [mem_fireConnected_finishedGroups_iff, h]
  · exact h

end handleNewConn

end QuicP2p
