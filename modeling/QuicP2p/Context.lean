/-
# Operations on the context

The small moves every handler is made of: storing and removing a record,
sending an event, writing on a session, and the bootstrap group's three
operations. `connection.rs` (the group, `Connection::new`, the drop of a
record), `bootstrap_cache.rs` and `utils.rs` are not among the sources; what
they do is taken from the spec and marked so.

A record holds a clone of `event_tx` (`connect_to` and `handle_new_conn` give
it one), so removing a record is the one move besides the handlers' own sends
that writes on the event channel: the record's drop reports the user messages
it still queued and the error it was removed for (`Connection.dropEvents`).

The terminator `connect_terminator` makes is a channel: every clone of its
sender (one in the `Initiated` half, one in the group when the attempt is a
bootstrap) can fire it, and once none is left the receiver's stream ends, which
ends the attempt's `select` and drops its handshake (`senderAlive`).

Key definitions: `Connection.dropEvents`, `Context.removeConnection`,
`Context.terminateGroup`, `Context.senderAlive`.
-/
import QuicP2p.Types

namespace QuicP2p

/-- The terminator an `Initiated` half holds. -/
def ToPeer.terminator? : ToPeer → Option ℕ
  | .initiated k _ _ => some k
  | _ => none

theorem ToPeer.terminator?_eq_some {t : ToPeer} {k : ℕ} :
    t.terminator? = some k ↔ ∃ peerCertDer pendingSends, t = .initiated k peerCertDer pendingSends := by
  cases t <;> simp [ToPeer.terminator?]

/-- The bytes of a user message. -/
def WireMsg.userMsg? : WireMsg → Option (List UInt8)
  | .userMsg msg => some msg
  | _ => none

/-- The user messages an `Initiated` half still queues, in order. -/
def ToPeer.pendingUserMsgs : ToPeer → List (List UInt8)
  | .initiated _ _ pendingSends => pendingSends.filterMap WireMsg.userMsg?
  | _ => []

/-- Modelled from the spec: what the drop of the record for `peerAddr` sends on
the record's `event_tx` (`connection.rs` is not among the sources). Each user
message it still queues is reported unsent (§8, invariant 5), then the error it
was removed for, if any, as `ConnectionFailure` (§4.7, §7); `disconnect_from`
removes a record for no error. A bootstrap's loser, cancelled, so reports
`ConnectionFailure{ConnectionCancelled}`, as §4.7 and §7 have every failed
attempt do; §8 scenario 5 expects no event from it. -/
def Connection.dropEvents (conn : Connection) (peerAddr : SocketAddr) (cause : Option Error) :
    List Event :=
  conn.toPeer.pendingUserMsgs.map (.unsentUserMessage peerAddr) ++
    cause.toList.map (.connectionFailure peerAddr)

namespace Context

/-- Store `conn` as the record for `a`. -/
@[simps -fullyApplied]
def setConn (c : Context) (a : SocketAddr) (conn : Connection) : Context :=
  { c with connections := Function.update c.connections a (some conn) }

/-- `event_tx.send(e)`, tagged with the lifetime of the record `e` is about. -/
@[simps -fullyApplied]
def emit (c : Context) (lifetime : ℕ) (e : Event) : Context :=
  { c with events := c.events ++ [(lifetime, e)] }

/-- `write_to_peer_connection(peer_addr, q_conn, msg)`: `msg` goes out on
`qConn` from a future that reports a failure under `peerAddr`. -/
@[simps -fullyApplied]
def write (c : Context) (peerAddr : SocketAddr) (qConn : QConn) (msg : WireMsg) : Context :=
  { c with writes := c.writes ++ [(qConn, msg)], writers := c.writers ++ [⟨peerAddr, qConn⟩] }

/-- Modelled from the spec: dropping the group ref of the record for
`peerAddr` takes its member out of the group, so an attempt that failed is
absent from the termination set (§9). -/
@[simps -fullyApplied]
def dropGroupRef (c : Context) (group : ℕ) (peerAddr : SocketAddr) : Context :=
  { c with members := c.members.filter fun m => !(m.group = group ∧ m.peerAddr = peerAddr) }

/-- Modelled from the spec: `add_member_and_get_group_ref` stores the
terminator under the address, replacing one stored there, unless the group has
finished: then the late entrant is rejected (§4.5). -/
@[simps -fullyApplied]
def addMember (c : Context) (group : ℕ) (peerAddr : SocketAddr) (terminator : ℕ) : Context :=
  { c with
    members := if group ∈ c.finishedGroups then c.members
      else (c.dropGroupRef group peerAddr).members ++ [⟨group, peerAddr, terminator⟩] }

/-- `bootstrap_group_maker.map(|m| m.add_member_and_get_group_ref(..))`: the
ref is the group's number. -/
def register (c : Context) (bootstrapGroupMaker : Option ℕ) (peerAddr : SocketAddr)
    (terminator : ℕ) : Context × Option ℕ :=
  match bootstrapGroupMaker with
  | none => (c, none)
  | some g => (c.addMember g peerAddr terminator, some g)

/-- The members of `group` but the caller's have their terminators fired,
each receiver then holding the signal; the group is left empty and finished. -/
@[simps -fullyApplied]
def fireGroup (c : Context) (group : ℕ) (callerAddr : SocketAddr) : Context :=
  { c with
    signalled := c.signalled ++
      (c.members.filter fun m => m.group = group ∧ m.peerAddr ≠ callerAddr).map (·.terminator)
    members := c.members.filter fun m => m.group ≠ group
    finishedGroups := group :: c.finishedGroups }

/-- Modelled from the spec: `terminate_group(true)` (its only call) fires every
stored terminator but the caller's and marks the group finished; it is
idempotent (§4.5). -/
def terminateGroup (c : Context) (group : ℕ) (callerAddr : SocketAddr) : Context :=
  if group ∈ c.finishedGroups then c else c.fireGroup group callerAddr

section terminate

variable (c : Context) (group : ℕ) (callerAddr : SocketAddr)

@[simp] theorem terminateGroup_connections :
    (c.terminateGroup group callerAddr).connections = c.connections := by
  unfold terminateGroup; split <;> rfl

@[simp] theorem terminateGroup_leaves : (c.terminateGroup group callerAddr).leaves = c.leaves := by
  unfold terminateGroup; split <;> rfl

@[simp] theorem terminateGroup_events : (c.terminateGroup group callerAddr).events = c.events := by
  unfold terminateGroup; split <;> rfl

@[simp] theorem terminateGroup_nextId : (c.terminateGroup group callerAddr).nextId = c.nextId := by
  unfold terminateGroup; split <;> rfl

@[simp] theorem terminateGroup_writes : (c.terminateGroup group callerAddr).writes = c.writes := by
  unfold terminateGroup; split <;> rfl

@[simp] theorem terminateGroup_writers : (c.terminateGroup group callerAddr).writers = c.writers := by
  unfold terminateGroup; split <;> rfl

@[simp] theorem terminateGroup_readers :
    (c.terminateGroup group callerAddr).readers = c.readers := by
  unfold terminateGroup; split <;> rfl

@[simp] theorem terminateGroup_drivers :
    (c.terminateGroup group callerAddr).drivers = c.drivers := by
  unfold terminateGroup; split <;> rfl

@[simp] theorem terminateGroup_bootstrapCache :
    (c.terminateGroup group callerAddr).bootstrapCache = c.bootstrapCache := by
  unfold terminateGroup; split <;> rfl

@[simp] theorem terminateGroup_ourExtAddrTx :
    (c.terminateGroup group callerAddr).ourExtAddrTx = c.ourExtAddrTx := by
  unfold terminateGroup; split <;> rfl

@[simp] theorem terminateGroup_ourExtAddr :
    (c.terminateGroup group callerAddr).ourExtAddr = c.ourExtAddr := by
  unfold terminateGroup; split <;> rfl

/-- After `terminate_group` the group is finished, whether or not it was before. -/
theorem mem_terminateGroup_finishedGroups : group ∈ (c.terminateGroup group callerAddr).finishedGroups := by
  unfold terminateGroup; split
  · assumption
  · exact List.mem_cons_self _ _

/-- Terminating a group only takes members away. -/
theorem mem_terminateGroup_members {m : Member} (h : m ∈ (c.terminateGroup group callerAddr).members) :
    m ∈ c.members := by
  unfold terminateGroup at h; split at h
  · exact h
  · exact (List.mem_filter.1 h).1

theorem terminateGroup_finishedGroups :
    (c.terminateGroup group callerAddr).finishedGroups =
      if group ∈ c.finishedGroups then c.finishedGroups else group :: c.finishedGroups := by
  unfold terminateGroup; split <;> rfl

theorem mem_terminateGroup_finishedGroups_iff {g : ℕ} :
    g ∈ (c.terminateGroup group callerAddr).finishedGroups ↔ g ∈ c.finishedGroups ∨ g = group := by
  unfold terminateGroup
  split <;> rename_i h
  · exact ⟨.inl, fun h' => h'.elim id (· ▸ h)⟩
  · simp [or_comm]

/-- A fired terminator stays fired. -/
theorem mem_terminateGroup_signalled_of_mem {k : ℕ} (h : k ∈ c.signalled) :
    k ∈ (c.terminateGroup group callerAddr).signalled := by
  unfold terminateGroup; split
  · exact h
  · exact List.mem_append_left _ h

/-- Terminating an open group fires the terminator of each member away from
the caller. -/
theorem mem_terminateGroup_signalled {m : Member} (hm : m ∈ c.members) (hg : m.group = group)
    (ha : m.peerAddr ≠ callerAddr) (hf : group ∉ c.finishedGroups) :
    m.terminator ∈ (c.terminateGroup group callerAddr).signalled := by
  unfold terminateGroup
  rw [if_neg hf, fireGroup_signalled]
  exact List.mem_append_right _ (List.mem_map_of_mem _ (List.mem_filter.2 ⟨hm, by simp [hg, ha]⟩))

/-- Members of other groups stay. -/
theorem mem_terminateGroup_members_of_ne {m : Member} (hm : m ∈ c.members) (hg : m.group ≠ group) :
    m ∈ (c.terminateGroup group callerAddr).members := by
  unfold terminateGroup; split
  · exact hm
  · exact List.mem_filter.2 ⟨hm, by simp [hg]⟩

end terminate

/-- The events the drop of the record for `a` sends, tagged with its lifetime. -/
def dropped (c : Context) (a : SocketAddr) (cause : Option Error) : List (ℕ × Event) :=
  match c.connections a with
  | some conn => (conn.dropEvents a cause).map (conn.lifetime, ·)
  | none => []

/-- `connections.remove(&a)`: the record goes, and with it its group ref, whose
drop takes the member for `a` out of its group, and its `event_tx`, on which
its drop sends `Connection.dropEvents`. `cause` is the error the caller
handles. -/
@[simps -fullyApplied]
def removeConnection (c : Context) (a : SocketAddr) (cause : Option Error) : Context :=
  { c with
    connections := Function.update c.connections a none
    members := c.members.filter fun m =>
      !((c.connections a).bind (·.bootstrapGroupRef) = some m.group ∧ m.peerAddr = a)
    events := c.events ++ c.dropped a cause }

/-- Some clone of the attempt's terminator is alive: in the `Initiated` half of
the record, or in a group. -/
def senderAlive (c : Context) (l : Leaf) : Bool :=
  ((c.connections l.peerAddr).bind (·.toPeer.terminator?) == some l.terminator) ||
    c.members.any fun m => m.terminator = l.terminator

/-- Every record satisfies `P`. -/
def AllRecords (P : Connection → Prop) (c : Context) : Prop :=
  ∀ a conn, c.connections a = some conn → P conn

section allRecords

variable {P : Connection → Prop} {c c' : Context}

theorem AllRecords.of_connections (h : c.AllRecords P) (hc : c'.connections = c.connections) :
    c'.AllRecords P :=
  fun a conn h' => h a conn (hc ▸ h')

/-- Storing a record that satisfies `P` keeps every record satisfying `P`. -/
theorem AllRecords.update (h : c.AllRecords P) {a : SocketAddr} {o : Option Connection}
    (ho : ∀ conn, o = some conn → P conn)
    (hc : c'.connections = Function.update c.connections a o) : c'.AllRecords P := by
  intro b conn hb
  rw [hc] at hb
  by_cases hba : b = a
  · subst hba; rw [Function.update_same] at hb; exact ho conn hb
  · rw [Function.update_noteq hba] at hb; exact h b conn hb

theorem AllRecords.removeConnection (h : c.AllRecords P) (a : SocketAddr) (cause : Option Error) :
    (c.removeConnection a cause).AllRecords P :=
  h.update (fun _ h => by cases h) rfl

end allRecords

end Context

/-- Modelled from the spec: `BootstrapCache::add_peer` (not among the sources)
moves a peer it holds to the back and, past the capacity, evicts from the
front (§3). -/
def addPeer (capacity : ℕ) (info : NodeInfo) (cache : List NodeInfo) : List NodeInfo :=
  (cache.erase info ++ [info]).drop ((cache.erase info ++ [info]).length - capacity)

end QuicP2p
