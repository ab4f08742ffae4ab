/-
# The connect path

`connect_to`, `handle_new_connection_res` and `handle_connect_err`
(`connect.rs`). `connect_to` derives the client config from the candidate's
certificate, takes or makes the record, and when its outbound half is free
installs `Initiated` with a fresh terminator and spawns the attempt's leaf;
when the handshake succeeds, `handle_new_connection_res` sends our handshake,
fires the success event if the inbound half is ready, drains the buffered
reads, flushes the queued sends and commits `Established`.

The three places that fire a success event (two here, one in the listener)
are one definition, `fireConnected`.
-/
import QuicP2p.Communicate

namespace QuicP2p

/-- `peer_config::new_client_cfg`: a config trusting exactly the peer's
certificate, which stands for the config here. -/
def newClientCfg (env : Env) (peerCertDer : CertDer) : Except Error CertDer :=
  if env.certParses peerCertDer then .ok peerCertDer else .error .certificateParseError

/-- `handle_connect_err`: any error but `DuplicateConnectionToPeer` removes the
record for the address, whose drop reports the error. -/
def handleConnectErr (c : Context) (peerAddr : SocketAddr) (e : Error) : Context :=
  match e with
  | .duplicateConnectionToPeer _ => c
  | _ => c.removeConnection peerAddr (some e)

/-- `entry(peer_addr).or_insert_with(..)`: the record for `peerAddr`; a new one
gets the group ref the maker hands out for `terminator`. -/
def entry (c : Context) (peerAddr : SocketAddr) (bootstrapGroupMaker : Option ℕ)
    (terminator : ℕ) : Context × Connection :=
  match c.connections peerAddr with
  | some conn => (c, conn)
  | none =>
    let r := c.register bootstrapGroupMaker peerAddr terminator
    (r.1, Connection.new true r.2 c.nextId)

/-- The branch of `connect_to` for a record whose outbound half is free: a
Client marks the inbound half not needed, the record joins the group if it has
none, `Initiated` goes in, and `connect_with` either spawns the leaf or fails. -/
def initiate (env : Env) (c : Context) (peerInfo : NodeInfo) (sendAfterConnect : Option WireMsg)
    (bootstrapGroupMaker : Option ℕ) (conn : Connection) (terminator : ℕ) :
    Except String (Context × Except Error Unit) :=
  if env.ourType = .client ∧ conn.fromPeer ≠ .noConnection then
    .error "Logic Error - cannot expect Network to reverse connect to a client"
  else
    let conn := if env.ourType = .client then { conn with fromPeer := .notNeeded } else conn
    let reg := if conn.bootstrapGroupRef.isNone then
      c.register bootstrapGroupMaker peerInfo.peerAddr terminator else (c, conn.bootstrapGroupRef)
    let c := { reg.1.setConn peerInfo.peerAddr { conn with
      bootstrapGroupRef := reg.2
      toPeer := .initiated terminator peerInfo.peerCertDer sendAfterConnect.toList } with
      nextId := terminator + 1 }
    if env.connectWithOk peerInfo.peerAddr then
      .ok ({ c with leaves := c.leaves ++ [⟨peerInfo.peerAddr, terminator, peerInfo.peerCertDer⟩] },
        .ok ())
    else .ok (c, .error .quicConnectError)

theorem handleConnectErr_eq (c : Context) (peerAddr : SocketAddr) (e : Error) :
    handleConnectErr c peerAddr e = c ∨
      handleConnectErr c peerAddr e = c.removeConnection peerAddr (some e) := by
  cases e <;> simp [handleConnectErr]

@[simp] theorem handleConnectErr_nextId (c : Context) (peerAddr : SocketAddr) (e : Error) :
    (handleConnectErr c peerAddr e).nextId = c.nextId := by
  rcases handleConnectErr_eq c peerAddr e with h | h <;> simp [h]

/-- `if let Err(e) = r.as_ref() { handle_connect_err(peer_addr, e) }`. -/
def afterConnect (peerAddr : SocketAddr) : Context × Except Error Unit → Context × Except Error Unit
  | (c, .error e) => (handleConnectErr c peerAddr e, .error e)
  | (c, .ok u) => (c, .ok u)

/-- `connect_to`: the context after the call and what it returns, or the text
of its panic. -/
def connectTo (env : Env) (c : Context) (peerInfo : NodeInfo) (sendAfterConnect : Option WireMsg)
    (bootstrapGroupMaker : Option ℕ) : Except String (Context × Except Error Unit) :=
  match newClientCfg env peerInfo.peerCertDer with
  | .error e => .ok (handleConnectErr c peerInfo.peerAddr e, .error e)
  | .ok _ =>
    let ent := entry c peerInfo.peerAddr bootstrapGroupMaker c.nextId
    (if ent.2.toPeer = .noConnection then
      initiate env ent.1 peerInfo sendAfterConnect bootstrapGroupMaker ent.2 c.nextId
    else .ok (ent.1, .error (.duplicateConnectionToPeer peerInfo.peerAddr))).map
      (afterConnect peerInfo.peerAddr)

/-- The record `connect_to` leaves for `peerInfo` when the outbound half was
free: the one it found (or a new one), not needed inbound on a Client, in the
group it joined, with `Initiated` for attempt `c.nextId`. -/
def initiatedRecord (env : Env) (c : Context) (peerInfo : NodeInfo)
    (sendAfterConnect : Option WireMsg) (bootstrapGroupMaker : Option ℕ) : Connection :=
  let conn := (c.connections peerInfo.peerAddr).getD (Connection.new true none c.nextId)
  { conn with
    fromPeer := if env.ourType = .client then .notNeeded else conn.fromPeer
    bootstrapGroupRef := conn.bootstrapGroupRef.or bootstrapGroupMaker
    toPeer := .initiated c.nextId peerInfo.peerCertDer sendAfterConnect.toList }

/-- The context once `connect_to` has installed `initiatedRecord`: the record
joined the group only if it had none. -/
def installed (env : Env) (c : Context) (peerInfo : NodeInfo) (sendAfterConnect : Option WireMsg)
    (bootstrapGroupMaker : Option ℕ) : Context :=
  let c' := if ((c.connections peerInfo.peerAddr).bind (·.bootstrapGroupRef)).isNone then
    (c.register bootstrapGroupMaker peerInfo.peerAddr c.nextId).1 else c
  { c'.setConn peerInfo.peerAddr (initiatedRecord env c peerInfo sendAfterConnect bootstrapGroupMaker)
    with nextId := c.nextId + 1 }

section installed

variable (env : Env) (c : Context) (peerInfo : NodeInfo) (sendAfterConnect : Option WireMsg)
  (bootstrapGroupMaker : Option ℕ)

@[simp] theorem initiatedRecord_toPeer :
    (initiatedRecord env c peerInfo sendAfterConnect bootstrapGroupMaker).toPeer =
      .initiated c.nextId peerInfo.peerCertDer sendAfterConnect.toList := rfl

/-- The record joins the group only if it had none. -/
theorem initiatedRecord_bootstrapGroupRef :
    (initiatedRecord env c peerInfo sendAfterConnect bootstrapGroupMaker).bootstrapGroupRef =
      ((c.connections peerInfo.peerAddr).bind (·.bootstrapGroupRef)).or bootstrapGroupMaker := by
  unfold initiatedRecord; cases c.connections peerInfo.peerAddr <;> rfl

/-- A record found keeps its lifetime; a new one is the insertion `c.nextId`. -/
theorem initiatedRecord_lifetime :
    (initiatedRecord env c peerInfo sendAfterConnect bootstrapGroupMaker).lifetime =
      ((c.connections peerInfo.peerAddr).map (·.lifetime)).getD c.nextId := by
  unfold initiatedRecord; cases c.connections peerInfo.peerAddr <;> rfl

/-- The record is the one found, with its lifetime, or a new one with the
counter's number. -/
theorem initiatedRecord_origin :
    (∃ conn, c.connections peerInfo.peerAddr = some conn ∧
      conn.lifetime = (initiatedRecord env c peerInfo sendAfterConnect bootstrapGroupMaker).lifetime) ∨
    (initiatedRecord env c peerInfo sendAfterConnect bootstrapGroupMaker).lifetime = c.nextId := by
  rw [initiatedRecord_lifetime]
  cases c.connections peerInfo.peerAddr with
  | none => exact .inr rfl
  | some conn => exact .inl ⟨conn, rfl, rfl⟩

theorem initiatedRecord_fromPeer :
    (initiatedRecord env c peerInfo sendAfterConnect bootstrapGroupMaker).fromPeer =
      if env.ourType = .client then .notNeeded
      else ((c.connections peerInfo.peerAddr).map (·.fromPeer)).getD .noConnection := by
  unfold initiatedRecord; cases c.connections peerInfo.peerAddr <;> rfl

@[simp] theorem installed_connections :
    (installed env c peerInfo sendAfterConnect bootstrapGroupMaker).connections =
      Function.update c.connections peerInfo.peerAddr
        (some (initiatedRecord env c peerInfo sendAfterConnect bootstrapGroupMaker)) := by
  unfold installed Context.register; split <;> (try split) <;> rfl

@[simp] theorem installed_nextId :
    (installed env c peerInfo sendAfterConnect bootstrapGroupMaker).nextId = c.nextId + 1 := by
  unfold installed Context.register; split <;> (try split) <;> rfl

@[simp] theorem installed_leaves :
    (installed env c peerInfo sendAfterConnect bootstrapGroupMaker).leaves = c.leaves := by
  unfold installed Context.register; split <;> (try split) <;> rfl

@[simp] theorem installed_events :
    (installed env c peerInfo sendAfterConnect bootstrapGroupMaker).events = c.events := by
  unfold installed Context.register; split <;> (try split) <;> rfl

@[simp] theorem installed_writes :
    (installed env c peerInfo sendAfterConnect bootstrapGroupMaker).writes = c.writes := by
  unfold installed Context.register; split <;> (try split) <;> rfl

@[simp] theorem installed_readers :
    (installed env c peerInfo sendAfterConnect bootstrapGroupMaker).readers = c.readers := by
  unfold installed Context.register; split <;> (try split) <;> rfl

@[simp] theorem installed_drivers :
    (installed env c peerInfo sendAfterConnect bootstrapGroupMaker).drivers = c.drivers := by
  unfold installed Context.register; split <;> (try split) <;> rfl

@[simp] theorem installed_signalled :
    (installed env c peerInfo sendAfterConnect bootstrapGroupMaker).signalled = c.signalled := by
  unfold installed Context.register; split <;> (try split) <;> rfl

@[simp] theorem installed_finishedGroups :
    (installed env c peerInfo sendAfterConnect bootstrapGroupMaker).finishedGroups =
      c.finishedGroups := by
  unfold installed Context.register; split <;> (try split) <;> rfl

@[simp] theorem installed_bootstrapCache :
    (installed env c peerInfo sendAfterConnect bootstrapGroupMaker).bootstrapCache =
      c.bootstrapCache := by
  unfold installed Context.register; split <;> (try split) <;> rfl

@[simp] theorem installed_ourExtAddrTx :
    (installed env c peerInfo sendAfterConnect bootstrapGroupMaker).ourExtAddrTx =
      c.ourExtAddrTx := by
  unfold installed Context.register; split <;> (try split) <;> rfl

/-- A member is an old one, or the attempt's own terminator, registered under
the maker's group when the record had no group. -/
theorem mem_installed_members {m : Member}
    (h : m ∈ (installed env c peerInfo sendAfterConnect bootstrapGroupMaker).members) :
    m ∈ c.members ∨
      (((c.connections peerInfo.peerAddr).bind (·.bootstrapGroupRef)).isNone ∧
        bootstrapGroupMaker = some m.group ∧ m.peerAddr = peerInfo.peerAddr ∧
        m.terminator = c.nextId) := by
  unfold installed Context.register at h
  split at h
  · rename_i hn
    split at h
    · exact .inl h
    · simp only [Context.setConn_members, Context.addMember_members, Context.dropGroupRef_members] at h
      split at h
      · exact .inl h
      · rcases List.mem_append.1 h with h | h
        · exact .inl (List.mem_filter.1 h).1
        · rw [List.mem_singleton] at h; subst h; exact .inr ⟨hn, rfl, rfl, rfl⟩
  · exact .inl h

/-- A new record made for a group joins it, when the group is open. -/
theorem mem_installed_members_of_none {g : ℕ} (hc : c.connections peerInfo.peerAddr = none)
    (hg : bootstrapGroupMaker = some g) (hf : g ∉ c.finishedGroups) :
    ⟨g, peerInfo.peerAddr, c.nextId⟩ ∈
      (installed env c peerInfo sendAfterConnect bootstrapGroupMaker).members := by
  simp [installed, hc, hg, Context.register, hf]

/-- Members at other addresses stay. -/
theorem mem_installed_members_of_ne {m : Member} (hm : m ∈ c.members)
    (ha : m.peerAddr ≠ peerInfo.peerAddr) :
    m ∈ (installed env c peerInfo sendAfterConnect bootstrapGroupMaker).members := by
  unfold installed Context.register
  split
  · split
    · exact hm
    · simp only [Context.setConn_members, Context.addMember_members]
      split
      · exact hm
      · exact List.mem_append_left _ (List.mem_filter.2 ⟨hm, by simp [ha]⟩)
  · exact hm

end installed

section connectTo

variable {env : Env} {c : Context} {peerInfo : NodeInfo} {sendAfterConnect : Option WireMsg}
  {bootstrapGroupMaker : Option ℕ}

/-- A certificate no config comes from: the error, and the record for the
address is removed. -/
theorem connectTo_of_certParses_false (h : env.certParses peerInfo.peerCertDer = false) :
    connectTo env c peerInfo sendAfterConnect bootstrapGroupMaker =
      .ok (c.removeConnection peerInfo.peerAddr (some .certificateParseError),
        .error .certificateParseError) := by
  simp [connectTo, newClientCfg, h, handleConnectErr]

/-- An outbound half already in use: `DuplicateConnectionToPeer`, and nothing
changes. -/
theorem connectTo_of_busy (h : env.certParses peerInfo.peerCertDer = true) {conn : Connection}
    (hc : c.connections peerInfo.peerAddr = some conn) (ht : conn.toPeer ≠ .noConnection) :
    connectTo env c peerInfo sendAfterConnect bootstrapGroupMaker =
      .ok (c, .error (.duplicateConnectionToPeer peerInfo.peerAddr)) := by
  simp [connectTo, newClientCfg, h, entry, hc, ht, Except.map, afterConnect, handleConnectErr]

/-- A free outbound half: `Initiated` goes in, then the leaf is spawned or, when
`connect_with` fails, the record is removed again. -/
theorem connectTo_of_free (h : env.certParses peerInfo.peerCertDer = true)
    (hfree : ∀ conn, c.connections peerInfo.peerAddr = some conn →
      conn.toPeer = .noConnection ∧ (env.ourType = .client → conn.fromPeer = .noConnection)) :
    connectTo env c peerInfo sendAfterConnect bootstrapGroupMaker =
      .ok (if env.connectWithOk peerInfo.peerAddr then
        ({ installed env c peerInfo sendAfterConnect bootstrapGroupMaker with
          leaves := c.leaves ++ [⟨peerInfo.peerAddr, c.nextId, peerInfo.peerCertDer⟩] }, .ok ())
      else ((installed env c peerInfo sendAfterConnect bootstrapGroupMaker).removeConnection
        peerInfo.peerAddr (some .quicConnectError), .error .quicConnectError)) := by
  obtain ⟨a, cert⟩ := peerInfo
  cases hc : c.connections a with
  | none =>
    cases bootstrapGroupMaker <;> cases hw : env.connectWithOk a <;> cases hot : env.ourType <;>
      simp [connectTo, newClientCfg, h, entry, hc, initiate, installed, initiatedRecord,
        Context.register, Connection.new, hw, hot, Except.map, afterConnect, handleConnectErr]
  | some conn =>
    obtain ⟨ht, hf⟩ := hfree conn hc
    obtain ⟨tp, fp, ref, we, lt⟩ := conn
    simp only at ht hf
    subst ht
    cases ref <;> cases bootstrapGroupMaker <;> cases hw : env.connectWithOk a <;>
      cases hot : env.ourType <;> simp only [hot, forall_const] at hf <;>
      simp [connectTo, newClientCfg, h, entry, hc, initiate, installed, initiatedRecord,
        Context.register, hw, hot, hf, Except.map, afterConnect, handleConnectErr]

/-- A Client dialling a peer that reached it first panics. -/
theorem connectTo_of_reverse (h : env.certParses peerInfo.peerCertDer = true) {conn : Connection}
    (hc : c.connections peerInfo.peerAddr = some conn) (ht : conn.toPeer = .noConnection)
    (hot : env.ourType = .client) (hf : conn.fromPeer ≠ .noConnection) :
    connectTo env c peerInfo sendAfterConnect bootstrapGroupMaker =
      .error "Logic Error - cannot expect Network to reverse connect to a client" := by
  simp [connectTo, newClientCfg, h, entry, hc, ht, initiate, hot, hf, Except.map]

/-- What a call that returns can have done: removed the record (its
certificate gave no config), nothing (the outbound half was busy), or
installed `Initiated` on a free half, then removed it again if `connect_with`
failed. -/
theorem connectTo_cases {c' : Context} {r : Except Error Unit}
    (h : connectTo env c peerInfo sendAfterConnect bootstrapGroupMaker = .ok (c', r)) :
    env.certParses peerInfo.peerCertDer = false ∧
      c' = c.removeConnection peerInfo.peerAddr (some .certificateParseError) ∨ c' = c ∨
      ((∀ conn, c.connections peerInfo.peerAddr = some conn →
        conn.toPeer = .noConnection ∧ (env.ourType = .client → conn.fromPeer = .noConnection)) ∧
       (c' = { installed env c peerInfo sendAfterConnect bootstrapGroupMaker with
          leaves := c.leaves ++ [⟨peerInfo.peerAddr, c.nextId, peerInfo.peerCertDer⟩] } ∨
        env.connectWithOk peerInfo.peerAddr = false ∧
        c' = (installed env c peerInfo sendAfterConnect bootstrapGroupMaker).removeConnection
          peerInfo.peerAddr (some .quicConnectError))) := by
  cases hcert : env.certParses peerInfo.peerCertDer
  · rw [connectTo_of_certParses_false hcert] at h
    cases h; exact .inl ⟨rfl, rfl⟩
  by_cases hbusy : ∃ conn, c.connections peerInfo.peerAddr = some conn ∧ conn.toPeer ≠ .noConnection
  · obtain ⟨conn, hc, ht⟩ := hbusy
    rw [connectTo_of_busy hcert hc ht] at h
    cases h; exact .inr (.inl rfl)
  simp only [not_exists, not_and, ne_eq, not_not] at hbusy
  by_cases hrev : ∃ conn, c.connections peerInfo.peerAddr = some conn ∧ env.ourType = .client ∧
      conn.fromPeer ≠ .noConnection
  · obtain ⟨conn, hc, hot, hf⟩ := hrev
    rw [connectTo_of_reverse hcert hc (hbusy conn hc) hot hf] at h
    cases h
  simp only [not_exists, not_and, ne_eq, not_not] at hrev
  have hfree := fun conn hc => And.intro (hbusy conn hc) (hrev conn hc)
  rw [connectTo_of_free hcert hfree] at h
  refine .inr (.inr ⟨hfree, ?_⟩)
  split at h <;> rename_i hw <;> cases h
  · exact .inl rfl
  · exact .inr ⟨by simpa using hw, rfl⟩

/-- A call that panics is the reverse connect of a Client. -/
theorem connectTo_error {e : String}
    (h : connectTo env c peerInfo sendAfterConnect bootstrapGroupMaker = .error e) :
    ∃ conn, c.connections peerInfo.peerAddr = some conn ∧ conn.toPeer = .noConnection ∧
      env.ourType = .client ∧ conn.fromPeer ≠ .noConnection := by
  by_contra hrev
  cases hcert : env.certParses peerInfo.peerCertDer
  · rw [connectTo_of_certParses_false hcert] at h; cases h
  by_cases hbusy : ∃ conn, c.connections peerInfo.peerAddr = some conn ∧ conn.toPeer ≠ .noConnection
  · obtain ⟨conn, hc, ht⟩ := hbusy
    rw [connectTo_of_busy hcert hc ht] at h; cases h
  have hfree : ∀ conn, c.connections peerInfo.peerAddr = some conn →
      conn.toPeer = .noConnection ∧ (env.ourType = .client → conn.fromPeer = .noConnection) :=
    fun conn hc => ⟨by by_contra ht; exact hbusy ⟨conn, hc, ht⟩,
      fun hot => by by_contra hf; exact hrev ⟨conn, hc, by by_contra ht; exact hbusy ⟨conn, hc, ht⟩, hot, hf⟩⟩
  rw [connectTo_of_free hcert hfree] at h
  split at h <;> cases h

end connectTo

/-- The success event of a record: with a group ref, which it gives up,
`terminate_group(true)` and `BootstrappedTo`; without, `ConnectedTo`. -/
def fireConnected (c : Context) (peerAddr : SocketAddr) (conn : Connection) (nodeInfo : NodeInfo) :
    Context × Connection :=
  match conn.bootstrapGroupRef with
  | some g =>
    (((c.terminateGroup g peerAddr).dropGroupRef g peerAddr).emit conn.lifetime
      (.bootstrappedTo nodeInfo), { conn with bootstrapGroupRef := none })
  | none => (c.emit conn.lifetime (.connectedTo (.node nodeInfo)), conn)

/-- The success event a record fires: `BootstrappedTo` exactly when it holds a
group ref. -/
def Connection.successEvent (conn : Connection) (nodeInfo : NodeInfo) : Event :=
  match conn.bootstrapGroupRef with
  | some _ => .bootstrappedTo nodeInfo
  | none => .connectedTo (.node nodeInfo)

section fire

variable (c : Context) (peerAddr : SocketAddr) (conn : Connection) (nodeInfo : NodeInfo)

@[simp] theorem fireConnected_snd :
    (fireConnected c peerAddr conn nodeInfo).2 = { conn with bootstrapGroupRef := none } := by
  unfold fireConnected; split <;> rename_i h <;> simp [← h]

@[simp] theorem fireConnected_connections :
    (fireConnected c peerAddr conn nodeInfo).1.connections = c.connections := by
  unfold fireConnected; split <;> simp

@[simp] theorem fireConnected_leaves :
    (fireConnected c peerAddr conn nodeInfo).1.leaves = c.leaves := by
  unfold fireConnected; split <;> simp

@[simp] theorem fireConnected_nextId :
    (fireConnected c peerAddr conn nodeInfo).1.nextId = c.nextId := by
  unfold fireConnected; split <;> simp

@[simp] theorem fireConnected_writes :
    (fireConnected c peerAddr conn nodeInfo).1.writes = c.writes := by
  unfold fireConnected; split <;> simp

@[simp] theorem fireConnected_readers :
    (fireConnected c peerAddr conn nodeInfo).1.readers = c.readers := by
  unfold fireConnected; split <;> simp

@[simp] theorem fireConnected_drivers :
    (fireConnected c peerAddr conn nodeInfo).1.drivers = c.drivers := by
  unfold fireConnected; split <;> simp

@[simp] theorem fireConnected_bootstrapCache :
    (fireConnected c peerAddr conn nodeInfo).1.bootstrapCache = c.bootstrapCache := by
  unfold fireConnected; split <;> simp

@[simp] theorem fireConnected_ourExtAddrTx :
    (fireConnected c peerAddr conn nodeInfo).1.ourExtAddrTx = c.ourExtAddrTx := by
  unfold fireConnected; split <;> simp

@[simp] theorem fireConnected_ourExtAddr :
    (fireConnected c peerAddr conn nodeInfo).1.ourExtAddr = c.ourExtAddr := by
  unfold fireConnected; split <;> simp

theorem fireConnected_events :
    (fireConnected c peerAddr conn nodeInfo).1.events =
      c.events ++ [(conn.lifetime, conn.successEvent nodeInfo)] := by
  unfold fireConnected Connection.successEvent; split <;> rename_i h <;> simp [h]

/-- A record with a group ref finishes its group when it fires. -/
theorem mem_fireConnected_finishedGroups {g : ℕ} (hg : conn.bootstrapGroupRef = some g) :
    g ∈ (fireConnected c peerAddr conn nodeInfo).1.finishedGroups := by
  simp only [fireConnected, hg, Context.emit_finishedGroups, Context.dropGroupRef_finishedGroups]
  exact Context.mem_terminateGroup_finishedGroups _ _ _

/-- Firing only takes members away, and none of the record's group at its
address is left. -/
theorem mem_fireConnected_members {m : Member}
    (h : m ∈ (fireConnected c peerAddr conn nodeInfo).1.members) :
    m ∈ c.members ∧ (conn.bootstrapGroupRef = some m.group → m.peerAddr ≠ peerAddr) := by
  unfold fireConnected at h
  split at h <;> rename_i hg
  · simp only [Context.emit_members, Context.dropGroupRef_members, List.mem_filter] at h
    refine ⟨Context.mem_terminateGroup_members _ _ _ h.1, fun he ha => ?_⟩
    rw [hg, Option.some.injEq] at he
    simp [he, ha] at h
  · simp only [Context.emit_members] at h
    exact ⟨h, fun he => by rw [hg] at he; cases he⟩

/-- The group of the record's ref finishes, if it had not. -/
theorem fireConnected_finishedGroups :
    (fireConnected c peerAddr conn nodeInfo).1.finishedGroups =
      (conn.bootstrapGroupRef.filter (· ∉ c.finishedGroups)).toList ++ c.finishedGroups := by
  unfold fireConnected
  split <;> rename_i hg
  · rw [hg]
    by_cases hf : ‹ℕ› ∈ c.finishedGroups <;> simp [Context.terminateGroup_finishedGroups, Option.filter, hf]
  · simp [hg]

theorem mem_fireConnected_finishedGroups_iff {g : ℕ} :
    g ∈ (fireConnected c peerAddr conn nodeInfo).1.finishedGroups ↔
      g ∈ c.finishedGroups ∨ conn.bootstrapGroupRef = some g := by
  unfold fireConnected
  split <;> rename_i hg
  · simp [Context.mem_terminateGroup_finishedGroups_iff, hg, @eq_comm _ g]
  · simp [hg]

theorem mem_fireConnected_signalled_of_mem {k : ℕ} (h : k ∈ c.signalled) :
    k ∈ (fireConnected c peerAddr conn nodeInfo).1.signalled := by
  unfold fireConnected
  split
  · exact Context.mem_terminateGroup_signalled_of_mem _ _ _ h
  · exact h

/-- A record that fires with the ref of an open group fires the terminators of
the group's members at other addresses. -/
theorem mem_fireConnected_signalled {m : Member} (hm : m ∈ c.members)
    (hg : conn.bootstrapGroupRef = some m.group) (ha : m.peerAddr ≠ peerAddr)
    (hf : m.group ∉ c.finishedGroups) :
    m.terminator ∈ (fireConnected c peerAddr conn nodeInfo).1.signalled := by
  simp only [fireConnected, hg, Context.emit_signalled, Context.dropGroupRef_signalled]
  exact Context.mem_terminateGroup_signalled _ _ _ hm rfl ha hf

/-- Members of groups other than the record's stay. -/
theorem mem_fireConnected_members_of_ne {m : Member} (hm : m ∈ c.members)
    (hg : conn.bootstrapGroupRef ≠ some m.group) :
    m ∈ (fireConnected c peerAddr conn nodeInfo).1.members := by
  unfold fireConnected
  split <;> rename_i hg'
  · rw [hg', ne_eq, Option.some.injEq] at hg
    simp only [Context.emit_members, Context.dropGroupRef_members, List.mem_filter]
    exact ⟨Context.mem_terminateGroup_members_of_ne _ _ _ hm (Ne.symm hg), by simp [Ne.symm hg]⟩
  · exact hm

end fire

/-- The drain of `pending_reads`: each read goes to `dispatch_wire_msg` with
`c.our_ext_addr_tx.take()`, taken afresh on every turn. -/
def drainPendingReads (lifetime : ℕ) (peer : Peer) (qConn : QConn) :
    Context → List WireMsg → Context
  | c, [] => c
  | c, r :: rs =>
    drainPendingReads lifetime peer qConn
      (dispatchWireMsg { c with ourExtAddrTx := false } lifetime peer qConn c.ourExtAddrTx r) rs

/-- What a drain of `rs` leaves in the external-address receiver: the slot is
emptied by the first read, so only that read can deliver. -/
def drainedExtAddr (tx : Bool) (addr : Option SocketAddr) : List WireMsg → Option SocketAddr
  | [] => addr
  | r :: _ => dispatchedExtAddr tx addr r

@[simp] theorem drainedExtAddr_false (addr : Option SocketAddr) :
    ∀ rs, drainedExtAddr false addr rs = addr
  | [] => rfl
  | r :: _ => by cases r <;> rfl

/-- The drain dispatches every read in order: their events and answers follow
one another, and the slot is emptied by the first read, whatever it is. -/
theorem drainPendingReads_eq (lifetime : ℕ) (peer : Peer) (qConn : QConn) :
    ∀ (c : Context) (rs : List WireMsg), drainPendingReads lifetime peer qConn c rs =
      { c with
        events := c.events ++ rs.flatMap (dispatchedEvents lifetime peer)
        writes := c.writes ++ rs.flatMap (dispatchedWrites peer qConn)
        writers := c.writers ++ writersOf peer.peerAddr (rs.flatMap (dispatchedWrites peer qConn))
        ourExtAddrTx := c.ourExtAddrTx && rs.isEmpty
        ourExtAddr := drainedExtAddr c.ourExtAddrTx c.ourExtAddr rs }
  | c, [] => by simp [drainPendingReads, drainedExtAddr]
  | c, r :: rs => by
    rw [drainPendingReads, drainPendingReads_eq, dispatchWireMsg_eq]
    simp only [drainedExtAddr_false]
    simp [drainedExtAddr]

/-- The inbound half once its `pending_reads` are drained. -/
def FromPeer.drain : FromPeer → FromPeer
  | .established qConn _ => .established qConn []
  | f => f

/-- The reads an inbound half holds back. -/
def FromPeer.pendingReads : FromPeer → List WireMsg
  | .established _ pendingReads => pendingReads
  | _ => []

/-- The handshake `handle_new_connection_res` sends, by the inbound half. -/
def handshakeToSend (env : Env) : FromPeer → List WireMsg
  | .noConnection => [.handshake (.node env.ourCertDer)]
  | .notNeeded => [.handshake .client]
  | .established _ _ => []

/-- The record `handle_new_connection_res` commits: `Established` outbound, the
inbound half drained, and the group ref given up if the success event fired. -/
def establishedRecord (conn : Connection) (peerCertDer : CertDer) (qConn : QConn) : Connection :=
  { conn with
    toPeer := .established peerCertDer qConn
    fromPeer := conn.fromPeer.drain
    bootstrapGroupRef := if conn.fromPeer.isReady then none else conn.bootstrapGroupRef }

@[simp] theorem FromPeer.pendingReads_drain (f : FromPeer) : f.drain.pendingReads = [] := by
  cases f <;> rfl

/-- The drain keeps an inbound half that is not needed, and the session of one
that is up. -/
@[simp] theorem FromPeer.drain_eq_notNeeded {f : FromPeer} : f.drain = .notNeeded ↔ f = .notNeeded := by
  cases f <;> simp [FromPeer.drain]

theorem FromPeer.drain_eq_established {f : FromPeer} {q : QConn} {rs : List WireMsg}
    (h : f.drain = .established q rs) : ∃ rs', f = .established q rs' := by
  cases f <;> simp_all [FromPeer.drain]

@[simp] theorem establishedRecord_toPeer (conn : Connection) (peerCertDer : CertDer) (qConn : QConn) :
    (establishedRecord conn peerCertDer qConn).toPeer = .established peerCertDer qConn := rfl

@[simp] theorem establishedRecord_fromPeer (conn : Connection) (peerCertDer : CertDer)
    (qConn : QConn) : (establishedRecord conn peerCertDer qConn).fromPeer = conn.fromPeer.drain := rfl

/-- `match conn.from_peer` in `handle_new_connection_res`: our handshake, the
success event and the drain; the flag is `should_accept_incoming`. -/
def greet (env : Env) (c : Context) (peerAddr : SocketAddr) (conn : Connection)
    (nodeInfo : NodeInfo) (qConn : QConn) : Context × Connection × Bool :=
  match conn.fromPeer with
  | .noConnection => (c.write peerAddr qConn (.handshake (.node env.ourCertDer)), conn, false)
  | .notNeeded =>
    let r := fireConnected (c.write peerAddr qConn (.handshake .client)) peerAddr conn nodeInfo
    (r.1, r.2, true)
  | .established q pendingReads =>
    let r := fireConnected c peerAddr conn nodeInfo
    (drainPendingReads conn.lifetime (.node nodeInfo) qConn r.1 pendingReads,
      { r.2 with fromPeer := .established q [] }, false)

/-- The flush of `pending_sends`, in order, on `qConn`. -/
def flushPendingSends (c : Context) (peerAddr : SocketAddr) (qConn : QConn)
    (pendingSends : List WireMsg) : Context :=
  pendingSends.foldl (fun c m => c.write peerAddr qConn m) c

/-- The `Initiated` branch of `handle_new_connection_res`. -/
def establish (env : Env) (c : Context) (peerAddr : SocketAddr) (conn : Connection)
    (peerCertDer : CertDer) (pendingSends : List WireMsg) (qConn : QConn) : Context :=
  let nodeInfo : NodeInfo := ⟨peerAddr, peerCertDer⟩
  let c := { c with
    bootstrapCache := if conn.weContactedPeer then
      addPeer env.bootstrapCacheCapacity nodeInfo c.bootstrapCache else c.bootstrapCache }
  let g := greet env c peerAddr conn nodeInfo qConn
  let c := (flushPendingSends g.1 peerAddr qConn pendingSends).setConn peerAddr
    { g.2.1 with toPeer := .established peerCertDer qConn }
  if g.2.2 then { c with readers := c.readers ++ [⟨peerAddr, qConn⟩] } else c

/-- `handle_new_connection_res` for the attempt to `peerAddr`, with the new
session on success; the text of its panic otherwise. -/
def handleNewConnectionRes (env : Env) (c : Context) (peerAddr : SocketAddr) :
    Except Error QConn → Except String Context
  | .error e => .ok (handleConnectErr c peerAddr e)
  | .ok qConn =>
    let c := { c with drivers := c.drivers ++ [(⟨peerAddr, qConn, true⟩ : Driver)] }
    match c.connections peerAddr with
    | none => .ok c
    | some conn =>
      match conn.toPeer with
      | .initiated _ peerCertDer pendingSends =>
        .ok (establish env c peerAddr conn peerCertDer pendingSends qConn)
      | _ => .error "TODO We can handle new connection only because it was previously initiated"

/-- The flush writes the queued sends in order. -/
theorem flushPendingSends_eq (peerAddr : SocketAddr) (qConn : QConn) :
    ∀ (c : Context) (pendingSends : List WireMsg),
      flushPendingSends c peerAddr qConn pendingSends =
        { c with
          writes := c.writes ++ pendingSends.map (qConn, ·)
          writers := c.writers ++ writersOf peerAddr (pendingSends.map (qConn, ·)) }
  | c, [] => by simp [flushPendingSends, writersOf]
  | c, m :: ms => by
    rw [show flushPendingSends c peerAddr qConn (m :: ms) =
      flushPendingSends (c.write peerAddr qConn m) peerAddr qConn ms from rfl, flushPendingSends_eq]
    simp [writersOf]

section greet

variable (env : Env) (c : Context) (peerAddr : SocketAddr) (conn : Connection) (nodeInfo : NodeInfo)
  (qConn : QConn)

@[simp] theorem greet_connections :
    (greet env c peerAddr conn nodeInfo qConn).1.connections = c.connections := by
  cases hf : conn.fromPeer <;> simp [greet, hf, drainPendingReads_eq]

@[simp] theorem greet_leaves : (greet env c peerAddr conn nodeInfo qConn).1.leaves = c.leaves := by
  cases hf : conn.fromPeer <;> simp [greet, hf, drainPendingReads_eq]

@[simp] theorem greet_nextId : (greet env c peerAddr conn nodeInfo qConn).1.nextId = c.nextId := by
  cases hf : conn.fromPeer <;> simp [greet, hf, drainPendingReads_eq]

@[simp] theorem greet_drivers : (greet env c peerAddr conn nodeInfo qConn).1.drivers = c.drivers := by
  cases hf : conn.fromPeer <;> simp [greet, hf, drainPendingReads_eq]

@[simp] theorem greet_readers : (greet env c peerAddr conn nodeInfo qConn).1.readers = c.readers := by
  cases hf : conn.fromPeer <;> simp [greet, hf, drainPendingReads_eq]

@[simp] theorem greet_bootstrapCache :
    (greet env c peerAddr conn nodeInfo qConn).1.bootstrapCache = c.bootstrapCache := by
  cases hf : conn.fromPeer <;> simp [greet, hf, drainPendingReads_eq]

/-- The success event when the inbound half is ready, then the drained reads'
events. -/
@[simp] theorem greet_events :
    (greet env c peerAddr conn nodeInfo qConn).1.events =
      c.events ++ (if conn.fromPeer.isReady then [(conn.lifetime, conn.successEvent nodeInfo)] else []) ++
        conn.fromPeer.pendingReads.flatMap (dispatchedEvents conn.lifetime (.node nodeInfo)) := by
  cases hf : conn.fromPeer <;> simp [greet, hf, drainPendingReads_eq, fireConnected_events,
    FromPeer.isReady, FromPeer.pendingReads]

/-- Our handshake, then the answers of the drained reads. -/
@[simp] theorem greet_writes :
    (greet env c peerAddr conn nodeInfo qConn).1.writes =
      c.writes ++ (handshakeToSend env conn.fromPeer).map (qConn, ·) ++
        conn.fromPeer.pendingReads.flatMap (dispatchedWrites (.node nodeInfo) qConn) := by
  cases hf : conn.fromPeer <;> simp [greet, hf, drainPendingReads_eq, handshakeToSend,
    FromPeer.pendingReads]

@[simp] theorem greet_ourExtAddrTx :
    (greet env c peerAddr conn nodeInfo qConn).1.ourExtAddrTx =
      (c.ourExtAddrTx && conn.fromPeer.pendingReads.isEmpty) := by
  cases hf : conn.fromPeer <;> simp [greet, hf, drainPendingReads_eq, FromPeer.pendingReads]

@[simp] theorem greet_ourExtAddr :
    (greet env c peerAddr conn nodeInfo qConn).1.ourExtAddr =
      drainedExtAddr c.ourExtAddrTx c.ourExtAddr conn.fromPeer.pendingReads := by
  cases hf : conn.fromPeer <;> simp [greet, hf, drainPendingReads_eq, FromPeer.pendingReads,
    drainedExtAddr]

/-- The record comes out drained, without its group ref if it fired. -/
@[simp] theorem greet_record :
    (greet env c peerAddr conn nodeInfo qConn).2.1 =
      { conn with
        fromPeer := conn.fromPeer.drain
        bootstrapGroupRef := if conn.fromPeer.isReady then none else conn.bootstrapGroupRef } := by
  obtain ⟨tp, fp, ref, we, lt⟩ := conn
  cases fp <;> simp [greet, FromPeer.drain, FromPeer.isReady]

/-- `should_accept_incoming`: no inbound session is expected. -/
@[simp] theorem greet_accepts :
    (greet env c peerAddr conn nodeInfo qConn).2.2 = true ↔ conn.fromPeer = .notNeeded := by
  cases hf : conn.fromPeer <;> simp [greet, hf]

/-- Members only go, and a record that fired leaves no member of its group at
its address. -/
theorem mem_greet_members {m : Member} (h : m ∈ (greet env c peerAddr conn nodeInfo qConn).1.members) :
    m ∈ c.members ∧
      (conn.fromPeer.isReady → conn.bootstrapGroupRef = some m.group → m.peerAddr ≠ peerAddr) := by
  cases hf : conn.fromPeer <;>
    simp only [greet, hf, FromPeer.isReady, drainPendingReads_eq, Context.write_members] at h ⊢
  all_goals first
    | exact ⟨h, by simp⟩
    | simpa using mem_fireConnected_members _ _ _ _ h

/-- A record that fires with a group ref finishes the group. -/
theorem mem_greet_finishedGroups {g : ℕ} (hr : conn.fromPeer.isReady)
    (hg : conn.bootstrapGroupRef = some g) :
    g ∈ (greet env c peerAddr conn nodeInfo qConn).1.finishedGroups := by
  cases hf : conn.fromPeer <;> simp only [hf, FromPeer.isReady, Bool.false_eq_true] at hr <;>
    simpa [greet, hf, drainPendingReads_eq] using mem_fireConnected_finishedGroups _ _ _ _ hg

theorem greet_finishedGroups :
    (greet env c peerAddr conn nodeInfo qConn).1.finishedGroups =
      if conn.fromPeer.isReady then
        (conn.bootstrapGroupRef.filter (· ∉ c.finishedGroups)).toList ++ c.finishedGroups
      else c.finishedGroups := by
  cases hf : conn.fromPeer <;>
    simp [greet, hf, drainPendingReads_eq, FromPeer.isReady, fireConnected_finishedGroups]

theorem mem_greet_finishedGroups_iff {g : ℕ} :
    g ∈ (greet env c peerAddr conn nodeInfo qConn).1.finishedGroups ↔
      g ∈ c.finishedGroups ∨ conn.fromPeer.isReady ∧ conn.bootstrapGroupRef = some g := by
  cases hf : conn.fromPeer <;>
    simp [greet, hf, drainPendingReads_eq, FromPeer.isReady, mem_fireConnected_finishedGroups_iff]

theorem mem_greet_signalled_of_mem {k : ℕ} (h : k ∈ c.signalled) :
    k ∈ (greet env c peerAddr conn nodeInfo qConn).1.signalled := by
  cases hf : conn.fromPeer <;> simp only [greet, hf, drainPendingReads_eq, Context.write_signalled]
  · exact h
  all_goals exact mem_fireConnected_signalled_of_mem _ _ _ _ h

theorem mem_greet_signalled {m : Member} (hm : m ∈ c.members) (hr : conn.fromPeer.isReady)
    (hg : conn.bootstrapGroupRef = some m.group) (ha : m.peerAddr ≠ peerAddr)
    (hf : m.group ∉ c.finishedGroups) :
    m.terminator ∈ (greet env c peerAddr conn nodeInfo qConn).1.signalled := by
  cases hfp : conn.fromPeer <;> simp only [hfp, FromPeer.isReady, Bool.false_eq_true] at hr <;>
    simp only [greet, hfp, drainPendingReads_eq] <;>
    exact mem_fireConnected_signalled _ _ _ _ hm hg ha hf

theorem mem_greet_members_of_ne {m : Member} (hm : m ∈ c.members)
    (hg : conn.fromPeer.isReady → conn.bootstrapGroupRef ≠ some m.group) :
    m ∈ (greet env c peerAddr conn nodeInfo qConn).1.members := by
  cases hfp : conn.fromPeer <;> simp only [hfp, FromPeer.isReady, forall_const] at hg <;>
    simp only [greet, hfp, drainPendingReads_eq, Context.write_members]
  · exact hm
  · exact mem_fireConnected_members_of_ne _ _ _ _ hm hg
  · exact mem_fireConnected_members_of_ne _ _ _ _ hm hg

end greet

section establish

variable (env : Env) (c : Context) (peerAddr : SocketAddr) (conn : Connection)
  (peerCertDer : CertDer) (pendingSends : List WireMsg) (qConn : QConn)

@[simp] theorem establish_connections :
    (establish env c peerAddr conn peerCertDer pendingSends qConn).connections =
      Function.update c.connections peerAddr (some (establishedRecord conn peerCertDer qConn)) := by
  by_cases ha : conn.fromPeer = .notNeeded <;> simp [establish, ha, flushPendingSends_eq, establishedRecord]

@[simp] theorem establish_leaves :
    (establish env c peerAddr conn peerCertDer pendingSends qConn).leaves = c.leaves := by
  by_cases ha : conn.fromPeer = .notNeeded <;> simp [establish, ha, flushPendingSends_eq]

@[simp] theorem establish_nextId :
    (establish env c peerAddr conn peerCertDer pendingSends qConn).nextId = c.nextId := by
  by_cases ha : conn.fromPeer = .notNeeded <;> simp [establish, ha, flushPendingSends_eq]

@[simp] theorem establish_drivers :
    (establish env c peerAddr conn peerCertDer pendingSends qConn).drivers = c.drivers := by
  by_cases ha : conn.fromPeer = .notNeeded <;> simp [establish, ha, flushPendingSends_eq]

/-- A read loop starts on the session only when no inbound session is expected. -/
theorem establish_readers :
    (establish env c peerAddr conn peerCertDer pendingSends qConn).readers =
      c.readers ++ if conn.fromPeer = .notNeeded then [⟨peerAddr, qConn⟩] else [] := by
  by_cases ha : conn.fromPeer = .notNeeded <;> simp [establish, ha, flushPendingSends_eq]

/-- The success event, when the inbound half is ready, then the drained reads'
events. -/
theorem establish_events :
    (establish env c peerAddr conn peerCertDer pendingSends qConn).events =
      c.events ++ (if conn.fromPeer.isReady then
        [(conn.lifetime, conn.successEvent ⟨peerAddr, peerCertDer⟩)] else []) ++
      conn.fromPeer.pendingReads.flatMap
        (dispatchedEvents conn.lifetime (.node ⟨peerAddr, peerCertDer⟩)) := by
  by_cases ha : conn.fromPeer = .notNeeded <;> simp [establish, ha, flushPendingSends_eq]

/-- Our handshake, then the answers of the drained reads, then the queued sends,
all on the new session. -/
theorem establish_writes :
    (establish env c peerAddr conn peerCertDer pendingSends qConn).writes =
      c.writes ++ (handshakeToSend env conn.fromPeer).map (qConn, ·) ++
        conn.fromPeer.pendingReads.flatMap (dispatchedWrites (.node ⟨peerAddr, peerCertDer⟩) qConn) ++
        pendingSends.map (qConn, ·) := by
  by_cases ha : conn.fromPeer = .notNeeded <;> simp [establish, ha, flushPendingSends_eq]

theorem establish_ourExtAddrTx :
    (establish env c peerAddr conn peerCertDer pendingSends qConn).ourExtAddrTx =
      (c.ourExtAddrTx && conn.fromPeer.pendingReads.isEmpty) := by
  by_cases ha : conn.fromPeer = .notNeeded <;> simp [establish, ha, flushPendingSends_eq]

theorem establish_ourExtAddr :
    (establish env c peerAddr conn peerCertDer pendingSends qConn).ourExtAddr =
      drainedExtAddr c.ourExtAddrTx c.ourExtAddr conn.fromPeer.pendingReads := by
  by_cases ha : conn.fromPeer = .notNeeded <;> simp [establish, ha, flushPendingSends_eq]

/-- The peer goes into the cache exactly when we dialled it. -/
theorem establish_bootstrapCache :
    (establish env c peerAddr conn peerCertDer pendingSends qConn).bootstrapCache =
      if conn.weContactedPeer then
        addPeer env.bootstrapCacheCapacity ⟨peerAddr, peerCertDer⟩ c.bootstrapCache
      else c.bootstrapCache := by
  by_cases ha : conn.fromPeer = .notNeeded <;> simp [establish, ha, flushPendingSends_eq]

/-- Members only go, and a record that fired leaves no member of its group at
its address. -/
theorem mem_establish_members {m : Member}
    (h : m ∈ (establish env c peerAddr conn peerCertDer pendingSends qConn).members) :
    m ∈ c.members ∧
      (conn.fromPeer.isReady → conn.bootstrapGroupRef = some m.group → m.peerAddr ≠ peerAddr) := by
  by_cases ha : conn.fromPeer = .notNeeded <;> simp [establish, ha, flushPendingSends_eq] at h <;>
    exact (mem_greet_members _ _ _ _ _ _ h :)

/-- A record that fires with a group ref finishes the group. -/
theorem mem_establish_finishedGroups {g : ℕ} (hr : conn.fromPeer.isReady)
    (hg : conn.bootstrapGroupRef = some g) :
    g ∈ (establish env c peerAddr conn peerCertDer pendingSends qConn).finishedGroups := by
  by_cases ha : conn.fromPeer = .notNeeded <;> simp only [establish, greet_accepts, ha, if_true,
    if_false, flushPendingSends_eq, Context.setConn_finishedGroups] <;>
    exact mem_greet_finishedGroups _ _ _ _ _ _ hr hg

theorem establish_finishedGroups :
    (establish env c peerAddr conn peerCertDer pendingSends qConn).finishedGroups =
      if conn.fromPeer.isReady then
        (conn.bootstrapGroupRef.filter (· ∉ c.finishedGroups)).toList ++ c.finishedGroups
      else c.finishedGroups := by
  by_cases ha : conn.fromPeer = .notNeeded <;>
    simp [establish, ha, flushPendingSends_eq, greet_finishedGroups]

theorem mem_establish_finishedGroups_iff {g : ℕ} :
    g ∈ (establish env c peerAddr conn peerCertDer pendingSends qConn).finishedGroups ↔
      g ∈ c.finishedGroups ∨ conn.fromPeer.isReady ∧ conn.bootstrapGroupRef = some g := by
  by_cases ha : conn.fromPeer = .notNeeded <;>
    simp [establish, ha, flushPendingSends_eq, mem_greet_finishedGroups_iff]

theorem mem_establish_signalled_of_mem {k : ℕ} (h : k ∈ c.signalled) :
    k ∈ (establish env c peerAddr conn peerCertDer pendingSends qConn).signalled := by
  by_cases ha : conn.fromPeer = .notNeeded <;> simp only [establish, greet_accepts, ha, if_true,
    if_false, flushPendingSends_eq, Context.setConn_signalled] <;>
    exact mem_greet_signalled_of_mem _ _ _ _ _ _ h

/-- A record that fires with the ref of an open group fires the terminators of
the group's members at other addresses. -/
theorem mem_establish_signalled {m : Member} (hm : m ∈ c.members) (hr : conn.fromPeer.isReady)
    (hg : conn.bootstrapGroupRef = some m.group) (ha : m.peerAddr ≠ peerAddr)
    (hf : m.group ∉ c.finishedGroups) :
    m.terminator ∈ (establish env c peerAddr conn peerCertDer pendingSends qConn).signalled := by
  by_cases hn : conn.fromPeer = .notNeeded <;> simp only [establish, greet_accepts, hn, if_true,
    if_false, flushPendingSends_eq, Context.setConn_signalled] <;>
    exact mem_greet_signalled _ _ _ _ _ _ hm hr hg ha hf

/-- Members of groups other than the one the record fires stay. -/
theorem mem_establish_members_of_ne {m : Member} (hm : m ∈ c.members)
    (hg : conn.fromPeer.isReady → conn.bootstrapGroupRef ≠ some m.group) :
    m ∈ (establish env c peerAddr conn peerCertDer pendingSends qConn).members := by
  by_cases hn : conn.fromPeer = .notNeeded <;> simp only [establish, greet_accepts, hn, if_true,
    if_false, flushPendingSends_eq, Context.setConn_members] <;>
    exact mem_greet_members_of_ne _ _ _ _ _ _ hm hg

end establish

section handleNewConnectionRes

variable {env : Env} {c : Context} {peerAddr : SocketAddr} {qConn : QConn} {conn : Connection}

/-- A session for an address with no record is only driven. -/
theorem handleNewConnectionRes_of_none (h : c.connections peerAddr = none) :
    handleNewConnectionRes env c peerAddr (.ok qConn) =
      .ok { c with drivers := c.drivers ++ [⟨peerAddr, qConn, true⟩] } := by
  simp [handleNewConnectionRes, h]

/-- A session for an `Initiated` record establishes it. -/
theorem handleNewConnectionRes_of_initiated {k : ℕ} {peerCertDer : CertDer}
    {pendingSends : List WireMsg} (h : c.connections peerAddr = some conn)
    (ht : conn.toPeer = .initiated k peerCertDer pendingSends) :
    handleNewConnectionRes env c peerAddr (.ok qConn) =
      .ok (establish env { c with drivers := c.drivers ++ [⟨peerAddr, qConn, true⟩] } peerAddr conn
        peerCertDer pendingSends qConn) := by
  simp [handleNewConnectionRes, h, ht]

/-- A session for a record in any other state hits the `unreachable!`. -/
theorem handleNewConnectionRes_of_not_initiated (h : c.connections peerAddr = some conn)
    (ht : conn.toPeer.terminator? = none) :
    handleNewConnectionRes env c peerAddr (.ok qConn) =
      .error "TODO We can handle new connection only because it was previously initiated" := by
  unfold handleNewConnectionRes
  cases hc : conn.toPeer <;> simp_all [ToPeer.terminator?]

/-- What a call that returns can have done: removed the record (the handshake
failed), only spawned the driver (no record left), or established an
`Initiated` record. -/
theorem handleNewConnectionRes_cases {c' : Context} {res : Except Error QConn}
    (h : handleNewConnectionRes env c peerAddr res = .ok c') :
    (∃ e, res = .error e ∧ c' = handleConnectErr c peerAddr e) ∨
    (∃ qConn, res = .ok qConn ∧ c.connections peerAddr = none ∧
      c' = { c with drivers := c.drivers ++ [⟨peerAddr, qConn, true⟩] }) ∨
    (∃ qConn conn k peerCertDer pendingSends, res = .ok qConn ∧
      c.connections peerAddr = some conn ∧ conn.toPeer = .initiated k peerCertDer pendingSends ∧
      c' = establish env { c with drivers := c.drivers ++ [⟨peerAddr, qConn, true⟩] } peerAddr conn
        peerCertDer pendingSends qConn) := by
  cases res with
  | error e => cases h; exact .inl ⟨e, rfl, rfl⟩
  | ok qConn =>
    cases hc : c.connections peerAddr with
    | none =>
      rw [handleNewConnectionRes_of_none hc] at h
      cases h; exact .inr (.inl ⟨qConn, rfl, rfl, rfl⟩)
    | some conn =>
      cases ht : conn.toPeer.terminator? with
      | none => rw [handleNewConnectionRes_of_not_initiated hc ht] at h; cases h
      | some k =>
        obtain ⟨cert, ps, ht⟩ := ToPeer.terminator?_eq_some.1 ht
        rw [handleNewConnectionRes_of_initiated hc ht] at h
        cases h; exact .inr (.inr ⟨qConn, conn, k, cert, ps, rfl, rfl, ht, rfl⟩)

end handleNewConnectionRes

end QuicP2p
