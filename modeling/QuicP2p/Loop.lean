/-
# The event loop

Everything runs on one thread: each step of the loop is one handler run to its
end, and which handler runs next is free. A step is the host calling
`connect_to`, bootstrapping, sending or disconnecting, a leaf's receiver or
handshake resolving, a driver failing, the listener yielding a session, a read
loop yielding a message or failing, or a write failing. A handler that panics
stops the loop; `step` returns the text.

A leaf polls its terminator first: a signalled terminator cancels the attempt
through `handle_connect_err`, and a terminator with no sender left ends the
`select` silently, dropping the handshake. The handshake resolves only while
neither has happened.

Futures that end without effect (a driver or a read loop closing cleanly, a
write that completes) are kept: keeping them only adds runs. A read loop is
kept after a failure too, since a stream's failure does not end it; a failed
driver or write is done.

Key definitions: `Label`, `step`, `Reachable`, `exec`.
-/
import QuicP2p.Listener

namespace QuicP2p

/-- What the loop does next. -/
inductive Label
  /-- The host's `connect_to`, with no group. -/
  | connectTo (peerInfo : NodeInfo) (sendAfterConnect : Option WireMsg)
  /-- The host bootstraps off `proxies`. -/
  | bootstrap (proxies : List NodeInfo) (sendAfterConnect : Option WireMsg)
  /-- The host's `send` of a user message to `peer`. -/
  | send (peer : Peer) (msg : List UInt8)
  /-- The host's `disconnect_from`. -/
  | disconnectFrom (peerAddr : SocketAddr)
  /-- The leaf of attempt `terminator` polls its receiver. -/
  | terminator (terminator : ℕ)
  /-- The handshake of attempt `terminator` succeeds or fails. -/
  | handshake (terminator : ℕ) (ok : Bool)
  /-- The driver of session `qConn` fails. -/
  | driverFailed (qConn : QConn)
  /-- The listener yields a session from `peerAddr`. -/
  | incoming (peerAddr : SocketAddr)
  /-- The read loop on session `qConn` yields `msg`. -/
  | read (qConn : QConn) (msg : WireMsg)
  /-- The read loop on session `qConn` fails with `err`. -/
  | readFailed (qConn : QConn) (err : Error)
  /-- A write on session `qConn` fails with `err`. -/
  | writeFailed (qConn : QConn) (err : Error)
  deriving DecidableEq, Repr

/-- Modelled from the spec: `bootstrap()` (not among the sources) makes a new
group and calls `connect_to` with it for each candidate, within one turn of
the loop (§4.1). -/
def bootstrap (env : Env) (c : Context) (proxies : List NodeInfo)
    (sendAfterConnect : Option WireMsg) : Except String Context :=
  let group := c.nextId
  proxies.foldlM (fun c info => (connectTo env c info sendAfterConnect (some group)).map Prod.fst)
    { c with nextId := group + 1 }

/-- Modelled from the spec: the host's `send(peer, msg)` (not among the
sources), "buffered if not yet Established" (§4.1). A user message for a Node
joins the queue of an `Initiated` half (§3), goes out on an `Established` one,
and otherwise rides on a new `connect_to` as its pre-queued message (§4.2).
One for a Client goes out on the session it reached us on; with none, nothing
happens. -/
def sendUserMsg (env : Env) (c : Context) (peer : Peer) (msg : List UInt8) :
    Except String Context :=
  match peer with
  | .node info =>
    match c.connections info.peerAddr with
    | some conn =>
      match conn.toPeer with
      | .initiated k cert ps =>
        .ok (c.setConn info.peerAddr { conn with toPeer := .initiated k cert (ps ++ [.userMsg msg]) })
      | .established _ q => .ok (c.write info.peerAddr q (.userMsg msg))
      | _ => (connectTo env c info (some (.userMsg msg)) none).map Prod.fst
    | none => (connectTo env c info (some (.userMsg msg)) none).map Prod.fst
  | .client a =>
    match (c.connections a).map Connection.fromPeer with
    | some (.established q _) => .ok (c.write a q (.userMsg msg))
    | _ => .ok c

/-- The leaf of attempt `k` is done. -/
@[simps -fullyApplied]
def Context.dropLeaf (c : Context) (k : ℕ) : Context :=
  { c with leaves := c.leaves.filter (·.terminator ≠ k) }

/-- One step of the loop. The listener runs on a Node only: a Client's
endpoint accepts no session (modelled from the spec, §8 scenario 6). -/
def step (env : Env) (c : Context) : Label → Except String Context
  | .connectTo peerInfo m => (connectTo env c peerInfo m none).map Prod.fst
  | .bootstrap proxies m => bootstrap env c proxies m
  | .send peer msg => sendUserMsg env c peer msg
  | .disconnectFrom a => .ok (c.removeConnection a none)
  | .terminator k =>
    match c.leaves.find? (·.terminator = k) with
    | none => .ok c
    | some l =>
      if k ∈ c.signalled then .ok (handleConnectErr (c.dropLeaf k) l.peerAddr .connectionCancelled)
      else if c.senderAlive l then .ok c
      else .ok (c.dropLeaf k)
  | .handshake k ok =>
    match c.leaves.find? (·.terminator = k) with
    | none => .ok c
    | some l =>
      if k ∉ c.signalled ∧ c.senderAlive l then
        handleNewConnectionRes env { c.dropLeaf k with nextId := c.nextId + 1 } l.peerAddr
          (if ok then .ok c.nextId else .error .quicConnectionError)
      else .ok c
  | .driverFailed q =>
    match c.drivers.find? (·.qConn = q) with
    | none => .ok c
    | some d =>
      let c := { c with drivers := c.drivers.filter (·.qConn ≠ q) }
      .ok (if d.outbound then handleConnectErr c d.peerAddr .quicConnectionError
        else handleCommunicationErr c d.peerAddr .quicConnectionError)
  | .incoming a => .ok (if env.ourType = .node then handleNewConn c a else c)
  | .read q msg =>
    match c.readers.find? (·.qConn = q) with
    | none => .ok c
    | some r => .ok (readFromPeer c r.peerAddr q msg)
  | .readFailed q e =>
    match c.readers.find? (·.qConn = q) with
    | none => .ok c
    | some r => .ok (handleCommunicationErr c r.peerAddr e)
  | .writeFailed q e =>
    match c.writers.find? (·.qConn = q) with
    | none => .ok c
    | some w => .ok (handleCommunicationErr { c with writers := c.writers.erase w } w.peerAddr e)

/-! ### What one step can do

One lemma per kind of step, so that the invariants never unfold `step`: each
says which handler ran on which context. -/

section steps

variable {env : Env} {c c' : Context}

theorem except_map_fst_eq_ok {α β ε : Type} {x : Except ε (α × β)} {a : α}
    (h : x.map Prod.fst = .ok a) : ∃ b, x = .ok (a, b) := by
  cases x with
  | error e => cases h
  | ok p => cases h; exact ⟨p.2, rfl⟩

theorem step_connectTo {peerInfo : NodeInfo} {m : Option WireMsg}
    (h : step env c (.connectTo peerInfo m) = .ok c') :
    ∃ r, connectTo env c peerInfo m none = .ok (c', r) :=
  except_map_fst_eq_ok h

/-- A bootstrap keeps what the bump of the counter and every `connect_to` with
its group, to one of its candidates, keep. -/
theorem bootstrap_induction (P : Context → Prop) {proxies : List NodeInfo} {m : Option WireMsg}
    (hbump : P { c with nextId := c.nextId + 1 })
    (hconn : ∀ c₁ c₂ info r, info ∈ proxies → P c₁ →
      connectTo env c₁ info m (some c.nextId) = .ok (c₂, r) → P c₂)
    (h : bootstrap env c proxies m = .ok c') : P c' := by
  unfold bootstrap at h
  dsimp only at h
  generalize { c with nextId := c.nextId + 1 } = c₀ at h hbump
  suffices ∀ ps : List NodeInfo, (∀ info ∈ ps, info ∈ proxies) → ∀ c₀, P c₀ →
      ps.foldlM (fun c₁ info => (connectTo env c₁ info m (some c.nextId)).map Prod.fst) c₀ = .ok c' →
      P c' from this proxies (fun _ h => h) c₀ hbump h
  intro ps
  induction ps with
  | nil => intro _ c₀ hc h; cases h; exact hc
  | cons info ps ih =>
    intro hps c₀ hc h
    simp only [List.foldlM_cons] at h
    cases hc' : connectTo env c₀ info m (some c.nextId) with
    | error e => rw [hc'] at h; cases h
    | ok p =>
      rw [hc'] at h
      exact ih (fun x hx => hps x (List.mem_cons_of_mem _ hx)) p.1
        (hconn c₀ p.1 info p.2 (hps info (List.mem_cons_self _ _)) hc hc') h

/-- A leaf is dropped without effect only once no sender of its terminator is
left; a signalled terminator cancels the attempt of the first leaf waiting on
it. -/
theorem step_terminator {k : ℕ} (h : step env c (.terminator k) = .ok c') :
    c' = c ∨ (∃ l ∈ c.leaves, l.terminator = k ∧ c.senderAlive l = false ∧ c' = c.dropLeaf k) ∨
      ∃ l ∈ c.leaves, l.terminator = k ∧
        c' = (c.dropLeaf k).removeConnection l.peerAddr (some .connectionCancelled) ∧
        c.leaves.find? (·.terminator = k) = some l ∧ k ∈ c.signalled := by
  simp only [step] at h
  split at h
  · cases h; exact .inl rfl
  · rename_i l hl
    have hmem := List.mem_of_find?_eq_some hl
    have hk : l.terminator = k := by simpa using List.find?_some hl
    split_ifs at h with hs ha <;> cases h
    · exact .inr (.inr ⟨l, hmem, hk, rfl, hl, hs⟩)
    · exact .inl rfl
    · exact .inr (.inl ⟨l, hmem, hk, by simpa using ha, rfl⟩)

theorem step_handshake {k : ℕ} {ok : Bool} (h : step env c (.handshake k ok) = .ok c') :
    c' = c ∨ ∃ l ∈ c.leaves, l.terminator = k ∧ k ∉ c.signalled ∧ c.senderAlive l ∧
      handleNewConnectionRes env { c.dropLeaf k with nextId := c.nextId + 1 } l.peerAddr
        (if ok then .ok c.nextId else .error .quicConnectionError) = .ok c' ∧
      c.leaves.find? (·.terminator = k) = some l := by
  simp only [step] at h
  split at h
  · cases h; exact .inl rfl
  · rename_i l hl
    by_cases hs : k ∉ c.signalled ∧ c.senderAlive l
    · rw [if_pos hs] at h
      exact .inr ⟨l, List.mem_of_find?_eq_some hl, by simpa using List.find?_some hl, hs.1, hs.2, h, hl⟩
    · rw [if_neg hs] at h
      cases h; exact .inl rfl

/-- A failed driver is done, and the record for its address goes, whichever
callback it reports to. -/
theorem step_driverFailed {q : QConn} (h : step env c (.driverFailed q) = .ok c') :
    c' = c ∨ ∃ d ∈ c.drivers, d.qConn = q ∧ c' =
      ({ c with drivers := c.drivers.filter (·.qConn ≠ q) } : Context).removeConnection d.peerAddr
        (some .quicConnectionError) ∧ c.drivers.find? (·.qConn = q) = some d := by
  simp only [step] at h
  split at h
  · cases h; exact .inl rfl
  · rename_i d hd
    cases h
    refine .inr ⟨d, List.mem_of_find?_eq_some hd, by simpa using List.find?_some hd, ?_, hd⟩
    cases d.outbound <;> rfl

/-- Once a driver of session `q` has failed, no driver of `q` is left. -/
theorem step_driverFailed_drivers {q : QConn} (h : step env c (.driverFailed q) = .ok c') :
    ∀ d ∈ c'.drivers, d.qConn ≠ q := by
  simp only [step] at h
  split at h
  · rename_i hn
    cases h
    exact fun d hd hq => by simpa [hq] using List.find?_eq_none.1 hn d hd
  · cases h
    intro d hd
    have hd : d ∈ c.drivers.filter (·.qConn ≠ q) := by split at hd <;> exact hd
    simpa using (List.mem_filter.1 hd).2

theorem step_incoming {a : SocketAddr} (h : step env c (.incoming a) = .ok c') :
    c' = c ∨ env.ourType = .node ∧ c' = handleNewConn c a := by
  simp only [step] at h
  cases h
  split_ifs with ho
  · exact .inr ⟨ho, rfl⟩
  · exact .inl rfl

theorem step_read {q : QConn} {msg : WireMsg} (h : step env c (.read q msg) = .ok c') :
    c' = c ∨ ∃ r ∈ c.readers, c' = readFromPeer c r.peerAddr q msg := by
  simp only [step] at h
  split at h
  · cases h; exact .inl rfl
  · rename_i r hr
    cases h
    exact .inr ⟨r, List.mem_of_find?_eq_some hr, rfl⟩

/-- A failed read loop severs the record for the address it was spawned with. -/
theorem step_readFailed {q : QConn} {e : Error} (h : step env c (.readFailed q e) = .ok c') :
    c' = c ∨ ∃ r ∈ c.readers, c' = c.removeConnection r.peerAddr (some e) ∧
      c.readers.find? (·.qConn = q) = some r := by
  simp only [step] at h
  split at h
  · cases h; exact .inl rfl
  · rename_i r hr
    cases h
    exact .inr ⟨r, List.mem_of_find?_eq_some hr, rfl, hr⟩

/-- A failed write is done, and severs the record for the address it was made
for. -/
theorem step_writeFailed {q : QConn} {e : Error} (h : step env c (.writeFailed q e) = .ok c') :
    c' = c ∨ ∃ w ∈ c.writers, c' =
      ({ c with writers := c.writers.erase w } : Context).removeConnection w.peerAddr (some e) ∧
      c.writers.find? (·.qConn = q) = some w := by
  simp only [step] at h
  split at h
  · cases h; exact .inl rfl
  · rename_i w hw
    cases h
    exact .inr ⟨w, List.mem_of_find?_eq_some hw, rfl, hw⟩

/-- What a `send` does: queues the message in an `Initiated` half, writes it
on a session, hands it to a `connect_to` without a group, or nothing. -/
theorem step_send {peer : Peer} {msg : List UInt8} (h : step env c (.send peer msg) = .ok c') :
    (∃ a conn k cert ps, c.connections a = some conn ∧ conn.toPeer = .initiated k cert ps ∧
      c' = c.setConn a { conn with toPeer := .initiated k cert (ps ++ [.userMsg msg]) }) ∨
    (∃ a q, c' = c.write a q (.userMsg msg)) ∨
    (∃ info r, peer = .node info ∧ connectTo env c info (some (.userMsg msg)) none = .ok (c', r)) ∨
    c' = c := by
  simp only [step, sendUserMsg] at h
  split at h
  · rename_i info
    split at h
    · rename_i conn hc
      split at h
      · cases h; exact .inl ⟨_, conn, _, _, _, hc, ‹_›, rfl⟩
      · cases h; exact .inr (.inl ⟨_, _, rfl⟩)
      · obtain ⟨r, hr⟩ := except_map_fst_eq_ok h
        exact .inr (.inr (.inl ⟨info, r, rfl, hr⟩))
    · obtain ⟨r, hr⟩ := except_map_fst_eq_ok h
      exact .inr (.inr (.inl ⟨info, r, rfl, hr⟩))
  · split at h <;> cases h
    · exact .inr (.inl ⟨_, _, rfl⟩)
    · exact .inr (.inr (.inr rfl))

end steps

/-- A run of the loop: the steps in order, stopped by the first panic. -/
def exec (env : Env) : Context → List Label → Except String Context
  | c, [] => .ok c
  | c, l :: ls => (step env c l).bind fun c' => exec env c' ls

/-- The contexts some run reaches from the start. -/
inductive Reachable (env : Env) : Context → Prop
  | init : Reachable env .init
  | step {c c' : Context} (l : Label) : Reachable env c → step env c l = .ok c' → Reachable env c'

theorem Reachable.exec {env : Env} {c c' : Context} (hc : Reachable env c) :
    ∀ {ls : List Label}, QuicP2p.exec env c ls = .ok c' → Reachable env c'
  | [], h => by cases h; exact hc
  | l :: ls, h => by
    simp only [QuicP2p.exec] at h
    cases hs : QuicP2p.step env c l with
    | error e => rw [hs] at h; cases h
    | ok c₁ => rw [hs] at h; exact (Reachable.step l hc hs).exec h

/-- What holds at the start and is kept by every step from a reachable context
holds in every reachable context. -/
theorem Reachable.invariant {env : Env} {P : Context → Prop} (h0 : P .init)
    (hs : ∀ c c' l, Reachable env c → P c → QuicP2p.step env c l = .ok c' → P c') {c : Context}
    (hc : Reachable env c) : P c := by
  induction hc with
  | init => exact h0
  | step l hc h ih => exact hs _ _ l hc ih h

/-- A run from the start reaches what it ends in. -/
theorem reachable_of_exec {env : Env} {c : Context} {ls : List Label}
    (h : exec env .init ls = .ok c) : Reachable env c :=
  Reachable.init.exec h

end QuicP2p
