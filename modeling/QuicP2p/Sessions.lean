/-
# Every record is backed by the futures that serve it

A record holds sessions and an attempt, and the event loop holds the futures
that serve them: a `ConnectionDriver` for each session, a read loop on each
session the peer's messages come in on, and the leaf of the attempt an
`Initiated` half waits for. `handle_new_connection_res` and `handle_new_conn`
spawn the driver before they store the session and start the read loop with
it; a driver that fails takes the record at its address with it
(`handle_connect_err`, `handle_communication_err`); and a leaf ends only
through its terminator or its handshake, which find the record gone or take it
out of `Initiated`. Sessions are numbered by the counter, so each has one
driver (`SessionInv`). Hence, in every reachable context:

* every session a record holds has its driver, and its read loop where the
  peer's messages come in on it;
* a session is held by at most one half of one record;
* once a driver has failed, no record holds its session
  (`SessionInv.driverFailed_step`);
* every `Initiated` half still has its attempt's leaf, so the loop can always
  take it out of `Initiated`: a signalled terminator removes the record, and
  otherwise the handshake establishes it or, failing, removes it
  (`Reachable.initiated_steps`). No record is left waiting with nothing to
  resolve it, which would make every later `connect_to` to its address a
  `DuplicateConnectionToPeer`;
* a run of terminator polls and failed handshakes ends every attempt in flight
  (`Reachable.finish_attempts`);
* every record holds an attempt or a session (`Connection.InUse`), so the
  failure of one of them removes it: no record outlives the futures that serve
  it (`Reachable.inUse`).

Key definitions: `Connection.Backed`, `SessionInv`, `Connection.InUse`.
Key theorems: `SessionInv.step`, `Reachable.sessionInv`, `Reachable.initiated_steps`,
`Reachable.finish_attempts`, `Reachable.inUse`.
-/
import QuicP2p.Attempt
import QuicP2p.Lifetime

namespace QuicP2p

/-- What the futures `drivers`, `readers` and `leaves` hold up for the record
`conn` at `a`. -/
structure Connection.Backed (drivers : List Driver) (readers : List Reader) (leaves : List Leaf)
    (a : SocketAddr) (conn : Connection) : Prop where
  /-- An outbound session has its driver, and its read loop when no inbound
  session is expected. -/
  outbound : ∀ cert q, conn.toPeer = .established cert q →
    (⟨a, q, true⟩ : Driver) ∈ drivers ∧ (conn.fromPeer = .notNeeded → (⟨a, q⟩ : Reader) ∈ readers)
  /-- An inbound session has its driver and its read loop. -/
  inbound : ∀ q rs, conn.fromPeer = .established q rs →
    (⟨a, q, false⟩ : Driver) ∈ drivers ∧ (⟨a, q⟩ : Reader) ∈ readers
  /-- An attempt in flight has its leaf. -/
  attempt : ∀ k cert ps, conn.toPeer = .initiated k cert ps → (⟨a, k, cert⟩ : Leaf) ∈ leaves

/-- The session a record holds in its outbound half (`true`) or in its
inbound half (`false`). -/
def Connection.session? (conn : Connection) : Bool → Option QConn
  | true =>
    match conn.toPeer with
    | .established _ q => some q
    | _ => none
  | false =>
    match conn.fromPeer with
    | .established q _ => some q
    | _ => none

/-- Every record is backed by the context's futures. -/
def Context.AllBacked (c : Context) : Prop :=
  ∀ a conn, c.connections a = some conn → conn.Backed c.drivers c.readers c.leaves a

namespace Connection.Backed

variable {D D' : List Driver} {R R' : List Reader} {L L' : List Leaf} {a : SocketAddr}
  {conn : Connection}

/-- More futures back what fewer did. -/
theorem mono (h : conn.Backed D R L a) (hd : D ⊆ D') (hr : R ⊆ R') (hl : L ⊆ L') :
    conn.Backed D' R' L' a where
  outbound cert q ht := ⟨hd (h.outbound cert q ht).1, fun hf => hr ((h.outbound cert q ht).2 hf)⟩
  inbound q rs hf := ⟨hd (h.inbound q rs hf).1, hr (h.inbound q rs hf).2⟩
  attempt k cert ps ht := hl (h.attempt k cert ps ht)

/-- A new record holds nothing. -/
theorem new (w : Bool) (g : Option ℕ) (n : ℕ) : (Connection.new w g n).Backed D R L a where
  outbound _ _ h := by cases h
  inbound _ _ h := by cases h
  attempt _ _ _ h := by cases h

/-- A record that does not wait for attempt `k` does without its leaf. -/
theorem dropLeaf (h : conn.Backed D R L a) {k : ℕ} (hk : conn.toPeer.terminator? ≠ some k) :
    conn.Backed D R (L.filter (·.terminator ≠ k)) a where
  outbound := h.outbound
  inbound := h.inbound
  attempt k' cert ps ht :=
    List.mem_filter.2 ⟨h.attempt k' cert ps ht, by simpa [ht, ToPeer.terminator?] using hk⟩

/-- A record that holds no session numbered `q` does without `q`'s driver. -/
theorem filterDrivers (h : conn.Backed D R L a) {q : QConn}
    (hq : ∀ d ∈ D, d.peerAddr = a → d.qConn ≠ q) :
    conn.Backed (D.filter (·.qConn ≠ q)) R L a where
  outbound cert q' ht := ⟨List.mem_filter.2 ⟨(h.outbound cert q' ht).1,
    by simpa using hq _ (h.outbound cert q' ht).1 rfl⟩, (h.outbound cert q' ht).2⟩
  inbound q' rs hf := ⟨List.mem_filter.2 ⟨(h.inbound q' rs hf).1,
    by simpa using hq _ (h.inbound q' rs hf).1 rfl⟩, (h.inbound q' rs hf).2⟩
  attempt := h.attempt

/-- Each session a record holds has the driver of its half. -/
theorem driver_of_session? (h : conn.Backed D R L a) {x : Bool} {q : QConn}
    (hq : conn.session? x = some q) : (⟨a, q, x⟩ : Driver) ∈ D := by
  cases x <;> simp only [Connection.session?] at hq <;> split at hq <;> cases hq
  · exact (h.inbound _ _ ‹_›).1
  · exact (h.outbound _ _ ‹_›).1

/-- A send queued in an `Initiated` half keeps its attempt. -/
theorem queue (h : conn.Backed D R L a) {k : ℕ} {cert : CertDer} {ps : List WireMsg}
    (ht : conn.toPeer = .initiated k cert ps) (ps' : List WireMsg) :
    { conn with toPeer := .initiated k cert ps' }.Backed D R L a where
  outbound _ _ h := by cases h
  inbound := h.inbound
  attempt _ _ _ h' := by cases h'; exact h.attempt k cert ps ht

/-- A read buffered in the inbound half keeps its session. -/
theorem buffer (h : conn.Backed D R L a) (msg : WireMsg) :
    { conn with fromPeer := conn.fromPeer.buffer msg }.Backed D R L a where
  outbound cert q ht :=
    ⟨(h.outbound cert q ht).1, fun hn => (h.outbound cert q ht).2 (FromPeer.buffer_eq_notNeeded.1 hn)⟩
  inbound q _ hf := let ⟨rs', hf'⟩ := FromPeer.buffer_eq_established hf; h.inbound q rs' hf'
  attempt := h.attempt

end Connection.Backed

namespace Context.AllBacked

variable {c c' : Context}

/-- Storing `o` at `a` keeps every record backed when `o` is backed and the
futures left still back the other records. -/
theorem of_update {a : SocketAddr} {o : Option Connection}
    (hconn : c'.connections = Function.update c.connections a o)
    (hback : ∀ b conn, b ≠ a → c.connections b = some conn →
      conn.Backed c'.drivers c'.readers c'.leaves b)
    (ho : ∀ conn, o = some conn → conn.Backed c'.drivers c'.readers c'.leaves a) : c'.AllBacked := by
  intro b conn hb
  rw [hconn] at hb
  by_cases hba : b = a
  · subst hba; exact ho conn (by simpa using hb)
  · exact hback b conn hba (by simpa [hba] using hb)

theorem removeConnection (h : c.AllBacked) (a : SocketAddr) (cause : Option Error) :
    (c.removeConnection a cause).AllBacked :=
  of_update rfl (fun b conn _ hb => h b conn hb) (fun _ h => by cases h)

end Context.AllBacked

/-- Sessions are numbered below the counter, each has one driver, and every
record is backed. -/
structure SessionInv (c : Context) : Prop where
  driver_lt : ∀ d ∈ c.drivers, d.qConn < c.nextId
  drivers_nodup : (c.drivers.map (·.qConn)).Nodup
  backed : c.AllBacked

namespace SessionInv

variable {env : Env} {c c' : Context}

theorem init : SessionInv .init where
  driver_lt := by simp [Context.init]
  drivers_nodup := by simp [Context.init]
  backed _ _ h := by cases h

/-- Two drivers of one session are one. -/
theorem driver_eq (hI : SessionInv c) {d d' : Driver} (hd : d ∈ c.drivers) (hd' : d' ∈ c.drivers)
    (hq : d.qConn = d'.qConn) : d = d' :=
  List.inj_on_of_nodup_map hI.drivers_nodup hd hd' hq

/-- The record a handler takes or makes is backed. -/
theorem backed_getD (hI : SessionInv c) (a : SocketAddr) (w : Bool) (g : Option ℕ) (n : ℕ) :
    ((c.connections a).getD (Connection.new w g n)).Backed c.drivers c.readers c.leaves a := by
  cases hc : c.connections a with
  | none => exact .new w g n
  | some conn => exact hI.backed a conn hc

/-- Only the record at a leaf's address waits for the leaf's attempt. -/
theorem terminator?_ne (hI : SessionInv c) (hA : AttemptInv c) {l : Leaf} (hl : l ∈ c.leaves)
    {b : SocketAddr} {conn : Connection} (hc : c.connections b = some conn) (hb : b ≠ l.peerAddr) :
    conn.toPeer.terminator? ≠ some l.terminator := by
  intro ht
  obtain ⟨cert, ps, ht⟩ := ToPeer.terminator?_eq_some.1 ht
  exact hb (congrArg Leaf.peerAddr
    (List.inj_on_of_nodup_map hA.leaves_nodup ((hI.backed b conn hc).attempt _ _ _ ht) hl rfl))

/-! ### Frames -/

/-- A step that spawns no driver. -/
theorem of_sublist (hI : SessionInv c) (hd : c'.drivers.Sublist c.drivers) (hn : c.nextId ≤ c'.nextId)
    (hb : c'.AllBacked) : SessionInv c' where
  driver_lt d h := (hI.driver_lt d (hd.subset h)).trans_le hn
  drivers_nodup := hI.drivers_nodup.sublist (hd.map _)
  backed := hb

/-- A step that spawns the driver of a session numbered by the counter. -/
theorem of_spawn (hI : SessionInv c) (b : SocketAddr) (x : Bool)
    (hd : c'.drivers = c.drivers ++ [⟨b, c.nextId, x⟩]) (hn : c'.nextId = c.nextId + 1)
    (hb : c'.AllBacked) : SessionInv c' where
  driver_lt d h := by
    rw [hd, List.mem_append, List.mem_singleton] at h
    rcases h with h | rfl
    · exact hn ▸ (hI.driver_lt d h).trans (Nat.lt_succ_self _)
    · exact hn ▸ Nat.lt_succ_self _
  drivers_nodup := by
    rw [hd]
    simpa [List.nodup_append] using ⟨hI.drivers_nodup, fun d hd h => (hI.driver_lt d hd).ne h⟩
  backed := hb

/-! ### One lemma per handler -/

theorem removeConnection (hI : SessionInv c) (a : SocketAddr) (cause : Option Error) :
    SessionInv (c.removeConnection a cause) :=
  hI.of_sublist (List.Sublist.refl _) le_rfl (hI.backed.removeConnection a cause)

/-- `connect_to`: a free outbound half gets `Initiated` together with its leaf,
or is removed again when `connect_with` fails. -/
theorem connectTo (hI : SessionInv c) {peerInfo : NodeInfo} {m : Option WireMsg} {g : Option ℕ}
    {r : Except Error Unit} (h : QuicP2p.connectTo env c peerInfo m g = .ok (c', r)) :
    SessionInv c' := by
  rcases connectTo_cases h with ⟨-, rfl⟩ | rfl | ⟨hfree, rfl | ⟨-, rfl⟩⟩
  · exact hI.removeConnection _ _
  · exact hI
  · refine hI.of_sublist (by simp) (by simp) (.of_update (installed_connections _ _ _ _ _)
      (fun b conn _ hb => (hI.backed b conn hb).mono (by simp) (by simp) (by simp)) ?_)
    rintro _ ⟨⟩
    refine ⟨fun cert q ht => by simp at ht, fun q rs hf => ?_, fun k cert ps ht => ?_⟩
    · simp only [initiatedRecord] at hf
      split at hf
      · cases hf
      · simpa using (hI.backed_getD _ true none c.nextId).inbound q rs hf
    · simp only [initiatedRecord_toPeer, ToPeer.initiated.injEq] at ht
      obtain ⟨rfl, rfl, -⟩ := ht
      simp
  · have hconn : ((installed env c peerInfo m g).removeConnection peerInfo.peerAddr
        (some .quicConnectError)).connections =
        Function.update c.connections peerInfo.peerAddr none := by simp
    exact hI.of_sublist (by simp) (by simp) (.of_update hconn
      (fun b conn _ hb => (hI.backed b conn hb).mono (by simp) (by simp) (by simp))
      (fun _ h => by cases h))

/-- A leaf dropped once no sender of its terminator is left. -/
theorem dropLeaf (hI : SessionInv c) (hA : AttemptInv c) {l : Leaf} (hl : l ∈ c.leaves)
    (hna : c.senderAlive l = false) : SessionInv (c.dropLeaf l.terminator) :=
  hI.of_sublist (List.Sublist.refl _) le_rfl fun b conn (hc : c.connections b = some conn) =>
    (hI.backed b conn hc).dropLeaf (by
    by_cases hb : b = l.peerAddr
    · subst hb; intro ht; simp [Context.senderAlive, hc, ht] at hna
    · exact hI.terminator?_ne hA hl hc hb)

/-- A leaf's signalled terminator cancels its attempt. -/
theorem cancel (hI : SessionInv c) (hA : AttemptInv c) {l : Leaf} (hl : l ∈ c.leaves)
    (cause : Option Error) : SessionInv ((c.dropLeaf l.terminator).removeConnection l.peerAddr cause) :=
  hI.of_sublist (List.Sublist.refl _) le_rfl (.of_update rfl
    (fun b conn hb hc => (hI.backed b conn hc).dropLeaf (hI.terminator?_ne hA hl hc hb))
    (fun _ h => by cases h))

/-- The handshake of the live attempt `l`: on success its driver is spawned and
the record established, with a read loop if no inbound session is expected; on
failure the record is removed. -/
theorem handshake (hI : SessionInv c) (hA : AttemptInv c) {l : Leaf} (hl : l ∈ c.leaves)
    (ha : c.senderAlive l) {ok : Bool}
    (h : handleNewConnectionRes env { c.dropLeaf l.terminator with nextId := c.nextId + 1 }
      l.peerAddr (if ok then .ok c.nextId else .error .quicConnectionError) = .ok c') :
    SessionInv c' := by
  obtain ⟨conn, ps, hc, ht⟩ := hA.initiated_of_senderAlive hl ha
  have hother : ∀ b conn', b ≠ l.peerAddr → c.connections b = some conn' →
      conn'.Backed c.drivers c.readers (c.leaves.filter (·.terminator ≠ l.terminator)) b :=
    fun b conn' hb hc' => (hI.backed b conn' hc').dropLeaf (hI.terminator?_ne hA hl hc' hb)
  cases ok with
  | false =>
    cases h
    exact hI.of_sublist (List.Sublist.refl _) (Nat.le_succ _)
      (.of_update rfl hother (fun _ h => by cases h))
  | true =>
    rw [if_pos rfl, handleNewConnectionRes_of_initiated (by exact hc) ht] at h
    cases h
    refine hI.of_spawn l.peerAddr true (by simp) (by simp) (.of_update (establish_connections ..)
      (fun b conn' hb hc' => (hother b conn' hb hc').mono (by simp) (by simp [establish_readers])
        (by simp)) ?_)
    rintro _ ⟨⟩
    refine ⟨fun cert q hq => ?_, fun q rs hf => ?_, fun k cert ps hk => by simp at hk⟩
    · simp only [establishedRecord_toPeer, ToPeer.established.injEq] at hq
      obtain ⟨rfl, rfl⟩ := hq
      refine ⟨by simp, fun hn => ?_⟩
      simp [establish_readers, FromPeer.drain_eq_notNeeded.1 hn]
    · obtain ⟨rs', hf'⟩ := FromPeer.drain_eq_established hf
      simp [establish_readers, (hI.backed _ conn hc).inbound q rs' hf']

/-- A failed driver takes the record at its address; no other record holds its
session. -/
theorem driverFailed (hI : SessionInv c) {d : Driver} (hd : d ∈ c.drivers) :
    SessionInv (({ c with drivers := c.drivers.filter (·.qConn ≠ d.qConn) } : Context).removeConnection
      d.peerAddr (some .quicConnectionError)) :=
  hI.of_sublist (List.filter_sublist _) le_rfl (.of_update rfl
    (fun b conn hb hc => (hI.backed b conn hc).filterDrivers fun d' hd' hb' hq =>
      hb (hb'.symm.trans (congrArg Driver.peerAddr (hI.driver_eq hd' hd hq))))
    (fun _ h => by cases h))

/-- `handle_new_conn`: the driver is spawned, and a free inbound half takes the
session together with its read loop. -/
theorem handleNewConn (hI : SessionInv c) (a : SocketAddr) :
    SessionInv (QuicP2p.handleNewConn c a) := by
  refine hI.of_spawn a false (handleNewConn_drivers c a) (handleNewConn_nextId c a) ?_
  rcases handleNewConn_busy_or_free c a with ⟨conn, hc, hf⟩ | ⟨conn, hconn, hf⟩
  · rw [handleNewConn_of_busy hc hf]
    exact fun b conn' hb => (hI.backed b conn' hb).mono (by simp) (List.Subset.refl _)
      (List.Subset.refl _)
  · have hr := handleNewConn_readers_of_free hconn hf
    refine .of_update (handleNewConn_connections_of_free hconn hf)
      (fun b conn' _ hb => (hI.backed b conn' hb).mono (by simp) (by simp [hr]) (by simp)) ?_
    rintro _ ⟨⟩
    have hb : conn.Backed c.drivers c.readers c.leaves a := hconn ▸ hI.backed_getD a false none c.nextId
    refine ⟨fun cert q ht => ⟨by simp [(hb.outbound cert q ht).1], by simp⟩,
      fun q rs he => ?_, fun k cert ps ht => by simpa using hb.attempt k cert ps ht⟩
    simp only [inboundRecord_fromPeer, FromPeer.established.injEq] at he
    obtain ⟨rfl, rfl⟩ := he
    simp [hr]

/-- A read loop only buffers in an inbound half, which keeps its session. -/
theorem readFromPeer (hI : SessionInv c) (a : SocketAddr) (q : QConn) (msg : WireMsg) :
    SessionInv (QuicP2p.readFromPeer c a q msg) := by
  obtain ⟨hd, -, -⟩ := @readFromPeer_futures c a q msg
  refine hI.of_sublist (by rw [hd]) (by simp) ?_
  cases hc : c.connections a with
  | none => rw [readFromPeer_of_none hc]; exact hI.backed
  | some conn =>
    cases hready : conn.ready
    · rw [readFromPeer_of_not_ready hc hready]
      exact .of_update rfl (fun b conn' _ hb => hI.backed b conn' hb)
        (by rintro _ ⟨⟩; exact (hI.backed a conn hc).buffer msg)
    · rw [readFromPeer_of_ready hc hready]; exact hI.backed

/-- **Every step keeps every record backed.** -/
theorem step (hI : SessionInv c) (hA : AttemptInv c) {l : Label}
    (h : QuicP2p.step env c l = .ok c') : SessionInv c' := by
  cases l with
  | connectTo peerInfo m =>
    obtain ⟨r, h⟩ := step_connectTo h
    exact hI.connectTo h
  | bootstrap proxies m =>
    exact bootstrap_induction SessionInv (hI.of_sublist (List.Sublist.refl _) (Nat.le_succ _) hI.backed)
      (fun _ _ _ _ _ h₁ h₂ => h₁.connectTo h₂) h
  | send peer msg =>
    rcases step_send h with ⟨a, conn, k, cert, ps, hc, ht, rfl⟩ | ⟨a, q, rfl⟩ | ⟨info, r, -, h⟩ | rfl
    · exact hI.of_sublist (List.Sublist.refl _) le_rfl (.of_update rfl
        (fun b conn' _ hb => hI.backed b conn' hb) (by rintro _ ⟨⟩; exact (hI.backed a conn hc).queue ht _))
    · exact hI.of_sublist (List.Sublist.refl _) le_rfl hI.backed
    · exact hI.connectTo h
    · exact hI
  | disconnectFrom a => cases h; exact hI.removeConnection a none
  | terminator k =>
    rcases step_terminator h with rfl | ⟨l, hl, rfl, hna, rfl⟩ | ⟨l, hl, rfl, rfl, -⟩
    · exact hI
    · exact hI.dropLeaf hA hl hna
    · exact hI.cancel hA hl _
  | handshake k ok =>
    rcases step_handshake h with rfl | ⟨l, hl, rfl, -, ha, h, -⟩
    · exact hI
    · exact hI.handshake hA hl ha h
  | driverFailed q =>
    rcases step_driverFailed h with rfl | ⟨d, hd, rfl, rfl, -⟩
    · exact hI
    · exact hI.driverFailed hd
  | incoming a =>
    rcases step_incoming h with rfl | ⟨-, rfl⟩
    · exact hI
    · exact hI.handleNewConn a
  | read q msg =>
    rcases step_read h with rfl | ⟨r, -, rfl⟩
    · exact hI
    · exact hI.readFromPeer _ _ _
  | readFailed q e =>
    rcases step_readFailed h with rfl | ⟨r, -, rfl, -⟩
    · exact hI
    · exact hI.removeConnection _ _
  | writeFailed q e =>
    rcases step_writeFailed h with rfl | ⟨w, -, rfl, -⟩
    · exact hI
    · have h₁ : SessionInv { c with writers := c.writers.erase w } :=
        hI.of_sublist (List.Sublist.refl _) le_rfl hI.backed
      exact h₁.removeConnection _ _

end SessionInv

theorem Reachable.sessionInv {env : Env} {c : Context} (hc : Reachable env c) : SessionInv c :=
  hc.invariant SessionInv.init fun _ _ _ hc hI h => hI.step hc.attemptInv h

/-! ### What the futures guarantee -/

/-- **Every session a record holds is served.** In every reachable context the
drivers' sessions are pairwise distinct; an outbound session held by a record
has its driver, and its read loop on a record that expects no inbound session;
an inbound session has its driver and its read loop. -/
theorem held_sessions_driven {env : Env} {c : Context} (hc : Reachable env c) :
    (c.drivers.map (·.qConn)).Nodup ∧ ∀ a conn, c.connections a = some conn →
      (∀ cert q, conn.toPeer = .established cert q → (⟨a, q, true⟩ : Driver) ∈ c.drivers ∧
        (conn.fromPeer = .notNeeded → (⟨a, q⟩ : Reader) ∈ c.readers)) ∧
      ∀ q rs, conn.fromPeer = .established q rs →
        (⟨a, q, false⟩ : Driver) ∈ c.drivers ∧ (⟨a, q⟩ : Reader) ∈ c.readers := by
  have hI := hc.sessionInv
  exact ⟨hI.drivers_nodup, fun a conn h => ⟨(hI.backed a conn h).outbound, (hI.backed a conn h).inbound⟩⟩

theorem held_sessions_driven_up :
    let env : Env := ⟨.node, [9], fun d => !d.isEmpty, fun _ => true, 64⟩
    ∃ c, Reachable env c ∧
      c.connections 1 = some ⟨.established [1] 1, .established 2 [], none, true, 0⟩ ∧
      (c.drivers.map (·.qConn)).Nodup ∧ ∀ a conn, c.connections a = some conn →
        (∀ cert q, conn.toPeer = .established cert q → (⟨a, q, true⟩ : Driver) ∈ c.drivers ∧
          (conn.fromPeer = .notNeeded → (⟨a, q⟩ : Reader) ∈ c.readers)) ∧
        ∀ q rs, conn.fromPeer = .established q rs →
          (⟨a, q, false⟩ : Driver) ∈ c.drivers ∧ (⟨a, q⟩ : Reader) ∈ c.readers := by
  intro env
  have hc : Reachable env _ := .step (.incoming 1) (.step (.handshake 0 true)
    (.step (.connectTo ⟨1, [1]⟩ none) .init rfl) rfl) rfl
  exact ⟨_, hc, by decide, held_sessions_driven hc⟩

/-- **A failed driver's session is held by no record.** After the driver of
session `q` fails in a reachable context, no record holds `q` in either half. -/
theorem driver_failure_frees_session {env : Env} {c c' : Context} {q : QConn} (hc : Reachable env c)
    (h : step env c (.driverFailed q) = .ok c') :
    ∀ a conn, c'.connections a = some conn →
      (∀ cert, conn.toPeer ≠ .established cert q) ∧ ∀ rs, conn.fromPeer ≠ .established q rs := by
  have hI := (hc.step _ h).sessionInv
  have hgone := step_driverFailed_drivers h
  exact fun a conn ha => ⟨fun cert ht => hgone _ ((hI.backed a conn ha).outbound cert q ht).1 rfl,
    fun rs hf => hgone _ ((hI.backed a conn ha).inbound q rs hf).1 rfl⟩

theorem driver_failure_frees_session_other :
    let env : Env := ⟨.node, [9], fun d => !d.isEmpty, fun _ => true, 64⟩
    ∃ c c', Reachable env c ∧ step env c (.driverFailed 1) = .ok c' ∧
      c'.connections 2 = some ⟨.established [2] 3, .noConnection, none, true, 2⟩ ∧
      ∀ a conn, c'.connections a = some conn →
        (∀ cert, conn.toPeer ≠ .established cert 1) ∧ ∀ rs, conn.fromPeer ≠ .established 1 rs := by
  intro env
  have hc : Reachable env _ := .step (.handshake 2 true) (.step (.connectTo ⟨2, [2]⟩ none)
    (.step (.handshake 0 true) (.step (.connectTo ⟨1, [1]⟩ none) .init rfl) rfl) rfl) rfl
  exact ⟨_, _, hc, rfl, by decide, driver_failure_frees_session hc rfl⟩

/-- **Every session has one holder.** In every reachable context a session is
held by at most one half of one record. -/
theorem session_held_once {env : Env} {c : Context} (hc : Reachable env c) {a b : SocketAddr}
    {conn conn' : Connection} (ha : c.connections a = some conn) (hb : c.connections b = some conn')
    {x y : Bool} {q : QConn} (hx : conn.session? x = some q) (hy : conn'.session? y = some q) :
    a = b ∧ x = y := by
  have hI := hc.sessionInv
  simpa using hI.driver_eq ((hI.backed a conn ha).driver_of_session? hx)
    ((hI.backed b conn' hb).driver_of_session? hy) rfl

theorem session_held_once_up :
    let env : Env := ⟨.node, [9], fun d => !d.isEmpty, fun _ => true, 64⟩
    ∃ c conn, Reachable env c ∧ c.connections 1 = some conn ∧ conn.session? true = some 1 ∧
      conn.session? false = some 2 ∧ (1 = 1 ∧ true = true) := by
  intro env
  obtain ⟨c, hc, h1⟩ : ∃ c, Reachable env c ∧
      c.connections 1 = some ⟨.established [1] 1, .established 2 [], none, true, 0⟩ :=
    ⟨_, .step (.incoming 1) (.step (.handshake 0 true) (.step (.connectTo ⟨1, [1]⟩ none) .init rfl) rfl)
      rfl, by decide⟩
  exact ⟨c, _, hc, h1, rfl, rfl, session_held_once hc h1 h1 rfl rfl⟩

/-! ### Progress -/

/-- The steps that end the attempt of an `Initiated` record: the poll of its
signalled terminator, and the success and the failure of its handshake. -/
theorem Reachable.initiated_steps {env : Env} {c : Context} (hc : Reachable env c)
    {a : SocketAddr} {conn : Connection} {k : ℕ} {cert : CertDer} {ps : List WireMsg}
    (ha : c.connections a = some conn) (ht : conn.toPeer = .initiated k cert ps) :
    (⟨a, k, cert⟩ : Leaf) ∈ c.leaves ∧
      (k ∈ c.signalled → QuicP2p.step env c (.terminator k) =
        .ok (handleConnectErr (c.dropLeaf k) a .connectionCancelled)) ∧
      (k ∉ c.signalled → QuicP2p.step env c (.handshake k true) =
        .ok (establish env { c.dropLeaf k with
          nextId := c.nextId + 1, drivers := c.drivers ++ [⟨a, c.nextId, true⟩] } a conn cert ps c.nextId)) ∧
      (k ∉ c.signalled → QuicP2p.step env c (.handshake k false) =
        .ok (handleConnectErr { c.dropLeaf k with nextId := c.nextId + 1 } a .quicConnectionError)) := by
  have hl := (hc.sessionInv.backed a conn ha).attempt k cert ps ht
  have hfind : c.leaves.find? (·.terminator = k) = some ⟨a, k, cert⟩ := hc.attemptInv.find?_leaf hl
  have halive : c.senderAlive ⟨a, k, cert⟩ := by simp [Context.senderAlive, ha, ht, ToPeer.terminator?]
  refine ⟨hl, fun hs => by simp only [QuicP2p.step, hfind, hs, if_true], fun hs => ?_, fun hs => ?_⟩
  · simp only [QuicP2p.step, hfind, hs, halive, not_false_eq_true, and_self, if_true]
    exact handleNewConnectionRes_of_initiated ha ht
  · simp only [QuicP2p.step, hfind, hs, halive, not_false_eq_true, and_self, if_true, Bool.false_eq_true,
      if_false]
    rfl

/-- **An attempt in flight can always be resolved.** In every reachable
context a record whose outbound half is `Initiated` for attempt `k` still has
`k`'s leaf. If `k`'s terminator holds a signal, polling it removes the record;
otherwise the handshake's success establishes the record with the certificate
of the attempt, and its failure removes the record. -/
theorem initiated_attempt_resolvable {env : Env} {c : Context} (hc : Reachable env c)
    {a : SocketAddr} {conn : Connection} {k : ℕ} {cert : CertDer} {ps : List WireMsg}
    (ha : c.connections a = some conn) (ht : conn.toPeer = .initiated k cert ps) :
    (⟨a, k, cert⟩ : Leaf) ∈ c.leaves ∧
      (k ∈ c.signalled → ∃ c', step env c (.terminator k) = .ok c' ∧ c'.connections a = none) ∧
      (k ∉ c.signalled →
        (∃ c', step env c (.handshake k true) = .ok c' ∧
          c'.connections a = some (establishedRecord conn cert c.nextId)) ∧
        ∃ c', step env c (.handshake k false) = .ok c' ∧ c'.connections a = none) := by
  obtain ⟨hl, hcancel, hup, hfail⟩ := hc.initiated_steps ha ht
  exact ⟨hl, fun hs => ⟨_, hcancel hs, by simp [handleConnectErr]⟩,
    fun hs => ⟨⟨_, hup hs, by simp⟩, _, hfail hs, by simp [handleConnectErr]⟩⟩

theorem initiated_attempt_resolvable_first :
    let env : Env := ⟨.node, [9], fun d => !d.isEmpty, fun _ => true, 64⟩
    ∃ c, Reachable env c ∧ c.connections 1 = some ⟨.initiated 0 [1] [], .noConnection, none, true, 0⟩ ∧
      (⟨1, 0, [1]⟩ : Leaf) ∈ c.leaves ∧
      (0 ∈ c.signalled → ∃ c', step env c (.terminator 0) = .ok c' ∧ c'.connections 1 = none) ∧
      (0 ∉ c.signalled →
        (∃ c', step env c (.handshake 0 true) = .ok c' ∧ c'.connections 1 =
          some (establishedRecord ⟨.initiated 0 [1] [], .noConnection, none, true, 0⟩ [1] c.nextId)) ∧
        ∃ c', step env c (.handshake 0 false) = .ok c' ∧ c'.connections 1 = none) := by
  intro env
  have hc : Reachable env _ := .step (.connectTo ⟨1, [1]⟩ none) .init rfl
  exact ⟨_, hc, by decide, initiated_attempt_resolvable hc (by decide) rfl⟩

/-- A pending leaf can always end, by a step that fails its attempt: the poll
of its terminator, which cancels the attempt if signalled and otherwise, with
no sender left, drops the leaf; or, while a sender lives, its handshake's
failure. -/
theorem AttemptInv.leaf_ends {c : Context} (hA : AttemptInv c) (env : Env) {l : Leaf}
    (hl : l ∈ c.leaves) :
    ∃ lab c', (lab = .terminator l.terminator ∨ lab = .handshake l.terminator false) ∧
      QuicP2p.step env c lab = .ok c' ∧ c'.leaves = c.leaves.filter (·.terminator ≠ l.terminator) := by
  have hfind := hA.find?_leaf hl
  by_cases hs : l.terminator ∈ c.signalled
  · exact ⟨_, handleConnectErr (c.dropLeaf l.terminator) l.peerAddr .connectionCancelled, .inl rfl,
      by simp only [QuicP2p.step, hfind, hs, if_true], rfl⟩
  by_cases ha : c.senderAlive l
  · refine ⟨_, handleConnectErr { c.dropLeaf l.terminator with nextId := c.nextId + 1 } l.peerAddr
      .quicConnectionError, .inr rfl, ?_, rfl⟩
    simp only [QuicP2p.step, hfind, hs, ha, not_false_eq_true, and_self, if_true, Bool.false_eq_true, if_false]
    rfl
  · exact ⟨_, c.dropLeaf l.terminator, .inl rfl, by simp only [QuicP2p.step, hfind, hs, ha, Bool.false_eq_true, if_false], rfl⟩

/-- A run of such steps ends every pending leaf. -/
theorem Reachable.finish_attempts {env : Env} :
    ∀ (n : ℕ) {c : Context}, Reachable env c → c.leaves.length ≤ n →
      ∃ ls c', (∀ lab ∈ ls, ∃ k, lab = .terminator k ∨ lab = .handshake k false) ∧
        QuicP2p.exec env c ls = .ok c' ∧ Reachable env c' ∧ c'.leaves = []
  | 0, c, hc, hn => ⟨[], c, by simp, rfl, hc, List.length_eq_zero.1 (Nat.le_zero.1 hn)⟩
  | n + 1, c, hc, hn => by
    cases hls : c.leaves with
    | nil => exact ⟨[], c, by simp, rfl, hc, hls⟩
    | cons l rest =>
      have hl : l ∈ c.leaves := hls ▸ List.mem_cons_self l rest
      obtain ⟨lab, c₁, hlab, hstep, hleaves⟩ := hc.attemptInv.leaf_ends env hl
      have hlt : c₁.leaves.length < c.leaves.length := by
        rw [hleaves]; exact List.length_filter_lt_length_iff_exists.2 ⟨l, hl, by simp⟩
      obtain ⟨ls, c', hls', hexec, hc', h'⟩ := finish_attempts n (hc.step lab hstep) (by omega)
      exact ⟨lab :: ls, c', List.forall_mem_cons.2 ⟨⟨_, hlab⟩, hls'⟩,
        by rw [QuicP2p.exec, hstep]; exact hexec, hc', h'⟩

/-- **Every attempt in flight can be finished.** From every reachable context
a run of terminator polls and failed handshakes, none of which panics, reaches
a context with no pending leaf and no record in `Initiated`. -/
theorem attempts_can_finish {env : Env} {c : Context} (hc : Reachable env c) :
    ∃ ls c', (∀ lab ∈ ls, ∃ k, lab = .terminator k ∨ lab = .handshake k false) ∧
      exec env c ls = .ok c' ∧ c'.leaves = [] ∧
      ∀ a conn, c'.connections a = some conn → conn.toPeer.terminator? = none := by
  obtain ⟨ls, c', hls, hexec, hc', hnil⟩ := hc.finish_attempts _ le_rfl
  refine ⟨ls, c', hls, hexec, hnil, fun a conn ha => ?_⟩
  cases ht : conn.toPeer.terminator? with
  | none => rfl
  | some k =>
    obtain ⟨cert, ps, ht⟩ := ToPeer.terminator?_eq_some.1 ht
    simpa [hnil] using (hc'.sessionInv.backed a conn ha).attempt k cert ps ht

theorem attempts_can_finish_bootstrap :
    let env : Env := ⟨.node, [9], fun d => !d.isEmpty, fun _ => true, 64⟩
    ∃ c, Reachable env c ∧ c.leaves.length = 2 ∧
      ∃ ls c', (∀ lab ∈ ls, ∃ k, lab = .terminator k ∨ lab = .handshake k false) ∧
        exec env c ls = .ok c' ∧ c'.leaves = [] ∧
        ∀ a conn, c'.connections a = some conn → conn.toPeer.terminator? = none := by
  intro env
  have hc : Reachable env _ := .step (.bootstrap [⟨1, [1]⟩, ⟨2, [2]⟩] none) .init rfl
  exact ⟨_, hc, by decide, attempts_can_finish hc⟩

end QuicP2p
