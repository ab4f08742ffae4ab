/-
# A handshake completes against the attempt that started it

`connect_to` call `k` installs `Initiated` with terminator `k` and spawns a leaf
that races the receiver of `k` against a handshake authenticated to the
certificate of the call. The handshake resolves only while the receiver holds
no signal and its stream has not ended, that is while a sender of `k` is
alive: in the `Initiated` half of the record, or in a bootstrap group. A group
member lives exactly as long as the group ref of its record, and a half leaves
`Initiated` only through its own handshake, so a live sender always sits next
to the record call `k` installed (`AttemptInv`). Hence
`handle_new_connection_res` never meets another attempt's record, its
`unreachable!` arm is dead, and the certificate it commits, reports and caches
is the one the session was authenticated to.

Key definitions: `AttemptInv`.
Key theorems: `AttemptInv.step`, `AttemptInv.initiated_of_senderAlive`.
-/
import Mathlib.Data.List.Nodup
import QuicP2p.Loop

namespace QuicP2p

/-- What ties each attempt's leaf to the records and the group members:
terminators are fresh and each leaf's is its own, a member's record holds its
group, and a member of a pending attempt sits next to the `Initiated` half that
attempt installed, whose certificate is the leaf's. -/
structure AttemptInv (c : Context) : Prop where
  leaf_lt : ∀ l ∈ c.leaves, l.terminator < c.nextId
  member_lt : ∀ m ∈ c.members, m.terminator < c.nextId
  leaves_nodup : (c.leaves.map (·.terminator)).Nodup
  member_ref : ∀ m ∈ c.members, ∃ conn, c.connections m.peerAddr = some conn ∧
    conn.bootstrapGroupRef = some m.group
  member_initiated : ∀ l ∈ c.leaves, ∀ m ∈ c.members, m.terminator = l.terminator →
    m.peerAddr = l.peerAddr ∧ ∃ conn ps, c.connections l.peerAddr = some conn ∧
      conn.toPeer = .initiated l.terminator l.peerCertDer ps
  initiated_cert : ∀ l ∈ c.leaves, ∀ conn cert ps, c.connections l.peerAddr = some conn →
    conn.toPeer = .initiated l.terminator cert ps → cert = l.peerCertDer

namespace AttemptInv

variable {env : Env} {c c' : Context}

theorem init : AttemptInv .init where
  leaf_lt := by simp [Context.init]
  member_lt := by simp [Context.init]
  leaves_nodup := by simp [Context.init]
  member_ref := by simp [Context.init]
  member_initiated := by simp [Context.init]
  initiated_cert := by simp [Context.init]

/-- A live sender sits next to its attempt's `Initiated`. -/
theorem initiated_of_senderAlive (hI : AttemptInv c) {l : Leaf} (hl : l ∈ c.leaves)
    (ha : c.senderAlive l) :
    ∃ conn ps, c.connections l.peerAddr = some conn ∧
      conn.toPeer = .initiated l.terminator l.peerCertDer ps := by
  simp only [Context.senderAlive, Bool.or_eq_true, beq_iff_eq, List.any_eq_true,
    decide_eq_true_eq] at ha
  rcases ha with h | ⟨m, hm, hk⟩
  · obtain ⟨conn, hc, ht⟩ := Option.bind_eq_some.1 h
    obtain ⟨cert, ps, ht⟩ := ToPeer.terminator?_eq_some.1 ht
    exact ⟨conn, ps, hc, hI.initiated_cert l hl conn cert ps hc ht ▸ ht⟩
  · exact (hI.member_initiated l hl m hm hk).2

/-! ### Frames

A handler that keeps the records and only drops members and leaves keeps the
invariant; one that changes the record for one address keeps it when the
record there still carries what the members and leaves at that address need. -/

theorem mono (hI : AttemptInv c) (hconn : c'.connections = c.connections)
    (hmem : ∀ m ∈ c'.members, m ∈ c.members) (hleaves : c'.leaves.Sublist c.leaves)
    (hnext : c.nextId ≤ c'.nextId) : AttemptInv c' where
  leaf_lt l hl := (hI.leaf_lt l (hleaves.subset hl)).trans_le hnext
  member_lt m hm := (hI.member_lt m (hmem m hm)).trans_le hnext
  leaves_nodup := hI.leaves_nodup.sublist (hleaves.map _)
  member_ref m hm := hconn ▸ hI.member_ref m (hmem m hm)
  member_initiated l hl m hm hk := hconn ▸ hI.member_initiated l (hleaves.subset hl) m (hmem m hm) hk
  initiated_cert l hl := hconn ▸ hI.initiated_cert l (hleaves.subset hl)

theorem of_update (hI : AttemptInv c) {a : SocketAddr} {o : Option Connection}
    (hconn : c'.connections = Function.update c.connections a o)
    (hmem : ∀ m ∈ c'.members, m ∈ c.members) (hleaves : c'.leaves.Sublist c.leaves)
    (hnext : c.nextId ≤ c'.nextId)
    (href : ∀ m ∈ c'.members, m.peerAddr = a →
      ∃ conn, o = some conn ∧ conn.bootstrapGroupRef = some m.group)
    (hcert : ∀ l ∈ c'.leaves, l.peerAddr = a → ∀ conn cert ps, o = some conn →
      conn.toPeer = .initiated l.terminator cert ps → cert = l.peerCertDer)
    (hinit : ∀ l ∈ c'.leaves, l.peerAddr = a → ∀ m ∈ c'.members, m.terminator = l.terminator →
      ∃ conn ps, o = some conn ∧ conn.toPeer = .initiated l.terminator l.peerCertDer ps) :
    AttemptInv c' where
  leaf_lt l hl := (hI.leaf_lt l (hleaves.subset hl)).trans_le hnext
  member_lt m hm := (hI.member_lt m (hmem m hm)).trans_le hnext
  leaves_nodup := hI.leaves_nodup.sublist (hleaves.map _)
  member_ref m hm := by
    rw [hconn]
    by_cases ha : m.peerAddr = a
    · rw [ha, Function.update_same]; exact href m hm ha
    · rw [Function.update_noteq ha]; exact hI.member_ref m (hmem m hm)
  member_initiated l hl m hm hk := by
    obtain ⟨hpa, rest⟩ := hI.member_initiated l (hleaves.subset hl) m (hmem m hm) hk
    refine ⟨hpa, ?_⟩
    rw [hconn]
    by_cases ha : l.peerAddr = a
    · rw [ha, Function.update_same]; exact hinit l hl ha m hm hk
    · rw [Function.update_noteq ha]; exact rest
  initiated_cert l hl conn cert ps := by
    rw [hconn]
    by_cases ha : l.peerAddr = a
    · rw [ha, Function.update_same]; exact hcert l hl ha conn cert ps
    · rw [Function.update_noteq ha]; exact hI.initiated_cert l (hleaves.subset hl) conn cert ps

/-! ### One lemma per handler -/

/-- The members a removal keeps are away from the address: the record there held
the group of any member at it. -/
theorem mem_removeConnection_members (hI : AttemptInv c) {a : SocketAddr} {cause : Option Error}
    {m : Member} (hm : m ∈ (c.removeConnection a cause).members) : m ∈ c.members ∧ m.peerAddr ≠ a := by
  simp only [Context.removeConnection_members, List.mem_filter, Bool.not_eq_true',
    decide_eq_false_iff_not, not_and] at hm
  refine ⟨hm.1, fun ha => ?_⟩
  obtain ⟨conn, hc, hr⟩ := hI.member_ref m hm.1
  rw [ha] at hc
  exact hm.2 (by simp [hc, hr]) ha

theorem removeConnection (hI : AttemptInv c) (a : SocketAddr) (cause : Option Error) :
    AttemptInv (c.removeConnection a cause) :=
  hI.of_update (show _ = Function.update c.connections a none from rfl)
    (fun m hm => (hI.mem_removeConnection_members hm).1)
    (List.Sublist.refl _) le_rfl
    (fun m hm ha => absurd ha (hI.mem_removeConnection_members hm).2)
    (fun _ _ _ _ _ _ h => by cases h)
    (fun l hl ha m hm hk => absurd ((hI.member_initiated l hl m
      (hI.mem_removeConnection_members hm).1 hk).1.trans ha) (hI.mem_removeConnection_members hm).2)

theorem dropLeaf (hI : AttemptInv c) (k : ℕ) : AttemptInv (c.dropLeaf k) :=
  hI.mono rfl (fun _ h => h) (List.filter_sublist _) le_rfl

/-- `connect_to` on a free outbound half: `Initiated` with the fresh terminator,
its member if the record had no group, and its leaf. -/
theorem installed (hI : AttemptInv c) {peerInfo : NodeInfo} {m : Option WireMsg} {g : Option ℕ}
    (hfree : ∀ conn, c.connections peerInfo.peerAddr = some conn → conn.toPeer = .noConnection) :
    AttemptInv { installed env c peerInfo m g with
      leaves := c.leaves ++ [⟨peerInfo.peerAddr, c.nextId, peerInfo.peerCertDer⟩] } := by
  have hmem := fun mb (h : mb ∈ (QuicP2p.installed env c peerInfo m g).members) =>
    mem_installed_members env c peerInfo m g h
  refine ⟨?_, ?_, ?_, ?_, ?_, ?_⟩
  · simp only [installed_nextId, List.mem_append, List.mem_singleton]
    rintro l (hl | rfl)
    · exact (hI.leaf_lt l hl).trans (Nat.lt_succ_self _)
    · exact Nat.lt_succ_self _
  · intro mb hm
    rcases hmem mb hm with hm | ⟨-, -, -, hk⟩
    · exact (hI.member_lt mb hm).trans (by simp)
    · simp [hk]
  · simpa [List.nodup_append] using ⟨hI.leaves_nodup, fun l hl h => (hI.leaf_lt l hl).ne h⟩
  · intro mb hm
    simp only [installed_connections]
    rcases hmem mb hm with hm | ⟨hn, hg, ha, -⟩
    · obtain ⟨conn, hc, hr⟩ := hI.member_ref mb hm
      by_cases ha : mb.peerAddr = peerInfo.peerAddr
      · rw [ha] at hc ⊢
        simp [initiatedRecord_bootstrapGroupRef, hc, hr]
      · exact ⟨conn, by rw [Function.update_noteq ha, hc], hr⟩
    · rw [ha]
      simp only [Option.isNone_iff_eq_none] at hn
      simp [initiatedRecord_bootstrapGroupRef, hn, hg]
  · simp only [installed_connections, List.mem_append, List.mem_singleton]
    rintro l (hl | rfl) mb hm hk
    · rcases hmem mb hm with hm | ⟨-, -, -, hk'⟩
      · obtain ⟨hpa, conn, ps, hc, ht⟩ := hI.member_initiated l hl mb hm hk
        have ha : l.peerAddr ≠ peerInfo.peerAddr := by
          rintro ha; rw [hfree conn (ha ▸ hc)] at ht; cases ht
        exact ⟨hpa, conn, ps, by rw [Function.update_noteq ha, hc], ht⟩
      · exact absurd (hk.symm.trans hk') (hI.leaf_lt l hl).ne
    · rcases hmem mb hm with hm | ⟨-, -, ha, -⟩
      · exact absurd hk (hI.member_lt mb hm).ne
      · exact ⟨ha, initiatedRecord env c peerInfo m g, _, by simp, rfl⟩
  · simp only [installed_connections, List.mem_append, List.mem_singleton]
    rintro l (hl | rfl) conn cert ps hc ht
    · by_cases ha : l.peerAddr = peerInfo.peerAddr
      · rw [ha, Function.update_same] at hc
        cases hc
        simp only [initiatedRecord_toPeer, ToPeer.initiated.injEq] at ht
        exact absurd ht.1 (hI.leaf_lt l hl).ne'
      · rw [Function.update_noteq ha] at hc
        exact hI.initiated_cert l hl conn cert ps hc ht
    · simp only [Function.update_same, Option.some.injEq] at hc
      subst hc
      simp only [initiatedRecord_toPeer, ToPeer.initiated.injEq] at ht
      exact ht.2.1.symm

theorem connectTo (hI : AttemptInv c) {peerInfo : NodeInfo} {m : Option WireMsg} {g : Option ℕ}
    {r : Except Error Unit} (h : QuicP2p.connectTo env c peerInfo m g = .ok (c', r)) :
    AttemptInv c' := by
  rcases connectTo_cases h with ⟨-, rfl⟩ | rfl | ⟨hfree, rfl | ⟨-, rfl⟩⟩
  · exact hI.removeConnection _ _
  · exact hI
  · exact hI.installed fun conn hc => (hfree conn hc).1
  · have h₁ : AttemptInv (QuicP2p.installed env c peerInfo m g) :=
      (hI.installed fun conn hc => (hfree conn hc).1).mono rfl (fun _ h => h) (by simp) le_rfl
    exact h₁.removeConnection _ _

/-- `send` adding to the queue of an `Initiated` half: its terminator, its
certificate and the record's group ref stay. -/
theorem queue (hI : AttemptInv c) {a : SocketAddr} {conn : Connection} {k : ℕ} {cert : CertDer}
    {ps : List WireMsg} (ps' : List WireMsg) (hc : c.connections a = some conn)
    (ht : conn.toPeer = .initiated k cert ps) :
    AttemptInv (c.setConn a { conn with toPeer := .initiated k cert ps' }) := by
  refine hI.of_update rfl (fun _ h => h) (List.Sublist.refl _) le_rfl ?_ ?_ ?_
  · intro m hm ha
    obtain ⟨conn', hc', hr⟩ := hI.member_ref m hm
    rw [ha, hc] at hc'
    cases hc'
    exact ⟨_, rfl, hr⟩
  · intro l hl ha conn' cert' ps₀ ho ht'
    cases ho
    obtain ⟨rfl, rfl, -⟩ := ToPeer.initiated.inj ht'
    exact hI.initiated_cert l hl conn cert ps (ha ▸ hc) ht
  · intro l hl ha m hm hk
    obtain ⟨-, conn', ps₀, hc', ht'⟩ := hI.member_initiated l hl m hm hk
    rw [ha, hc] at hc'
    cases hc'
    obtain ⟨rfl, rfl, -⟩ := ToPeer.initiated.inj (ht.symm.trans ht')
    exact ⟨_, ps', rfl, rfl⟩

/-- `handle_new_connection_res` on the `Initiated` record of attempt `k`, once
no leaf of `k` is left. -/
theorem establish (hI : AttemptInv c) {a : SocketAddr} {conn : Connection} {k : ℕ} {cert : CertDer}
    {ps : List WireMsg} {q : QConn} (hc : c.connections a = some conn)
    (ht : conn.toPeer = .initiated k cert ps) (hk : ∀ l ∈ c.leaves, l.terminator ≠ k) :
    AttemptInv (QuicP2p.establish env c a conn cert ps q) := by
  refine hI.of_update (establish_connections _ _ _ _ _ _ _)
    (fun m hm => (mem_establish_members _ _ _ _ _ _ _ hm).1)
    (by simp) (by simp) ?_ ?_ ?_
  · intro m hm ha
    obtain ⟨hm, hfire⟩ := mem_establish_members _ _ _ _ _ _ _ hm
    obtain ⟨conn', hc', hr⟩ := hI.member_ref m hm
    rw [ha, hc] at hc'
    cases hc'
    refine ⟨_, rfl, ?_⟩
    by_cases hready : conn.fromPeer.isReady
    · exact absurd ha (hfire hready hr)
    · simp [establishedRecord, hready, hr]
  · intro l _ _ conn' cert' ps' ho ht'
    cases ho; cases ht'
  · intro l hl ha m hm hkm
    simp only [establish_leaves] at hl
    obtain ⟨-, conn', ps', hc', ht'⟩ :=
      hI.member_initiated l hl m (mem_establish_members _ _ _ _ _ _ _ hm).1 hkm
    rw [ha, hc] at hc'
    cases hc'
    rw [ht] at ht'
    cases ht'
    exact absurd rfl (hk l hl)

/-- A handshake resolving for the live attempt `l`. -/
theorem handshake (hI : AttemptInv c) {l : Leaf} (hl : l ∈ c.leaves) (ha : c.senderAlive l)
    {res : Except Error QConn}
    (h : handleNewConnectionRes env { c.dropLeaf l.terminator with nextId := c.nextId + 1 }
      l.peerAddr res = .ok c') : AttemptInv c' := by
  have h₁ : AttemptInv { c.dropLeaf l.terminator with nextId := c.nextId + 1 } :=
    hI.mono rfl (fun _ h => h) (List.filter_sublist _) (Nat.le_succ _)
  cases res with
  | error e =>
    cases h
    cases e <;> first | exact h₁ | exact h₁.removeConnection _ _
  | ok q =>
    obtain ⟨conn, ps, hc, ht⟩ := hI.initiated_of_senderAlive hl ha
    rw [handleNewConnectionRes_of_initiated (by exact hc) ht] at h
    cases h
    have h₂ : AttemptInv { c.dropLeaf l.terminator with
        nextId := c.nextId + 1, drivers := c.drivers ++ [⟨l.peerAddr, q, true⟩] } :=
      h₁.mono rfl (fun _ h => h) (by simp) le_rfl
    exact h₂.establish hc ht (by simp)

theorem handleNewConn (hI : AttemptInv c) (a : SocketAddr) :
    AttemptInv (QuicP2p.handleNewConn c a) := by
  by_cases hbusy : ∃ conn, c.connections a = some conn ∧ conn.fromPeer ≠ .noConnection
  · obtain ⟨conn, hc, hf⟩ := hbusy
    rw [handleNewConn_of_busy hc hf]
    exact hI.mono rfl (fun _ h => h) (List.Sublist.refl _) (Nat.le_succ _)
  set conn := (c.connections a).getD (Connection.new false none c.nextId) with hconn
  have hf : conn.fromPeer = .noConnection := by
    cases hc : c.connections a with
    | none => simp [hconn, hc, Connection.new]
    | some conn' => simpa [hconn, hc] using fun h => hbusy ⟨conn', hc, h⟩
  refine hI.of_update (handleNewConn_connections_of_free hconn.symm hf)
    (fun m hm => (mem_handleNewConn_members_of_free hconn.symm hf hm).1) (by simp) (by simp)
    ?_ ?_ ?_
  · intro m hm ha
    obtain ⟨hm, hfire⟩ := mem_handleNewConn_members_of_free hconn.symm hf hm
    obtain ⟨conn', hc', hr⟩ := hI.member_ref m hm
    rw [ha] at hc'
    have : conn = conn' := by simp [hconn, hc']
    subst this
    refine ⟨_, rfl, ?_⟩
    by_cases he : conn.toPeer.isEstablished
    · exact absurd ha (hfire he hr)
    · simp [inboundRecord, he, hr]
  · intro l hl ha conn' cert ps ho ht
    cases ho
    simp only [handleNewConn_leaves] at hl
    cases hc : c.connections a with
    | none => simp [hconn, hc, inboundRecord, Connection.new] at ht
    | some conn₀ =>
      have : conn = conn₀ := by simp [hconn, hc]
      subst this
      exact hI.initiated_cert l hl conn cert ps (ha ▸ hc) ht
  · intro l hl ha m hm hk
    simp only [handleNewConn_leaves] at hl
    obtain ⟨-, conn', ps, hc', ht⟩ :=
      hI.member_initiated l hl m (mem_handleNewConn_members_of_free hconn.symm hf hm).1 hk
    rw [ha] at hc'
    have : conn = conn' := by simp [hconn, hc']
    subst this
    exact ⟨_, ps, rfl, ht⟩

theorem readFromPeer (hI : AttemptInv c) (a : SocketAddr) (q : QConn) (msg : WireMsg) :
    AttemptInv (QuicP2p.readFromPeer c a q msg) := by
  cases hc : c.connections a with
  | none => rw [readFromPeer_of_none hc]; exact hI
  | some conn =>
    cases hr : conn.ready
    · rw [readFromPeer_of_not_ready hc hr]
      refine hI.of_update rfl (fun _ h => h) (List.Sublist.refl _) le_rfl ?_ ?_ ?_
      · intro m hm ha
        obtain ⟨conn', hc', hr'⟩ := hI.member_ref m hm
        rw [ha, hc] at hc'
        cases hc'
        exact ⟨_, rfl, hr'⟩
      · intro l hl ha conn' cert ps ho ht
        cases ho
        exact hI.initiated_cert l hl conn cert ps (ha ▸ hc) ht
      · intro l hl ha m hm hk
        obtain ⟨-, conn', ps, hc', ht⟩ := hI.member_initiated l hl m hm hk
        rw [ha, hc] at hc'
        cases hc'
        exact ⟨_, ps, rfl, ht⟩
    · rw [readFromPeer_of_ready hc hr]
      exact hI.mono rfl (fun _ h => h) (List.Sublist.refl _) le_rfl

/-- **Every step keeps the invariant.** -/
theorem step (hI : AttemptInv c) {l : Label} (h : QuicP2p.step env c l = .ok c') : AttemptInv c' := by
  cases l with
  | connectTo peerInfo m =>
    obtain ⟨r, h⟩ := step_connectTo h
    exact hI.connectTo h
  | bootstrap proxies m =>
    exact bootstrap_induction AttemptInv (hI.mono rfl (fun _ h => h) (List.Sublist.refl _)
      (Nat.le_succ _)) (fun _ _ _ _ _ h₁ h₂ => h₁.connectTo h₂) h
  | send peer msg =>
    rcases step_send h with ⟨a, conn, k, cert, ps, hc, ht, rfl⟩ | ⟨a, q, rfl⟩ | ⟨info, r, -, h⟩ | rfl
    · exact hI.queue _ hc ht
    · exact hI.mono rfl (fun _ h => h) (List.Sublist.refl _) le_rfl
    · exact hI.connectTo h
    · exact hI
  | disconnectFrom a => cases h; exact hI.removeConnection a none
  | terminator k =>
    rcases step_terminator h with rfl | ⟨-, -, -, -, rfl⟩ | ⟨l, -, -, rfl, -⟩
    · exact hI
    · exact hI.dropLeaf k
    · exact (hI.dropLeaf k).removeConnection _ _
  | handshake k ok =>
    rcases step_handshake h with rfl | ⟨l, hl, rfl, -, ha, h, -⟩
    · exact hI
    · exact hI.handshake hl ha h
  | driverFailed q =>
    rcases step_driverFailed h with rfl | ⟨d, -, -, rfl, -⟩
    · exact hI
    · have h₁ : AttemptInv { c with drivers := c.drivers.filter (·.qConn ≠ q) } :=
        hI.mono rfl (fun _ h => h) (List.Sublist.refl _) le_rfl
      exact h₁.removeConnection _ _
  | incoming a =>
    rcases step_incoming h with rfl | ⟨-, rfl⟩
    · exact hI
    · exact hI.handleNewConn a
  | read q msg =>
    rcases step_read h with rfl | ⟨r, -, rfl⟩
    · exact hI
    · exact hI.readFromPeer _ _ _
  | readFailed q e =>
    rcases step_readFailed h with rfl | ⟨r, -, rfl, -⟩
    · exact hI
    · exact hI.removeConnection _ _
  | writeFailed q e =>
    rcases step_writeFailed h with rfl | ⟨w, -, rfl, -⟩
    · exact hI
    · have h₁ : AttemptInv { c with writers := c.writers.erase w } :=
        hI.mono rfl (fun _ h => h) (List.Sublist.refl _) le_rfl
      exact h₁.removeConnection _ _

end AttemptInv

theorem Reachable.attemptInv {env : Env} {c : Context} (hc : Reachable env c) : AttemptInv c :=
  hc.invariant AttemptInv.init fun _ _ _ _ hI h => hI.step h

/-- The leaf of a terminator is the only one: `find?` picks it. -/
theorem AttemptInv.find?_leaf {c : Context} (hI : AttemptInv c) {l : Leaf} (hl : l ∈ c.leaves) :
    c.leaves.find? (·.terminator = l.terminator) = some l := by
  cases hf : c.leaves.find? (·.terminator = l.terminator) with
  | none => simpa using List.find?_eq_none.1 hf l hl
  | some l' =>
    have hk : l'.terminator = l.terminator := by simpa using List.find?_some hf
    rw [List.inj_on_of_nodup_map hI.leaves_nodup (List.mem_of_find?_eq_some hf) hl hk]

/-- What the completion of attempt `l`'s handshake does: the record for its
address holds the `Initiated` the attempt installed, with the certificate its
config came from; the step does not panic, and it commits `Established` with
that certificate, reports it in the success event if one fires, and caches it
if we dialled. -/
def CompletesOwnAttempt (env : Env) (c : Context) (l : Leaf) : Prop :=
  ∃ conn ps c', c.connections l.peerAddr = some conn ∧
    conn.toPeer = .initiated l.terminator l.peerCertDer ps ∧
    step env c (.handshake l.terminator true) = .ok c' ∧
    c'.connections l.peerAddr = some (establishedRecord conn l.peerCertDer c.nextId) ∧
    c'.events = c.events ++ (if conn.fromPeer.isReady then
        [(conn.lifetime, conn.successEvent ⟨l.peerAddr, l.peerCertDer⟩)] else []) ++
      conn.fromPeer.pendingReads.flatMap
        (dispatchedEvents conn.lifetime (.node ⟨l.peerAddr, l.peerCertDer⟩)) ∧
    c'.bootstrapCache = if conn.weContactedPeer then
        addPeer env.bootstrapCacheCapacity ⟨l.peerAddr, l.peerCertDer⟩ c.bootstrapCache
      else c.bootstrapCache

/-- **A handshake completes against its own attempt.** In every reachable
context, the handshake of an attempt whose terminator holds no signal and
still has a live sender finds the record that attempt installed. -/
theorem handshake_completes_own_attempt {env : Env} {c : Context} (hc : Reachable env c)
    {l : Leaf} (hl : l ∈ c.leaves) (hs : l.terminator ∉ c.signalled) (ha : c.senderAlive l) :
    CompletesOwnAttempt env c l := by
  have hI := hc.attemptInv
  obtain ⟨conn, ps, hconn, ht⟩ := hI.initiated_of_senderAlive hl ha
  have hstep : step env c (.handshake l.terminator true) = .ok (establish env
      { c.dropLeaf l.terminator with
        nextId := c.nextId + 1, drivers := c.drivers ++ [⟨l.peerAddr, c.nextId, true⟩] }
      l.peerAddr conn l.peerCertDer ps c.nextId) := by
    simp only [step, hI.find?_leaf hl, hs, ha, not_false_eq_true, and_self, if_true]
    exact handleNewConnectionRes_of_initiated hconn ht
  exact ⟨conn, ps, _, hconn, ht, hstep, by simp, by simp [establish_events],
    by simp [establish_bootstrapCache]⟩

theorem handshake_completes_own_attempt_first :
    let env : Env := ⟨.node, [9], fun d => !d.isEmpty, fun _ => true, 64⟩
    ∃ c, Reachable env c ∧ ⟨1, 0, [1]⟩ ∈ c.leaves ∧ 0 ∉ c.signalled ∧
      c.senderAlive ⟨1, 0, [1]⟩ ∧ CompletesOwnAttempt env c ⟨1, 0, [1]⟩ := by
  intro env
  have hc : Reachable env _ := .step (.connectTo ⟨1, [1]⟩ none) .init rfl
  exact ⟨_, hc, by decide, by decide, by decide,
    handshake_completes_own_attempt hc (by decide) (by decide) (by decide)⟩

end QuicP2p
