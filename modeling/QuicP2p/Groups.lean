/-
# A Client's bootstrap groups

A bootstrap makes one group of `connect_to` attempts (§4.1); the first member
to come up calls `terminate_group(true)`, which fires the terminators of the
others (§4.5). On a Client a record comes up only at the handshake of its own
attempt, its inbound half being `NotNeeded`, and a handshake resolves only
while its terminator holds no signal. `GroupInv` says that an attempt still
`Initiated` in a group is the group's member while the group is open, and has
its terminator fired once the group is finished; so no member of a finished
group comes up, and each group sends one `BootstrappedTo` at most. Over a
whole run the event channel holds one `BootstrappedTo` per finished group.

On a Node a record also comes up when its inbound session arrives, which no
terminator guards.

Key definitions: `Context.Pending`, `Context.HasRef`, `GroupInv`.
Key theorems: `GroupInv.step`, `step_comes_up`, `client_comes_up_open`,
`client_step_finishedGroups`.
-/
import QuicP2p.Attempt
import QuicP2p.Client
import QuicP2p.Events

namespace QuicP2p

/-- The record at `a` holds the `Initiated` half of attempt `k` and a ref of
group `g`. -/
def Context.Pending (c : Context) (a : SocketAddr) (k g : ℕ) : Prop :=
  ∃ conn cert ps, c.connections a = some conn ∧ conn.toPeer = .initiated k cert ps ∧
    conn.bootstrapGroupRef = some g

/-- Some record holds a ref of group `g`. -/
def Context.HasRef (c : Context) (g : ℕ) : Prop :=
  ∃ a conn, c.connections a = some conn ∧ conn.bootstrapGroupRef = some g

/-! ### Finished groups stay finished -/

section finished

variable {env : Env} {c c' : Context}

theorem connectTo_finishedGroups {peerInfo : NodeInfo} {m : Option WireMsg} {g : Option ℕ}
    {r : Except Error Unit} (h : connectTo env c peerInfo m g = .ok (c', r)) :
    c'.finishedGroups = c.finishedGroups := by
  rcases connectTo_cases h with ⟨-, rfl⟩ | rfl | ⟨-, rfl | ⟨-, rfl⟩⟩ <;> simp

theorem handleConnectErr_finishedGroups (a : SocketAddr) (e : Error) :
    (handleConnectErr c a e).finishedGroups = c.finishedGroups := by
  rcases handleConnectErr_eq c a e with h | h <;> simp [h]

theorem bootstrap_finishedGroups {proxies : List NodeInfo} {m : Option WireMsg}
    (h : bootstrap env c proxies m = .ok c') : c'.finishedGroups = c.finishedGroups :=
  bootstrap_induction (fun c₁ => c₁.finishedGroups = c.finishedGroups) rfl
    (fun _ _ _ _ _ h₁ h₂ => (connectTo_finishedGroups h₂).trans h₁) h

/-- **A finished group stays finished**, across any step. -/
theorem step_finishedGroups_subset {l : Label} (h : step env c l = .ok c') :
    ∀ g ∈ c.finishedGroups, g ∈ c'.finishedGroups := by
  intro g hg
  cases l with
  | connectTo peerInfo m =>
    obtain ⟨r, h⟩ := step_connectTo h
    rwa [connectTo_finishedGroups h]
  | bootstrap proxies m => rwa [bootstrap_finishedGroups h]
  | send peer msg =>
    rcases step_send h with ⟨a, conn, k, cert, ps, -, -, rfl⟩ | ⟨a, q, rfl⟩ | ⟨info, r, -, h⟩ | rfl
    · exact hg
    · exact hg
    · rwa [connectTo_finishedGroups h]
    · exact hg
  | disconnectFrom a => cases h; exact hg
  | terminator k =>
    rcases step_terminator h with rfl | ⟨-, -, -, -, rfl⟩ | ⟨l, -, -, rfl, -⟩ <;> exact hg
  | handshake k ok =>
    rcases step_handshake h with rfl | ⟨l, -, -, -, -, h, -⟩
    · exact hg
    rcases handleNewConnectionRes_cases h with ⟨e, -, rfl⟩ | ⟨q, -, -, rfl⟩ | ⟨q, -, -, -, -, -, -, -, rfl⟩
    · rw [handleConnectErr_finishedGroups]; exact hg
    · exact hg
    · exact (mem_establish_finishedGroups_iff _ _ _ _ _ _ _).2 (.inl hg)
  | driverFailed q => rcases step_driverFailed h with rfl | ⟨d, -, -, rfl, -⟩ <;> exact hg
  | incoming a =>
    rcases step_incoming h with rfl | ⟨-, rfl⟩
    · exact hg
    · exact mem_handleNewConn_finishedGroups_of_mem hg
  | read q msg =>
    rcases step_read h with rfl | ⟨r, -, rfl⟩ <;> simpa
  | readFailed q e => rcases step_readFailed h with rfl | ⟨r, -, rfl, -⟩ <;> exact hg
  | writeFailed q e => rcases step_writeFailed h with rfl | ⟨w, -, rfl, -⟩ <;> exact hg

end finished

/-! ### Where a record comes up -/

section comesUp

variable {env : Env} {c c' : Context}

/-- The records a handshake's result leaves at other addresses. -/
theorem handleNewConnectionRes_connections_of_ne {a b : SocketAddr} {res : Except Error QConn}
    (h : handleNewConnectionRes env c a res = .ok c') (hb : b ≠ a) :
    c'.connections b = c.connections b := by
  rcases handleNewConnectionRes_cases h with ⟨e, -, rfl⟩ | ⟨q, -, -, rfl⟩ |
    ⟨q, conn, k, cert, ps, -, -, -, rfl⟩
  · rcases handleConnectErr_eq c a e with he | he <;> simp [he, Function.update_noteq hb]
  · rfl
  · simp [Function.update_noteq hb]

/-- **Only a handshake or an inbound session brings a record up.** A record
that is not up before a step and is up after it is at the address of a leaf
whose handshake resolved in the step, its terminator holding no signal and a
sender alive; or the step is an inbound session from its address, on a Node. -/
theorem step_comes_up {l : Label} {a : SocketAddr} {conn conn' : Connection}
    (h : step env c l = .ok c') (hc : c.connections a = some conn) (hc' : c'.connections a = some conn')
    (hr : conn.ready = false) (hr' : conn'.ready) :
    (∃ leaf ∈ c.leaves, leaf.peerAddr = a ∧ leaf.terminator ∉ c.signalled ∧ c.senderAlive leaf) ∨
      env.ourType = .node ∧ l = .incoming a := by
  have same : c'.connections a = c.connections a → False := fun he => by
    rw [he, hc, Option.some.injEq] at hc'; subst hc'
    rw [hr] at hr'; cases hr'
  have kept : ReadyKept c c' → False := fun hk => same ((hk a conn' hc' hr').trans hc'.symm).symm
  cases l with
  | connectTo peerInfo m =>
    obtain ⟨r, h⟩ := step_connectTo h
    exact (kept (connectTo_readyKept h)).elim
  | bootstrap proxies m => exact (kept (bootstrap_readyKept h)).elim
  | send peer msg =>
    refine (kept ?_).elim
    rcases step_send h with ⟨b, conn₀, k, cert, ps, -, -, rfl⟩ | ⟨b, q, rfl⟩ | ⟨info, r, -, h⟩ | rfl
    · exact .update rfl (by simp [Connection.ready, ToPeer.isEstablished])
    · exact .of_sub fun _ _ h => h
    · exact connectTo_readyKept h
    · exact .of_sub fun _ _ h => h
  | disconnectFrom b =>
    cases h; exact (kept (.of_sub fun _ _ h' => (removeConnection_sub h' :))).elim
  | terminator k =>
    refine (kept (.of_sub fun _ _ h' => ?_)).elim
    rcases step_terminator h with rfl | ⟨-, -, -, -, rfl⟩ | ⟨l, -, -, rfl, -⟩
    · exact h'
    · exact h'
    · exact (removeConnection_sub h' :)
  | handshake k ok =>
    rcases step_handshake h with rfl | ⟨leaf, hl, rfl, hk, ha, h, -⟩
    · exact (kept (.of_sub fun _ _ h => h)).elim
    by_cases hla : a = leaf.peerAddr
    · exact .inl ⟨leaf, hl, hla.symm, hk, ha⟩
    · exact (same (handleNewConnectionRes_connections_of_ne h hla :)).elim
  | driverFailed q =>
    refine (kept (.of_sub fun _ _ h' => ?_)).elim
    rcases step_driverFailed h with rfl | ⟨d, -, -, rfl, -⟩
    · exact h'
    · exact (removeConnection_sub h' :)
  | incoming b =>
    rcases step_incoming h with rfl | ⟨ho, rfl⟩
    · exact (kept (.of_sub fun _ _ h => h)).elim
    by_cases hba : b = a
    · exact .inr ⟨ho, hba ▸ rfl⟩
    · refine (same ?_).elim
      rcases handleNewConn_busy_or_free c b with ⟨conn₀, hc₀, hf⟩ | ⟨conn₀, hconn, hf⟩
      · rw [handleNewConn_of_busy hc₀ hf]
      · rw [handleNewConn_connections_of_free hconn hf, Function.update_noteq (Ne.symm hba)]
  | read q msg =>
    refine (kept ?_).elim
    rcases step_read h with rfl | ⟨r, -, rfl⟩
    · exact .of_sub fun _ _ h => h
    · exact readFromPeer_readyKept _ _ _
  | readFailed q e =>
    refine (kept (.of_sub fun _ _ h' => ?_)).elim
    rcases step_readFailed h with rfl | ⟨r, -, rfl, -⟩
    · exact h'
    · exact (removeConnection_sub h' :)
  | writeFailed q e =>
    refine (kept (.of_sub fun _ _ h' => ?_)).elim
    rcases step_writeFailed h with rfl | ⟨w, -, rfl, -⟩
    · exact h'
    · exact (removeConnection_sub h' :)

end comesUp

/-! ### The invariant -/

/-- A record of a table with the record for `a` stored: the stored one, or one
the table had at another address. -/
theorem update_eq_some {f : SocketAddr → Option Connection} {a b : SocketAddr} {x y : Connection}
    (h : Function.update f a (some x) b = some y) : b = a ∧ y = x ∨ b ≠ a ∧ f b = some y := by
  by_cases hb : b = a
  · subst hb; rw [Function.update_same, Option.some.injEq] at h; exact .inl ⟨rfl, h.symm⟩
  · rw [Function.update_noteq hb] at h; exact .inr ⟨hb, h⟩

/-- What the groups of a Client keep. -/
structure GroupInv (c : Context) : Prop where
  /-- A finished group was made before. -/
  finished_lt : ∀ g ∈ c.finishedGroups, g < c.nextId
  /-- A group a record refers to was made before. -/
  ref_lt : ∀ g, c.HasRef g → g < c.nextId
  /-- An attempt of an open group is its member. -/
  member_of_open : ∀ a k g, c.Pending a k g → g ∉ c.finishedGroups → ⟨g, a, k⟩ ∈ c.members
  /-- An attempt of a finished group has its terminator fired. -/
  signalled_of_finished : ∀ a k g, c.Pending a k g → g ∈ c.finishedGroups → k ∈ c.signalled

namespace GroupInv

variable {env : Env} {c c' : Context}

theorem init : GroupInv .init where
  finished_lt := by simp [Context.init]
  ref_lt := fun _ ⟨_, _, h, _⟩ => by cases h
  member_of_open := fun _ _ _ ⟨_, _, _, h, _⟩ => by cases h
  signalled_of_finished := fun _ _ _ ⟨_, _, _, h, _⟩ => by cases h

/-- A step that keeps the groups and the fired terminators, drops records with
their members, and changes no record's attempt or ref. -/
theorem of_frame (hG : GroupInv c) (hn : c.nextId ≤ c'.nextId)
    (hf : c'.finishedGroups = c.finishedGroups) (hs : c'.signalled = c.signalled)
    (hsub : ∀ b conn', c'.connections b = some conn' → ∃ conn, c.connections b = some conn ∧
      conn.toPeer.terminator? = conn'.toPeer.terminator? ∧
      conn.bootstrapGroupRef = conn'.bootstrapGroupRef)
    (hm : ∀ m ∈ c.members, c'.connections m.peerAddr ≠ none → m ∈ c'.members) : GroupInv c' := by
  have hP : ∀ a k g, c'.Pending a k g → c.Pending a k g ∧ c'.connections a ≠ none :=
    fun a k g ⟨conn', cert, ps, hc', ht, hg⟩ => by
      obtain ⟨conn, hc, ht', hg'⟩ := hsub a conn' hc'
      obtain ⟨cert₀, ps₀, ht₀⟩ := ToPeer.terminator?_eq_some.1 (ht'.trans (by rw [ht]; rfl))
      exact ⟨⟨conn, cert₀, ps₀, hc, ht₀, hg'.trans hg⟩, by simp [hc']⟩
  refine ⟨fun g h => ?_, fun g ⟨b, conn', hc', hg⟩ => ?_, fun a k g h hg => ?_,
    fun a k g h hg => ?_⟩
  · exact Nat.lt_of_lt_of_le (hG.finished_lt g (hf ▸ h)) hn
  · obtain ⟨conn, hc, -, hg'⟩ := hsub b conn' hc'
    exact Nat.lt_of_lt_of_le (hG.ref_lt g ⟨b, conn, hc, hg'.trans hg⟩) hn
  · exact hm _ (hG.member_of_open a k g (hP a k g h).1 (hf ▸ hg)) (hP a k g h).2
  · exact hs ▸ hG.signalled_of_finished a k g (hP a k g h).1 (hf ▸ hg)

/-- A change of nothing the invariant reads but a raise of the counter. -/
theorem of_eq (hG : GroupInv c) (hn : c.nextId ≤ c'.nextId) (hc : c'.connections = c.connections)
    (hm : c'.members = c.members) (hf : c'.finishedGroups = c.finishedGroups)
    (hs : c'.signalled = c.signalled) : GroupInv c' :=
  hG.of_frame hn hf hs (fun _ conn' h => ⟨conn', hc ▸ h, rfl, rfl⟩) fun _ h _ => hm ▸ h

theorem removeConnection (hG : GroupInv c) (a : SocketAddr) (cause : Option Error) :
    GroupInv (c.removeConnection a cause) := by
  refine hG.of_frame (Nat.le_refl _) rfl rfl (fun b conn' h => ⟨conn', removeConnection_sub h, rfl, rfl⟩)
    fun m hm hne => List.mem_filter.2 ⟨hm, ?_⟩
  have ha : m.peerAddr ≠ a := fun he => hne (by simp [he])
  simp [ha]

theorem handleConnectErr (hG : GroupInv c) (a : SocketAddr) (e : Error) :
    GroupInv (QuicP2p.handleConnectErr c a e) := by
  rcases handleConnectErr_eq c a e with h | h <;> rw [h]
  · exact hG
  · exact hG.removeConnection a _

/-- `connect_to` installs on a missing record, joining an open group or none. -/
theorem installed (hG : GroupInv c) {peerInfo : NodeInfo} {m : Option WireMsg} {g : Option ℕ}
    (ha : c.connections peerInfo.peerAddr = none)
    (hg : ∀ g₀, g = some g₀ → g₀ < c.nextId ∧ g₀ ∉ c.finishedGroups) :
    GroupInv (QuicP2p.installed env c peerInfo m g) := by
  have hrec : ∀ b conn', (QuicP2p.installed env c peerInfo m g).connections b = some conn' →
      b = peerInfo.peerAddr ∧ conn' = initiatedRecord env c peerInfo m g ∨
        b ≠ peerInfo.peerAddr ∧ c.connections b = some conn' :=
    fun _ _ h => update_eq_some (by rwa [installed_connections] at h)
  have href : (initiatedRecord env c peerInfo m g).bootstrapGroupRef = g := by
    simp [initiatedRecord_bootstrapGroupRef, ha]
  refine ⟨fun g' h => ?_, fun g' ⟨b, conn', hc', hg'⟩ => ?_,
    fun b k g' ⟨conn', cert, ps, hc', ht, hg'⟩ hf => ?_, fun b k g' ⟨conn', cert, ps, hc', ht, hg'⟩ hf => ?_⟩
  · simp only [installed_finishedGroups, installed_nextId] at h ⊢
    exact Nat.lt_succ_of_lt (hG.finished_lt g' h)
  · simp only [installed_nextId]
    rcases hrec b conn' hc' with ⟨-, rfl⟩ | ⟨-, hc⟩
    · exact Nat.lt_succ_of_lt (hg g' (href ▸ hg')).1
    · exact Nat.lt_succ_of_lt (hG.ref_lt g' ⟨b, conn', hc, hg'⟩)
  · simp only [installed_finishedGroups] at hf
    rcases hrec b conn' hc' with ⟨rfl, rfl⟩ | ⟨hb, hc⟩
    · simp only [initiatedRecord_toPeer, ToPeer.initiated.injEq] at ht
      rw [← ht.1]
      exact mem_installed_members_of_none _ _ _ _ _ ha (href.symm.trans hg') hf
    · exact mem_installed_members_of_ne _ _ _ _ _
        (hG.member_of_open b k g' ⟨conn', cert, ps, hc, ht, hg'⟩ hf) hb
  · simp only [installed_finishedGroups, installed_signalled] at hf ⊢
    rcases hrec b conn' hc' with ⟨rfl, rfl⟩ | ⟨-, hc⟩
    · exact ((hg g' (href ▸ hg')).2 hf).elim
    · exact hG.signalled_of_finished b k g' ⟨conn', cert, ps, hc, ht, hg'⟩ hf

/-- `connect_to` among a Client's records, joining an open group or none. -/
theorem connectTo (hC : c.AllRecords ClientRecord) (hG : GroupInv c) {peerInfo : NodeInfo}
    {m : Option WireMsg} {g : Option ℕ} {r : Except Error Unit}
    (hg : ∀ g₀, g = some g₀ → g₀ < c.nextId ∧ g₀ ∉ c.finishedGroups)
    (h : QuicP2p.connectTo env c peerInfo m g = .ok (c', r)) : GroupInv c' := by
  rcases connectTo_cases h with ⟨-, rfl⟩ | rfl | ⟨hfree, rfl | ⟨-, rfl⟩⟩
  · exact hG.removeConnection _ _
  · exact hG
  all_goals
    have ha : c.connections peerInfo.peerAddr = none := by
      cases hc : c.connections peerInfo.peerAddr with
      | none => rfl
      | some conn => exact ((hC _ _ hc).2 (hfree conn hc).1).elim
  · exact (hG.installed ha hg).of_eq (Nat.le_refl _) rfl rfl rfl rfl
  · exact (hG.installed ha hg).removeConnection _ _

/-- A bootstrap among a Client's records: its group is new. -/
theorem bootstrap (henv : env.ourType = .client) (hC : c.AllRecords ClientRecord) (hG : GroupInv c)
    {proxies : List NodeInfo} {m : Option WireMsg} (h : QuicP2p.bootstrap env c proxies m = .ok c') :
    GroupInv c' := by
  have hnew : c.nextId ∉ c.finishedGroups := fun h => Nat.lt_irrefl _ (hG.finished_lt _ h)
  refine (bootstrap_induction (fun c₁ => c₁.AllRecords ClientRecord ∧ GroupInv c₁ ∧
      c.nextId < c₁.nextId ∧ c₁.finishedGroups = c.finishedGroups)
    ⟨hC.of_connections rfl, hG.of_eq (Nat.le_succ _) rfl rfl rfl rfl, Nat.lt_succ_self _, rfl⟩
    ?_ h).2.1
  rintro c₁ c₂ info r - ⟨hC₁, hG₁, hn, hf⟩ h₂
  refine ⟨ClientRecord.connectTo henv hC₁ h₂, hG₁.connectTo hC₁ (fun g₀ hg => ?_) h₂,
    Nat.lt_of_lt_of_le hn (connectTo_nextId_le h₂), (connectTo_finishedGroups h₂).trans hf⟩
  cases hg
  exact ⟨hn, hf ▸ hnew⟩

/-- `handle_new_connection_res` on an `Initiated` record: the terminators of the
members of the group it finishes, at other addresses, fire. -/
theorem establish (hG : GroupInv c) {a : SocketAddr} {conn : Connection} {cert : CertDer}
    {ps : List WireMsg} {q : QConn} (hc : c.connections a = some conn) :
    GroupInv (QuicP2p.establish env c a conn cert ps q) := by
  have hrec : ∀ b conn', (QuicP2p.establish env c a conn cert ps q).connections b = some conn' →
      b = a ∧ conn' = establishedRecord conn cert q ∨ b ≠ a ∧ c.connections b = some conn' :=
    fun _ _ h => update_eq_some (by rwa [establish_connections] at h)
  have hpend : ∀ b k' g, (QuicP2p.establish env c a conn cert ps q).Pending b k' g →
      b ≠ a ∧ c.Pending b k' g := fun b k' g ⟨conn', cert', ps', hc', ht', hg⟩ => by
    rcases hrec b conn' hc' with ⟨-, rfl⟩ | ⟨hb, hc⟩
    · simp at ht'
    · exact ⟨hb, conn', cert', ps', hc, ht', hg⟩
  refine ⟨fun g h => ?_, fun g ⟨b, conn', hc', hg⟩ => ?_, fun b k' g h hf => ?_,
    fun b k' g h hf => ?_⟩
  · rw [establish_nextId]
    rcases (mem_establish_finishedGroups_iff _ _ _ _ _ _ _).1 h with h | ⟨-, hg⟩
    · exact hG.finished_lt g h
    · exact hG.ref_lt g ⟨a, conn, hc, hg⟩
  · rw [establish_nextId]
    rcases hrec b conn' hc' with ⟨-, rfl⟩ | ⟨-, hc'⟩
    · refine hG.ref_lt g ⟨a, conn, hc, ?_⟩
      by_cases hr : conn.fromPeer.isReady <;> simp_all [establishedRecord]
    · exact hG.ref_lt g ⟨b, conn', hc', hg⟩
  · obtain ⟨-, hp⟩ := hpend b k' g h
    rw [mem_establish_finishedGroups_iff, not_or] at hf
    exact mem_establish_members_of_ne _ _ _ _ _ _ _ (hG.member_of_open b k' g hp hf.1)
      fun hr hg => hf.2 ⟨hr, hg⟩
  · obtain ⟨hb, hp⟩ := hpend b k' g h
    rcases (mem_establish_finishedGroups_iff _ _ _ _ _ _ _).1 hf with hf | ⟨hr, hg⟩
    · exact mem_establish_signalled_of_mem _ _ _ _ _ _ _ (hG.signalled_of_finished b k' g hp hf)
    by_cases hf' : g ∈ c.finishedGroups
    · exact mem_establish_signalled_of_mem _ _ _ _ _ _ _ (hG.signalled_of_finished b k' g hp hf')
    · exact mem_establish_signalled _ _ _ _ _ _ _ (hG.member_of_open b k' g hp hf') hr hg hb hf'

theorem handleNewConnectionRes (hG : GroupInv c) {a : SocketAddr} {res : Except Error QConn}
    (h : QuicP2p.handleNewConnectionRes env c a res = .ok c') : GroupInv c' := by
  rcases handleNewConnectionRes_cases h with ⟨e, -, rfl⟩ | ⟨q, -, -, rfl⟩ |
    ⟨q, conn, k, cert, ps, -, hc, -, rfl⟩
  · exact hG.handleConnectErr a e
  · exact hG.of_eq (Nat.le_refl _) rfl rfl rfl rfl
  · have h₁ : GroupInv { c with drivers := c.drivers ++ [⟨a, q, true⟩] } :=
      hG.of_eq (Nat.le_refl _) rfl rfl rfl rfl
    exact h₁.establish hc

theorem readFromPeer (hG : GroupInv c) (a : SocketAddr) (q : QConn) (msg : WireMsg) :
    GroupInv (QuicP2p.readFromPeer c a q msg) := by
  cases hc : c.connections a with
  | none => rw [readFromPeer_of_none hc]; exact hG
  | some conn =>
    cases hr : conn.ready
    · rw [readFromPeer_of_not_ready hc hr]
      refine hG.of_frame (Nat.le_refl _) rfl rfl (fun b conn' h => ?_) fun _ h _ => h
      rcases update_eq_some h with ⟨rfl, rfl⟩ | ⟨-, h⟩
      · exact ⟨conn, hc, rfl, rfl⟩
      · exact ⟨conn', h, rfl, rfl⟩
    · rw [readFromPeer_of_ready hc hr]
      exact hG.of_eq (Nat.le_refl _) rfl rfl rfl rfl

/-- **Every step of a Client keeps `GroupInv`.** -/
theorem step (henv : env.ourType = .client) (hC : c.AllRecords ClientRecord) (hG : GroupInv c)
    {l : Label} (h : QuicP2p.step env c l = .ok c') : GroupInv c' := by
  cases l with
  | connectTo peerInfo m =>
    obtain ⟨r, h⟩ := step_connectTo h
    exact hG.connectTo hC (fun _ hg => by cases hg) h
  | bootstrap proxies m => exact hG.bootstrap henv hC h
  | send peer msg =>
    rcases step_send h with ⟨a, conn, k, cert, ps, hc, ht, rfl⟩ | ⟨a, q, rfl⟩ | ⟨info, r, -, h⟩ | rfl
    · refine hG.of_frame (Nat.le_refl _) rfl rfl (fun b conn' h => ?_) fun _ h _ => h
      rcases update_eq_some h with ⟨rfl, rfl⟩ | ⟨-, h⟩
      · exact ⟨conn, hc, by simp [ht, ToPeer.terminator?], rfl⟩
      · exact ⟨conn', h, rfl, rfl⟩
    · exact hG.of_eq (Nat.le_refl _) rfl rfl rfl rfl
    · exact hG.connectTo hC (fun _ hg => by cases hg) h
    · exact hG
  | disconnectFrom a => cases h; exact hG.removeConnection a none
  | terminator k =>
    rcases step_terminator h with rfl | ⟨-, -, -, -, rfl⟩ | ⟨l, -, -, rfl, -⟩
    · exact hG
    · exact hG.of_eq (Nat.le_refl _) rfl rfl rfl rfl
    · have h₁ : GroupInv (c.dropLeaf k) := hG.of_eq (Nat.le_refl _) rfl rfl rfl rfl
      exact h₁.removeConnection _ _
  | handshake k ok =>
    rcases step_handshake h with rfl | ⟨l, -, -, -, -, h, -⟩
    · exact hG
    · have h₁ : GroupInv { c.dropLeaf k with nextId := c.nextId + 1 } :=
        hG.of_eq (Nat.le_succ _) rfl rfl rfl rfl
      exact h₁.handleNewConnectionRes h
  | driverFailed q =>
    rcases step_driverFailed h with rfl | ⟨d, -, -, rfl, -⟩
    · exact hG
    · have h₁ : GroupInv { c with drivers := c.drivers.filter (·.qConn ≠ q) } :=
        hG.of_eq (Nat.le_refl _) rfl rfl rfl rfl
      exact h₁.removeConnection _ _
  | incoming a =>
    rcases step_incoming h with rfl | ⟨ho, -⟩
    · exact hG
    · rw [henv] at ho; cases ho
  | read q msg =>
    rcases step_read h with rfl | ⟨r, -, rfl⟩
    · exact hG
    · exact hG.readFromPeer _ _ _
  | readFailed q e =>
    rcases step_readFailed h with rfl | ⟨r, -, rfl, -⟩
    · exact hG
    · exact hG.removeConnection _ _
  | writeFailed q e =>
    rcases step_writeFailed h with rfl | ⟨w, -, rfl, -⟩
    · exact hG
    · have h₁ : GroupInv { c with writers := c.writers.erase w } :=
        hG.of_eq (Nat.le_refl _) rfl rfl rfl rfl
      exact h₁.removeConnection _ _

end GroupInv

/-- In every reachable context of a Client, every record is a Client's and
`GroupInv` holds. -/
theorem Reachable.groupInv {env : Env} {c : Context} (henv : env.ourType = .client)
    (hc : Reachable env c) : c.AllRecords ClientRecord ∧ GroupInv c :=
  @Reachable.invariant env (fun c => c.AllRecords ClientRecord ∧ GroupInv c)
    ⟨fun _ _ h => (by cases h), GroupInv.init⟩
    (fun _ _ _ _ hI h => ⟨ClientRecord.step henv hI.1 h, hI.2.step henv hI.1 h⟩) c hc

/-! ### One `BootstrappedTo` per group -/

/-- Whether an event is a `BootstrappedTo`. -/
def Event.isBootstrapped : Event → Bool
  | .bootstrappedTo _ => true
  | _ => false

theorem Event.isSuccess_of_isBootstrapped {e : Event} (h : e.isBootstrapped) : e.isSuccess := by
  cases e <;> simp_all [Event.isBootstrapped, Event.isSuccess]

/-- A success event is `BootstrappedTo` exactly when the record holds a group ref. -/
theorem Connection.isBootstrapped_successEvent (conn : Connection) (nodeInfo : NodeInfo) :
    (conn.successEvent nodeInfo).isBootstrapped = conn.bootstrapGroupRef.isSome := by
  unfold Connection.successEvent; split <;> simp_all [Event.isBootstrapped]

section client

variable {env : Env} {c c' : Context} {l : Label} (henv : env.ourType = .client)
include henv

/-- On a Client, a record that comes up holds no ref of a finished group: it
comes up at its own handshake, whose terminator holds no signal, and the
terminators of a finished group's attempts have fired. -/
theorem client_comes_up_open (hc : Reachable env c) (h : step env c l = .ok c') {a : SocketAddr}
    {conn conn' : Connection} (hc₀ : c.connections a = some conn) (hc' : c'.connections a = some conn')
    (hr : conn.ready = false) (hr' : conn'.ready) {g : ℕ} (hg : conn.bootstrapGroupRef = some g) :
    g ∉ c.finishedGroups := by
  intro hf
  rcases step_comes_up h hc₀ hc' hr hr' with ⟨leaf, hleaf, rfl, hk, ha⟩ | ⟨ho, -⟩
  · obtain ⟨conn₀, ps, hc₁, ht⟩ := hc.attemptInv.initiated_of_senderAlive hleaf ha
    obtain rfl : conn₀ = conn := Option.some.inj (hc₁.symm.trans hc₀)
    exact hk ((hc.groupInv henv).2.signalled_of_finished _ _ g ⟨conn₀, _, ps, hc₁, ht, hg⟩ hf)
  · rw [henv] at ho; cases ho

/-- On a Client a step finishes no group, or one: the group of the record it
brings up, not finished before. -/
theorem client_step_finishedGroups (h : step env c l = .ok c') :
    c'.finishedGroups = c.finishedGroups ∨
      ∃ a conn conn' g, c.connections a = some conn ∧ c'.connections a = some conn' ∧
        conn.ready = false ∧ conn'.ready ∧ conn.bootstrapGroupRef = some g ∧
        g ∉ c.finishedGroups ∧ c'.finishedGroups = g :: c.finishedGroups := by
  cases l with
  | connectTo peerInfo m =>
    obtain ⟨r, h⟩ := step_connectTo h
    exact .inl (connectTo_finishedGroups h)
  | bootstrap proxies m => exact .inl (bootstrap_finishedGroups h)
  | send peer msg =>
    rcases step_send h with ⟨a, conn, k, cert, ps, -, -, rfl⟩ | ⟨a, q, rfl⟩ | ⟨info, r, -, h⟩ | rfl
    · exact .inl rfl
    · exact .inl rfl
    · exact .inl (connectTo_finishedGroups h)
    · exact .inl rfl
  | disconnectFrom a => cases h; exact .inl rfl
  | terminator k =>
    refine .inl ?_
    rcases step_terminator h with rfl | ⟨-, -, -, -, rfl⟩ | ⟨l, -, -, rfl, -⟩ <;> rfl
  | handshake k ok =>
    rcases step_handshake h with rfl | ⟨l, -, -, -, -, h, -⟩
    · exact .inl rfl
    rcases handleNewConnectionRes_cases h with ⟨e, -, rfl⟩ | ⟨q, -, -, rfl⟩ |
      ⟨q, conn, k', cert, ps, -, hc, ht, rfl⟩
    · exact .inl (handleConnectErr_finishedGroups _ _)
    · exact .inl rfl
    by_cases hr : conn.fromPeer.isReady
    · cases hg : conn.bootstrapGroupRef with
      | none => exact .inl (by simp [establish_finishedGroups, hr, hg])
      | some g =>
        by_cases hg' : g ∈ c.finishedGroups
        · exact .inl (by simp [establish_finishedGroups, hr, hg, hg', Option.filter])
        · refine .inr ⟨l.peerAddr, conn, establishedRecord conn cert q, g, hc, by simp, ?_, ?_, hg, hg', ?_⟩
          · simp [Connection.ready, ht, ToPeer.isEstablished]
          · simp [Connection.ready, ToPeer.isEstablished, hr]
          · simp [establish_finishedGroups, hr, hg, hg', Option.filter]
    · exact .inl (by simp [establish_finishedGroups, hr])
  | driverFailed q =>
    refine .inl ?_
    rcases step_driverFailed h with rfl | ⟨d, -, -, rfl, -⟩ <;> rfl
  | incoming a =>
    rcases step_incoming h with rfl | ⟨ho, -⟩
    · exact .inl rfl
    · rw [henv] at ho; cases ho
  | read q msg =>
    refine .inl ?_
    rcases step_read h with rfl | ⟨r, -, rfl⟩ <;> simp
  | readFailed q e => exact .inl (by rcases step_readFailed h with rfl | ⟨r, -, rfl, -⟩ <;> rfl)
  | writeFailed q e => exact .inl (by rcases step_writeFailed h with rfl | ⟨w, -, rfl, -⟩ <;> rfl)

end client


/-- **On a Client, a bootstrap group sends one `BootstrappedTo` at most.** From
a reachable context of a Client, across any step: a finished group stays
finished, and each `BootstrappedTo` the step sends comes from the record at the
event's address, of the event's lifetime, which holds the ref of a group that
was open before the step and is finished after it. A second `BootstrappedTo`
for the group would need it open again. -/
theorem client_group_fires_once {env : Env} {c c' : Context} {l : Label}
    (henv : env.ourType = .client) (hc : Reachable env c) (h : step env c l = .ok c') :
    (∀ g ∈ c.finishedGroups, g ∈ c'.finishedGroups) ∧
    ∃ new, c'.events = c.events ++ new ∧
      ∀ e ∈ new, ∀ node, e.2 = .bootstrappedTo node →
        ∃ conn g, c.connections node.peerAddr = some conn ∧ conn.lifetime = e.1 ∧
          conn.bootstrapGroupRef = some g ∧ g ∉ c.finishedGroups ∧ g ∈ c'.finishedGroups := by
  obtain ⟨new, hs⟩ := step_successStep hc.lifetimeInv h
  refine ⟨step_finishedGroups_subset h, new, hs.events, fun e he node hb => ?_⟩
  obtain ⟨a, conn, conn', cert, q, hc₀, hc', hl, -, hr, hr', -, he₂, -, hfin⟩ :=
    hs.fired e he (by simp [hb, Event.isSuccess])
  obtain ⟨g, hg⟩ := Option.isSome_iff_exists.1
    ((Connection.isBootstrapped_successEvent conn ⟨a, cert⟩).symm.trans (he₂ ▸ hb ▸ rfl))
  obtain rfl : node = ⟨a, cert⟩ := by simpa [Connection.successEvent, hg, hb] using he₂
  exact ⟨conn, g, hc₀, hl, hg, client_comes_up_open henv hc h hc₀ hc' hr hr' hg, hfin g hg⟩

theorem client_group_fires_once_bootstrap :
    let env : Env := ⟨.client, [9], fun d => !d.isEmpty, fun _ => true, 64⟩
    ∃ c c', env.ourType = .client ∧ Reachable env c ∧ step env c (.handshake 1 true) = .ok c' ∧
      (∀ g ∈ c.finishedGroups, g ∈ c'.finishedGroups) ∧
      ∃ new, c'.events = c.events ++ new ∧
        ∀ e ∈ new, ∀ node, e.2 = .bootstrappedTo node →
          ∃ conn g, c.connections node.peerAddr = some conn ∧ conn.lifetime = e.1 ∧
            conn.bootstrapGroupRef = some g ∧ g ∉ c.finishedGroups ∧ g ∈ c'.finishedGroups := by
  intro env
  have hc : Reachable env _ := .step (.bootstrap [⟨1, [1]⟩, ⟨2, [2]⟩] none) .init rfl
  exact ⟨_, _, rfl, hc, rfl, @client_group_fires_once env _ _ (.handshake 1 true) rfl hc rfl⟩

/-- **On a Client, one `BootstrappedTo` per finished group.** In every
reachable context of a Client the finished groups are distinct, and the event
channel holds exactly as many `BootstrappedTo` events as groups have finished:
the step that finishes a group sends its one `BootstrappedTo`, and no other step
sends one. -/
theorem client_bootstrapped_count {env : Env} {c : Context} (henv : env.ourType = .client)
    (hc : Reachable env c) :
    c.finishedGroups.Nodup ∧ c.events.countP (fun e => e.2.isBootstrapped) = c.finishedGroups.length := by
  refine @Reachable.invariant env (fun c => c.finishedGroups.Nodup ∧
      c.events.countP (fun e => e.2.isBootstrapped) = c.finishedGroups.length)
    ⟨List.nodup_nil, rfl⟩ (fun c c' l hc hI h => ?_) c hc
  obtain ⟨new, hf⟩ := step_eventFacts hc.lifetimeInv h
  rw [hf.events, List.countP_append]
  rcases client_step_finishedGroups henv h with hfin | ⟨a, conn, conn', g, hc₀, hc', hr, hr', hg, hg', hfin⟩
  · have hnone : new.countP (fun e => e.2.isBootstrapped) = 0 := by
      refine List.countP_eq_zero.2 fun e he hb => ?_
      obtain ⟨b, conn₀, conn₀', cert, q, h₀, h₀', -, -, hr₀, hr₀', -, he₂, -, hfin₀⟩ :=
        hf.fired e he (Event.isSuccess_of_isBootstrapped hb)
      obtain ⟨g₀, hg₀⟩ := Option.isSome_iff_exists.1
        ((Connection.isBootstrapped_successEvent conn₀ ⟨b, cert⟩).symm.trans (he₂ ▸ hb))
      exact client_comes_up_open henv hc h h₀ h₀' hr₀ hr₀' hg₀ (hfin ▸ hfin₀ g₀ hg₀)
    rw [hfin, hnone, Nat.add_zero]
    exact hI
  · obtain ⟨cert, q, -, rfl⟩ := hf.up a conn conn' hc₀ hc' hr hr'
    have hmsgs : (conn.fromPeer.pendingReads.flatMap
        (dispatchedEvents conn.lifetime (.node ⟨a, cert⟩))).countP (fun e => e.2.isBootstrapped) = 0 :=
      List.countP_eq_zero.2 fun e he hb => by
        obtain ⟨msg, -, he⟩ := List.mem_flatMap.1 he
        exact absurd (Event.isSuccess_of_isBootstrapped hb) (by simp [(mem_dispatchedEvents he).2.2.1])
    rw [hfin, List.countP_cons, hmsgs, hI.2]
    exact ⟨List.nodup_cons.2 ⟨hg', hI.1⟩, by simp [Connection.isBootstrapped_successEvent, hg]⟩

theorem client_bootstrapped_count_race :
    let env : Env := ⟨.client, [9], fun d => !d.isEmpty, fun _ => true, 64⟩
    ∃ c, env.ourType = .client ∧ Reachable env c ∧
      c.events = [(1, .bootstrappedTo ⟨1, [1]⟩)] ∧ c.finishedGroups = [0] ∧
      c.finishedGroups.Nodup ∧
      c.events.countP (fun e => e.2.isBootstrapped) = c.finishedGroups.length := by
  intro env
  have hc : Reachable env _ := .step (.handshake 2 true) (.step (.handshake 1 true)
    (.step (.bootstrap [⟨1, [1]⟩, ⟨2, [2]⟩] none) .init rfl) rfl) rfl
  exact ⟨_, rfl, hc, by decide, by decide, client_bootstrapped_count rfl hc⟩

end QuicP2p
