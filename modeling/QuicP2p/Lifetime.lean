/-
# Records within one lifetime

A record's lifetime runs from the insertion that made it to its removal; the
model numbers each insertion (`Connection.lifetime`). Every step either leaves
a record alone, moves it one step on (`StepRecord`), removes it, or makes a
new one with a fresh number (`NewRecord`); so a lifetime belongs to one address
for good (`LifetimeInv`), and within it the outbound half only moves
`NoConnection → Initiated → Established` and the inbound half only
`NoConnection → Established` or `NoConnection → NotNeeded`, the certificate and
the session carried along (`ToPeer.Next`, `FromPeer.Next`).

Removal is the other side. Every failure callback (`handle_connect_err` for a
signalled terminator, a failed handshake or an outbound driver,
`handle_communication_err` for an inbound driver, a read loop or a write) is
keyed by the address its future was spawned with, and removes whatever record
is stored there when it runs (`Label.FailsAt`). So a record goes only through a
callback for its own address, a `connect_to` for it that fails
(`Label.ConnectFails`) or `disconnect_from`, but the callback may belong to an
older attempt or session.

Key definitions: `ToPeer.Next`, `FromPeer.Next`, `Moves`, `StepRecord`,
`LifetimeInv`, `Label.FailsAt`, `Label.ConnectFails`.
Key theorems: `step_moves`, `LifetimeInv.step`, `step_kept`, `step_failsAt`.
-/
import QuicP2p.Loop

namespace QuicP2p

/-! ### How the halves move -/

/-- One move of the outbound half, or none: `Initiated` only queues more sends,
and its certificate is the one `Established` carries. -/
inductive ToPeer.Next : ToPeer → ToPeer → Prop
  | refl (t : ToPeer) : Next t t
  | initiate (k : ℕ) (peerCertDer : CertDer) (pendingSends : List WireMsg) :
    Next .noConnection (.initiated k peerCertDer pendingSends)
  | queue (k : ℕ) (peerCertDer : CertDer) (pendingSends more : List WireMsg) :
    Next (.initiated k peerCertDer pendingSends) (.initiated k peerCertDer (pendingSends ++ more))
  | establish (k : ℕ) (peerCertDer : CertDer) (pendingSends : List WireMsg) (qConn : QConn) :
    Next (.initiated k peerCertDer pendingSends) (.established peerCertDer qConn)

/-- One move of the inbound half, or none: an `Established` half keeps its
session, only its buffered reads change. -/
inductive FromPeer.Next : FromPeer → FromPeer → Prop
  | refl (f : FromPeer) : Next f f
  | notNeeded : Next .noConnection .notNeeded
  | establish (qConn : QConn) : Next .noConnection (.established qConn [])
  | read (qConn : QConn) (pendingReads pendingReads' : List WireMsg) :
    Next (.established qConn pendingReads) (.established qConn pendingReads')

/-- What `connect_to` may do to a record it finds: nothing, or install
`Initiated` on a free outbound half, a Client also marking the inbound half not
needed, and join the group `g` if the record had none. -/
def Installs (g : Option ℕ) (conn conn' : Connection) : Prop :=
  conn' = conn ∨ conn.toPeer = .noConnection ∧ conn'.toPeer.terminator?.isSome ∧
    (conn'.fromPeer = conn.fromPeer ∨ conn.fromPeer = .noConnection ∧ conn'.fromPeer = .notNeeded) ∧
    conn'.bootstrapGroupRef = conn.bootstrapGroupRef.or g

/-- A record `connect_to` makes: `Initiated`, in the group `g` if there is one. -/
def Installed (g : Option ℕ) (conn : Connection) : Prop :=
  conn.toPeer.terminator?.isSome ∧ conn.bootstrapGroupRef = g

/-- How one step may change a record within its lifetime. -/
inductive StepRecord (g : Option ℕ) : Connection → Connection → Prop
  | install {conn conn' : Connection} : Installs g conn conn' → StepRecord g conn conn'
  | establish {conn : Connection} {k : ℕ} {peerCertDer : CertDer} {pendingSends : List WireMsg}
    (qConn : QConn) : conn.toPeer = .initiated k peerCertDer pendingSends →
    StepRecord g conn (establishedRecord conn peerCertDer qConn)
  | accept {conn : Connection} (qConn : QConn) : conn.fromPeer = .noConnection →
    StepRecord g conn (inboundRecord conn qConn)
  | buffer {conn : Connection} (msg : WireMsg) : conn.ready = false →
    StepRecord g conn { conn with fromPeer := conn.fromPeer.buffer msg }
  | queue {conn : Connection} {k : ℕ} {peerCertDer : CertDer} {pendingSends : List WireMsg}
    (more : List WireMsg) : conn.toPeer = .initiated k peerCertDer pendingSends →
    StepRecord g conn { conn with toPeer := .initiated k peerCertDer (pendingSends ++ more) }

/-- A record one step may make: by `connect_to`, or by `handle_new_conn`. -/
inductive NewRecord (g : Option ℕ) : Connection → Prop
  | install {conn : Connection} : Installed g conn → NewRecord g conn
  | accept (qConn lifetime : ℕ) : NewRecord g (inboundRecord (Connection.new false none lifetime) qConn)

theorem StepRecord.keep (g : Option ℕ) (conn : Connection) : StepRecord g conn conn :=
  .install (.inl rfl)

/-! ### Moves -/

/-- Every record after the step is new, its lifetime at least the counter
before and `F` holding, or the record of the same lifetime at the same address
before, moved by `R`. -/
def Moves (R : Connection → Connection → Prop) (F : Connection → Prop) (c c' : Context) : Prop :=
  ∀ b conn', c'.connections b = some conn' →
    (c.nextId ≤ conn'.lifetime ∧ F conn') ∨
      ∃ conn, c.connections b = some conn ∧ conn.lifetime = conn'.lifetime ∧ R conn conn'

section moves

variable {R : Connection → Connection → Prop} {F : Connection → Prop} {c c₁ c' : Context}

/-- A step that only drops records. -/
theorem Moves.of_sub (hR : ∀ conn, R conn conn)
    (h : ∀ b conn', c'.connections b = some conn' → c.connections b = some conn') :
    Moves R F c c' :=
  fun b conn' hb => .inr ⟨conn', h b conn' hb, rfl, hR conn'⟩

theorem Moves.sub_right (h : Moves R F c c₁)
    (h' : ∀ b conn', c'.connections b = some conn' → c₁.connections b = some conn') :
    Moves R F c c' :=
  fun b conn' hb => h b conn' (h' b conn' hb)

/-- A step that changes the record for one address. -/
theorem Moves.update (hR : ∀ conn, R conn conn) {a : SocketAddr} {o : Option Connection}
    (hc : c'.connections = Function.update c.connections a o)
    (ho : ∀ conn', o = some conn' → (c.nextId ≤ conn'.lifetime ∧ F conn') ∨
      ∃ conn, c.connections a = some conn ∧ conn.lifetime = conn'.lifetime ∧ R conn conn') :
    Moves R F c c' := by
  intro b conn' hb
  rw [hc] at hb
  by_cases hba : b = a
  · subst hba; rw [Function.update_same] at hb; exact ho conn' hb
  · rw [Function.update_noteq hba] at hb; exact .inr ⟨conn', hb, rfl, hR conn'⟩

theorem Moves.trans (hR : ∀ x y z, R x y → R y z → R x z) (hF : ∀ x y, F x → R x y → F y)
    (h₁ : Moves R F c c₁) (h₂ : Moves R F c₁ c') (hn : c.nextId ≤ c₁.nextId) : Moves R F c c' := by
  intro b conn₂ hb
  rcases h₂ b conn₂ hb with ⟨hl, hf⟩ | ⟨conn₁, hb₁, hl, hr⟩
  · exact .inl ⟨Nat.le_trans hn hl, hf⟩
  · rcases h₁ b conn₁ hb₁ with ⟨hl', hf⟩ | ⟨conn, hb₀, hl', hr'⟩
    · exact .inl ⟨hl.symm ▸ hl', hF _ _ hf hr⟩
    · exact .inr ⟨conn, hb₀, hl'.trans hl, hR _ _ _ hr' hr⟩

/-- A step that starts with a change of nothing but the counter. -/
theorem Moves.of_eq_left (h : Moves R F c₁ c') (hc : c₁.connections = c.connections)
    (hn : c.nextId ≤ c₁.nextId) : Moves R F c c' := by
  intro b conn' hb
  rcases h b conn' hb with ⟨hl, hf⟩ | ⟨conn, h₁, h₂, h₃⟩
  · exact .inl ⟨Nat.le_trans hn hl, hf⟩
  · exact .inr ⟨conn, hc ▸ h₁, h₂, h₃⟩

theorem Moves.mono {R' : Connection → Connection → Prop} {F' : Connection → Prop}
    (h : Moves R F c c') (hR : ∀ x y, R x y → R' x y) (hF : ∀ x, F x → F' x) : Moves R' F' c c' :=
  fun b conn' hb => (h b conn' hb).imp (fun h => ⟨h.1, hF _ h.2⟩)
    fun ⟨conn, h₁, h₂, h₃⟩ => ⟨conn, h₁, h₂, hR _ _ h₃⟩

end moves

/-! ### What each handler does to the records -/

section handlers

variable {env : Env} {c c' : Context}

theorem Installs.trans {g : Option ℕ} {x y z : Connection} (h₁ : Installs g x y) (h₂ : Installs g y z) :
    Installs g x z := by
  rcases h₂ with rfl | h₂
  · exact h₁
  · rcases h₁ with rfl | ⟨-, hi, -⟩
    · exact .inr h₂
    · rw [h₂.1] at hi; cases hi

theorem Installed.installs {g : Option ℕ} {x y : Connection} (hx : Installed g x) (h : Installs g x y) :
    Installed g y := by
  rcases h with rfl | ⟨ht, -⟩
  · exact hx
  · have := hx.1; rw [ht] at this; cases this

theorem connectTo_nextId_le {peerInfo : NodeInfo} {m : Option WireMsg} {g : Option ℕ}
    {r : Except Error Unit} (h : connectTo env c peerInfo m g = .ok (c', r)) : c.nextId ≤ c'.nextId := by
  rcases connectTo_cases h with ⟨-, rfl⟩ | rfl | ⟨-, rfl | ⟨-, rfl⟩⟩ <;> simp

/-- `connect_to` installs on one record or makes one. -/
theorem connectTo_moves {peerInfo : NodeInfo} {m : Option WireMsg} {g : Option ℕ}
    {r : Except Error Unit} (h : connectTo env c peerInfo m g = .ok (c', r)) :
    Moves (Installs g) (Installed g) c c' := by
  have hrefl : ∀ conn, Installs g conn conn := fun _ => .inl rfl
  rcases connectTo_cases h with ⟨-, rfl⟩ | rfl | ⟨hfree, hc'⟩
  · exact .of_sub hrefl fun b conn' hb => by
      by_cases hba : b = peerInfo.peerAddr
      · subst hba; simp at hb
      · simpa [Function.update_noteq hba] using hb
  · exact .of_sub hrefl fun _ _ h => h
  have hi : Moves (Installs g) (Installed g) c (installed env c peerInfo m g) := by
    refine .update hrefl (installed_connections ..) ?_
    rintro _ ⟨⟩
    cases hc : c.connections peerInfo.peerAddr with
    | none =>
      refine .inl ⟨by simp [initiatedRecord_lifetime, hc], by simp [ToPeer.terminator?], ?_⟩
      simp [initiatedRecord_bootstrapGroupRef, hc]
    | some conn =>
      obtain ⟨ht, hf⟩ := hfree conn hc
      refine .inr ⟨conn, rfl, by simp [initiatedRecord_lifetime, hc],
        .inr ⟨ht, by simp [ToPeer.terminator?], ?_, ?_⟩⟩
      · by_cases hot : env.ourType = .client
        · exact .inr ⟨hf hot, by simp [initiatedRecord_fromPeer, hot]⟩
        · exact .inl (by simp [initiatedRecord_fromPeer, hot, hc])
      · simp [initiatedRecord_bootstrapGroupRef, hc]
  rcases hc' with rfl | ⟨-, rfl⟩
  · exact hi.sub_right fun _ _ h => h
  · exact hi.sub_right fun b conn' hb => by
      by_cases hba : b = peerInfo.peerAddr
      · subst hba; simp at hb
      · simpa [Function.update_noteq hba] using hb

/-- A bootstrap is its `connect_to` calls, all with the fresh group. -/
theorem bootstrap_moves {proxies : List NodeInfo} {m : Option WireMsg}
    (h : bootstrap env c proxies m = .ok c') : Moves (Installs (some c.nextId)) (Installed (some c.nextId)) c c' := by
  refine (bootstrap_induction (fun c₁ => Moves (Installs (some c.nextId)) (Installed (some c.nextId)) c c₁ ∧
    c.nextId ≤ c₁.nextId) ⟨.of_sub (fun _ => .inl rfl) fun _ _ h => h, Nat.le_succ _⟩ ?_ h).1
  rintro c₁ c₂ info r - ⟨h₁, hn⟩ h₂
  exact ⟨h₁.trans (fun _ _ _ => Installs.trans) (fun _ _ => Installed.installs) (connectTo_moves h₂) hn,
    Nat.le_trans hn (connectTo_nextId_le h₂)⟩

theorem establish_moves {g : Option ℕ} {a : SocketAddr} {conn : Connection} {k : ℕ}
    {peerCertDer : CertDer} {pendingSends : List WireMsg} {qConn : QConn}
    (hc : c.connections a = some conn) (ht : conn.toPeer = .initiated k peerCertDer pendingSends) :
    Moves (StepRecord g) (NewRecord g) c (establish env c a conn peerCertDer pendingSends qConn) :=
  .update (StepRecord.keep g) (establish_connections ..) fun _ ho => by
    cases ho; exact .inr ⟨conn, hc, rfl, .establish qConn ht⟩

theorem handleNewConn_moves (g : Option ℕ) (a : SocketAddr) :
    Moves (StepRecord g) (NewRecord g) c (handleNewConn c a) := by
  rcases handleNewConn_busy_or_free c a with ⟨conn, hc, hf⟩ | ⟨conn, hconn, hf⟩
  · rw [handleNewConn_of_busy hc hf]
    exact .of_sub (StepRecord.keep g) fun _ _ h => h
  refine .update (StepRecord.keep g) (handleNewConn_connections_of_free hconn hf) fun _ ho => ?_
  cases ho
  cases hc : c.connections a with
  | none => rw [hc] at hconn; subst hconn; exact .inl ⟨Nat.le_refl _, .accept _ _⟩
  | some conn₀ => rw [hc] at hconn; subst hconn; exact .inr ⟨conn₀, rfl, rfl, .accept _ hf⟩

theorem readFromPeer_moves (g : Option ℕ) (a : SocketAddr) (qConn : QConn) (msg : WireMsg) :
    Moves (StepRecord g) (NewRecord g) c (readFromPeer c a qConn msg) := by
  cases hc : c.connections a with
  | none => rw [readFromPeer_of_none hc]; exact .of_sub (StepRecord.keep g) fun _ _ h => h
  | some conn =>
    cases hr : conn.ready
    · rw [readFromPeer_of_not_ready hc hr]
      exact .update (StepRecord.keep g) rfl fun _ ho => by
        cases ho; exact .inr ⟨conn, hc, rfl, .buffer msg hr⟩
    · rw [readFromPeer_of_ready hc hr]
      exact .of_sub (StepRecord.keep g) fun _ _ h => h

theorem removeConnection_sub {a b : SocketAddr} {cause : Option Error} {conn : Connection}
    (h : (c.removeConnection a cause).connections b = some conn) : c.connections b = some conn := by
  by_cases hba : b = a
  · subst hba; simp at h
  · simpa [Function.update_noteq hba] using h

theorem handleConnectErr_sub {a b : SocketAddr} {e : Error} {conn : Connection}
    (h : (handleConnectErr c a e).connections b = some conn) : c.connections b = some conn := by
  rcases handleConnectErr_eq c a e with he | he <;> rw [he] at h
  · exact h
  · exact removeConnection_sub h

end handlers

/-- The group a step's `connect_to` calls join: a bootstrap's fresh one. -/
def Label.group (c : Context) : Label → Option ℕ
  | .bootstrap _ _ => some c.nextId
  | _ => none

/-- **What one step does to the records.** Each record after it is new, or the
record of the same lifetime at the same address before, moved one step. -/
theorem step_moves {env : Env} {c c' : Context} {l : Label} (h : step env c l = .ok c') :
    Moves (StepRecord (l.group c)) (NewRecord (l.group c)) c c' := by
  have hsub : ∀ {c₁ : Context}, (∀ b conn, c₁.connections b = some conn → c.connections b = some conn) →
      Moves (StepRecord (l.group c)) (NewRecord (l.group c)) c c₁ :=
    fun h => .of_sub (StepRecord.keep _) h
  cases l with
  | connectTo peerInfo m =>
    obtain ⟨r, h⟩ := step_connectTo h
    exact (connectTo_moves h).mono (fun _ _ => .install) fun _ => .install
  | bootstrap proxies m =>
    exact (bootstrap_moves h).mono (fun _ _ => .install) fun _ => .install
  | send peer msg =>
    rcases step_send h with ⟨a, conn, k, cert, ps, hc, ht, rfl⟩ | ⟨a, q, rfl⟩ | ⟨info, r, -, h⟩ | rfl
    · exact .update (StepRecord.keep _) rfl fun _ ho => by
        cases ho; exact .inr ⟨conn, hc, rfl, .queue _ ht⟩
    · exact hsub fun _ _ h => h
    · exact (connectTo_moves h).mono (fun _ _ => .install) fun _ => .install
    · exact hsub fun _ _ h => h
  | disconnectFrom a => cases h; exact hsub fun _ _ h => (removeConnection_sub h :)
  | terminator k =>
    rcases step_terminator h with rfl | ⟨-, -, -, -, rfl⟩ | ⟨l, -, -, rfl, -⟩
    · exact hsub fun _ _ h => h
    · exact hsub fun _ _ h => h
    · exact hsub fun _ _ h => (removeConnection_sub h :)
  | handshake k ok =>
    rcases step_handshake h with rfl | ⟨l, -, -, -, -, h, -⟩
    · exact hsub fun _ _ h => h
    have h₁ : Moves (StepRecord none) (NewRecord none) { c.dropLeaf k with nextId := c.nextId + 1 } c' := by
      rcases handleNewConnectionRes_cases h with ⟨e, -, rfl⟩ | ⟨q, -, -, rfl⟩ |
        ⟨q, conn, k', cert, ps, -, hc, ht, rfl⟩
      · exact .of_sub (StepRecord.keep _) fun _ _ h => handleConnectErr_sub h
      · exact .of_sub (StepRecord.keep _) fun _ _ h => h
      · refine Moves.of_eq_left (establish_moves ?_ ht) rfl (Nat.le_refl _)
        exact hc
    exact h₁.of_eq_left rfl (Nat.le_succ _)
  | driverFailed q =>
    rcases step_driverFailed h with rfl | ⟨d, -, -, rfl, -⟩
    · exact hsub fun _ _ h => h
    · exact hsub fun _ _ h => (removeConnection_sub h :)
  | incoming a =>
    rcases step_incoming h with rfl | ⟨-, rfl⟩
    · exact hsub fun _ _ h => h
    · exact handleNewConn_moves _ a
  | read q msg =>
    rcases step_read h with rfl | ⟨r, -, rfl⟩
    · exact hsub fun _ _ h => h
    · exact readFromPeer_moves _ _ _ _
  | readFailed q e =>
    rcases step_readFailed h with rfl | ⟨r, -, rfl, -⟩
    · exact hsub fun _ _ h => h
    · exact hsub fun _ _ h => (removeConnection_sub h :)
  | writeFailed q e =>
    rcases step_writeFailed h with rfl | ⟨w, -, rfl, -⟩
    · exact hsub fun _ _ h => h
    · exact hsub fun _ _ h => (removeConnection_sub h :)

/-- The counter only grows. -/
theorem step_nextId_le {env : Env} {c c' : Context} {l : Label} (h : step env c l = .ok c') :
    c.nextId ≤ c'.nextId := by
  cases l with
  | connectTo peerInfo m =>
    obtain ⟨r, h⟩ := step_connectTo h
    exact connectTo_nextId_le h
  | bootstrap proxies m =>
    exact bootstrap_induction (fun c₁ => c.nextId ≤ c₁.nextId) (Nat.le_succ _)
      (fun _ _ _ _ _ h₁ h₂ => Nat.le_trans h₁ (connectTo_nextId_le h₂)) h
  | send peer msg =>
    rcases step_send h with ⟨a, conn, k, cert, ps, -, -, rfl⟩ | ⟨a, q, rfl⟩ | ⟨info, r, -, h⟩ | rfl
    · exact Nat.le_refl _
    · exact Nat.le_refl _
    · exact connectTo_nextId_le h
    · exact Nat.le_refl _
  | disconnectFrom a => cases h; exact Nat.le_refl _
  | terminator k => rcases step_terminator h with rfl | ⟨-, -, -, -, rfl⟩ | ⟨l, -, -, rfl, -⟩ <;> simp
  | handshake k ok =>
    rcases step_handshake h with rfl | ⟨l, -, -, -, -, h, -⟩
    · exact Nat.le_refl _
    rcases handleNewConnectionRes_cases h with ⟨e, -, rfl⟩ | ⟨q, -, -, rfl⟩ |
      ⟨q, conn, k', cert, ps, -, -, -, rfl⟩ <;> simp
  | driverFailed q => rcases step_driverFailed h with rfl | ⟨d, -, -, rfl, -⟩ <;> simp
  | incoming a => rcases step_incoming h with rfl | ⟨-, rfl⟩ <;> simp
  | read q msg => rcases step_read h with rfl | ⟨r, -, rfl⟩ <;> simp
  | readFailed q e => rcases step_readFailed h with rfl | ⟨r, -, rfl, -⟩ <;> simp
  | writeFailed q e => rcases step_writeFailed h with rfl | ⟨w, -, rfl, -⟩ <;> simp

/-! ### A lifetime belongs to one address -/

/-- Records' lifetimes are below the counter and tell the records apart. -/
structure LifetimeInv (c : Context) : Prop where
  lifetime_lt : c.AllRecords (·.lifetime < c.nextId)
  lifetime_inj : ∀ a b conn conn', c.connections a = some conn → c.connections b = some conn' →
    conn.lifetime = conn'.lifetime → a = b

namespace LifetimeInv

variable {env : Env} {c c' : Context}

theorem init : LifetimeInv .init := ⟨(fun _ _ h => by cases h), fun _ _ _ _ h => by cases h⟩

theorem of_sub (hI : LifetimeInv c)
    (h : ∀ b conn', c'.connections b = some conn' → c.connections b = some conn')
    (hn : c.nextId ≤ c'.nextId) : LifetimeInv c' :=
  ⟨fun b conn' hb => Nat.lt_of_lt_of_le (hI.lifetime_lt b conn' (h b conn' hb)) hn,
    fun a b conn conn' ha hb => hI.lifetime_inj a b conn conn' (h a conn ha) (h b conn' hb)⟩

/-- A step that changes the record for one address keeps its lifetime, or makes
it with the counter's number and moves the counter on. -/
theorem update (hI : LifetimeInv c) {a : SocketAddr} {o : Option Connection}
    (hc : c'.connections = Function.update c.connections a o) (hn : c.nextId ≤ c'.nextId)
    (ho : ∀ conn', o = some conn' →
      (∃ conn, c.connections a = some conn ∧ conn.lifetime = conn'.lifetime) ∨
        conn'.lifetime = c.nextId ∧ c.nextId < c'.nextId) : LifetimeInv c' := by
  have origin : ∀ b conn', c'.connections b = some conn' →
      (∃ conn, c.connections b = some conn ∧ conn.lifetime = conn'.lifetime) ∨
        b = a ∧ conn'.lifetime = c.nextId ∧ c.nextId < c'.nextId := by
    intro b conn' hb
    rw [hc] at hb
    by_cases hba : b = a
    · subst hba
      rw [Function.update_same] at hb
      exact (ho conn' hb).imp id fun h => ⟨rfl, h⟩
    · rw [Function.update_noteq hba] at hb
      exact .inl ⟨conn', hb, rfl⟩
  constructor
  · intro b conn' hb
    rcases origin b conn' hb with ⟨conn, h, hl⟩ | ⟨-, hl, hlt⟩
    · exact hl ▸ Nat.lt_of_lt_of_le (hI.lifetime_lt b conn h) hn
    · exact hl ▸ hlt
  · intro b₁ b₂ conn₁ conn₂ h₁ h₂ hl
    rcases origin b₁ conn₁ h₁ with ⟨x₁, hx₁, hl₁⟩ | ⟨hb₁, hl₁, -⟩ <;>
      rcases origin b₂ conn₂ h₂ with ⟨x₂, hx₂, hl₂⟩ | ⟨hb₂, hl₂, -⟩
    · exact hI.lifetime_inj b₁ b₂ x₁ x₂ hx₁ hx₂ (by rw [hl₁, hl₂, hl])
    · exact absurd (hl₁.trans (hl.trans hl₂)) (Nat.ne_of_lt (hI.lifetime_lt _ _ hx₁))
    · exact absurd (hl₂.trans (hl.symm.trans hl₁)) (Nat.ne_of_lt (hI.lifetime_lt _ _ hx₂))
    · exact hb₁.trans hb₂.symm

theorem installed (hI : LifetimeInv c) {peerInfo : NodeInfo} {m : Option WireMsg} {g : Option ℕ} :
    LifetimeInv (QuicP2p.installed env c peerInfo m g) :=
  hI.update (installed_connections ..) (by simp) fun _ ho => by
    cases ho; exact (initiatedRecord_origin ..).imp id fun h => ⟨h, by simp⟩

theorem connectTo (hI : LifetimeInv c) {peerInfo : NodeInfo} {m : Option WireMsg} {g : Option ℕ}
    {r : Except Error Unit} (h : QuicP2p.connectTo env c peerInfo m g = .ok (c', r)) :
    LifetimeInv c' := by
  rcases connectTo_cases h with ⟨-, rfl⟩ | rfl | ⟨-, hc'⟩
  · exact hI.of_sub (fun _ _ h => (removeConnection_sub h :)) (Nat.le_refl _)
  · exact hI
  have hi : LifetimeInv (QuicP2p.installed env c peerInfo m g) := hI.installed
  rcases hc' with rfl | ⟨-, rfl⟩
  · exact hi.of_sub (fun _ _ h => h) (Nat.le_refl _)
  · exact hi.of_sub (fun _ _ h => (removeConnection_sub h :)) (Nat.le_refl _)

theorem establish (hI : LifetimeInv c) {a : SocketAddr} {conn : Connection} {cert : CertDer}
    {ps : List WireMsg} {q : QConn} (hc : c.connections a = some conn) :
    LifetimeInv (QuicP2p.establish env c a conn cert ps q) :=
  hI.update (establish_connections ..) (by simp) fun _ ho => by
    cases ho; exact .inl ⟨conn, hc, rfl⟩

theorem handleNewConn (hI : LifetimeInv c) (a : SocketAddr) :
    LifetimeInv (QuicP2p.handleNewConn c a) := by
  rcases handleNewConn_busy_or_free c a with ⟨conn, hc, hf⟩ | ⟨conn, hconn, hf⟩
  · rw [handleNewConn_of_busy hc hf]
    exact hI.of_sub (fun _ _ h => h) (Nat.le_succ _)
  refine hI.update (handleNewConn_connections_of_free hconn hf) (by simp) fun _ ho => ?_
  cases ho
  exact (inboundRecord_origin hconn _).imp id fun h => ⟨h, by simp⟩

theorem readFromPeer (hI : LifetimeInv c) (a : SocketAddr) (q : QConn) (msg : WireMsg) :
    LifetimeInv (QuicP2p.readFromPeer c a q msg) := by
  cases hc : c.connections a with
  | none => rwa [readFromPeer_of_none hc]
  | some conn =>
    cases hr : conn.ready
    · rw [readFromPeer_of_not_ready hc hr]
      exact hI.update rfl (Nat.le_refl _) fun _ ho => by cases ho; exact .inl ⟨conn, hc, rfl⟩
    · rw [readFromPeer_of_ready hc hr]
      exact hI.of_sub (fun _ _ h => h) (Nat.le_refl _)

theorem step (hI : LifetimeInv c) {l : Label} (h : QuicP2p.step env c l = .ok c') : LifetimeInv c' := by
  cases l with
  | connectTo peerInfo m =>
    obtain ⟨r, h⟩ := step_connectTo h
    exact hI.connectTo h
  | bootstrap proxies m =>
    exact bootstrap_induction LifetimeInv (hI.of_sub (fun _ _ h => h) (Nat.le_succ _))
      (fun _ _ _ _ _ h₁ h₂ => h₁.connectTo h₂) h
  | send peer msg =>
    rcases step_send h with ⟨a, conn, k, cert, ps, hc, -, rfl⟩ | ⟨a, q, rfl⟩ | ⟨info, r, -, h⟩ | rfl
    · exact hI.update rfl (Nat.le_refl _) fun _ ho => by cases ho; exact .inl ⟨conn, hc, rfl⟩
    · exact hI.of_sub (fun _ _ h => h) (Nat.le_refl _)
    · exact hI.connectTo h
    · exact hI
  | disconnectFrom a => cases h; exact hI.of_sub (fun _ _ h => (removeConnection_sub h :)) (Nat.le_refl _)
  | terminator k =>
    rcases step_terminator h with rfl | ⟨-, -, -, -, rfl⟩ | ⟨l, -, -, rfl, -⟩
    · exact hI
    · exact hI.of_sub (fun _ _ h => h) (Nat.le_refl _)
    · exact hI.of_sub (fun _ _ h => (removeConnection_sub h :)) (Nat.le_refl _)
  | handshake k ok =>
    rcases step_handshake h with rfl | ⟨l, -, -, -, -, h, -⟩
    · exact hI
    have h₁ : LifetimeInv { c.dropLeaf k with nextId := c.nextId + 1 } :=
      hI.of_sub (fun _ _ h => h) (Nat.le_succ _)
    rcases handleNewConnectionRes_cases h with ⟨e, -, rfl⟩ | ⟨q, -, -, rfl⟩ |
      ⟨q, conn, k', cert, ps, -, hc, -, rfl⟩
    · exact h₁.of_sub (fun _ _ h => handleConnectErr_sub h) (by simp)
    · exact h₁.of_sub (fun _ _ h => h) (Nat.le_refl _)
    · have h₂ : LifetimeInv { c.dropLeaf k with
          nextId := c.nextId + 1, drivers := c.drivers ++ [⟨l.peerAddr, q, true⟩] } :=
        h₁.of_sub (fun _ _ h => h) (Nat.le_refl _)
      exact h₂.establish hc
  | driverFailed q =>
    rcases step_driverFailed h with rfl | ⟨d, -, -, rfl, -⟩
    · exact hI
    · exact hI.of_sub (fun _ _ h => (removeConnection_sub h :)) (Nat.le_refl _)
  | incoming a =>
    rcases step_incoming h with rfl | ⟨-, rfl⟩
    · exact hI
    · exact hI.handleNewConn a
  | read q msg =>
    rcases step_read h with rfl | ⟨r, -, rfl⟩
    · exact hI
    · exact hI.readFromPeer _ _ _
  | readFailed q e =>
    rcases step_readFailed h with rfl | ⟨r, -, rfl, -⟩
    · exact hI
    · exact hI.of_sub (fun _ _ h => (removeConnection_sub h :)) (Nat.le_refl _)
  | writeFailed q e =>
    rcases step_writeFailed h with rfl | ⟨w, -, rfl, -⟩
    · exact hI
    · exact hI.of_sub (fun _ _ h => (removeConnection_sub h :)) (Nat.le_refl _)

end LifetimeInv

theorem Reachable.lifetimeInv {env : Env} {c : Context} (hc : Reachable env c) : LifetimeInv c :=
  hc.invariant LifetimeInv.init fun _ _ _ _ hI h => hI.step h

/-- Across a step, a record of a lifetime that was there is the record of the
same address, moved by `R`. -/
theorem Moves.same {R : Connection → Connection → Prop} {F : Connection → Prop} {c c' : Context}
    (hI : LifetimeInv c) (h : Moves R F c c') {a b : SocketAddr} {conn conn' : Connection}
    (ha : c.connections a = some conn) (hb : c'.connections b = some conn')
    (hl : conn.lifetime = conn'.lifetime) : b = a ∧ R conn conn' := by
  rcases h b conn' hb with ⟨hfresh, -⟩ | ⟨conn₀, h₀, hl₀, hr⟩
  · exact absurd (hl ▸ hfresh) (Nat.not_le_of_lt (hI.lifetime_lt a conn ha))
  · have hba := hI.lifetime_inj b a conn₀ conn h₀ ha (hl₀.trans hl.symm)
    subst hba
    rw [ha, Option.some.injEq] at h₀
    subst h₀
    exact ⟨rfl, hr⟩

/-- Each step moves each half at most one step on. -/
theorem StepRecord.halves {g : Option ℕ} {conn conn' : Connection} (h : StepRecord g conn conn') :
    ToPeer.Next conn.toPeer conn'.toPeer ∧ FromPeer.Next conn.fromPeer conn'.fromPeer := by
  cases h with
  | install h =>
    rcases h with rfl | ⟨ht, hi, hf, -⟩
    · exact ⟨.refl _, .refl _⟩
    obtain ⟨k, hk⟩ := Option.isSome_iff_exists.1 hi
    obtain ⟨cert, ps, hk⟩ := ToPeer.terminator?_eq_some.1 hk
    refine ⟨by rw [ht, hk]; exact .initiate k cert ps, ?_⟩
    rcases hf with hf | ⟨h₁, h₂⟩
    · exact hf ▸ .refl _
    · exact h₁ ▸ h₂ ▸ .notNeeded
  | establish q ht =>
    refine ⟨ht ▸ .establish _ _ _ q, ?_⟩
    simp only [establishedRecord_fromPeer]
    cases conn.fromPeer with
    | established q' rs => exact .read q' rs []
    | _ => exact .refl _
  | accept q hf => exact ⟨.refl _, by simpa [hf] using FromPeer.Next.establish q⟩
  | buffer msg _ =>
    refine ⟨.refl _, ?_⟩
    cases conn.fromPeer with
    | established q rs => exact .read q rs _
    | _ => exact .refl _
  | queue more ht => exact ⟨ht ▸ .queue _ _ _ more, .refl _⟩

/-- **Within a lifetime the halves only move forward.** From a reachable
context, across any step, a record of a lifetime that was there stays at its
address, and each half moves at most one step on: `NoConnection → Initiated →
Established` outbound, `NoConnection → Established` or `NoConnection →
NotNeeded` inbound, the certificate and the session carried along; and a
session from an address whose inbound half is taken changes no record, sends
no event and starts no read loop. -/
theorem halves_only_move_forward {env : Env} {c c' : Context} {l : Label} (hc : Reachable env c)
    (h : step env c l = .ok c') :
    (∀ a b conn conn', c.connections a = some conn → c'.connections b = some conn' →
      conn.lifetime = conn'.lifetime →
      b = a ∧ ToPeer.Next conn.toPeer conn'.toPeer ∧ FromPeer.Next conn.fromPeer conn'.fromPeer) ∧
    (∀ a conn, c.connections a = some conn → conn.fromPeer ≠ .noConnection →
      (handleNewConn c a).connections = c.connections ∧ (handleNewConn c a).events = c.events ∧
        (handleNewConn c a).readers = c.readers) := by
  refine ⟨fun a b conn conn' ha hb hl => ?_, fun a conn ha hf => ?_⟩
  · obtain ⟨rfl, hr⟩ := (step_moves h).same hc.lifetimeInv ha hb hl
    exact ⟨rfl, hr.halves⟩
  · rw [handleNewConn_of_busy ha hf]
    exact ⟨rfl, rfl, rfl⟩

theorem halves_only_move_forward_handshake :
    let env : Env := ⟨.node, [9], fun d => !d.isEmpty, fun _ => true, 64⟩
    ∃ c c', Reachable env c ∧ step env c (.handshake 0 true) = .ok c' ∧
      (∀ a b conn conn', c.connections a = some conn → c'.connections b = some conn' →
        conn.lifetime = conn'.lifetime →
        b = a ∧ ToPeer.Next conn.toPeer conn'.toPeer ∧ FromPeer.Next conn.fromPeer conn'.fromPeer) ∧
      (∀ a conn, c.connections a = some conn → conn.fromPeer ≠ .noConnection →
        (handleNewConn c a).connections = c.connections ∧ (handleNewConn c a).events = c.events ∧
          (handleNewConn c a).readers = c.readers) := by
  intro env
  have hc : Reachable env _ := .step (.connectTo ⟨1, [1]⟩ none) .init rfl
  exact ⟨_, _, hc, rfl, @halves_only_move_forward _ _ _ (.handshake 0 true) hc rfl⟩

/-! ### Removal is keyed by address -/

/-- The failure callback a step runs, with the address it runs for: the first
leaf waiting on a signalled terminator, or a failed handshake of a live attempt
(`handle_connect_err`); the first driver, read loop or write of the failed
session (`handle_connect_err` for an outbound driver, `handle_communication_err`
otherwise). -/
def Label.FailsAt (c : Context) (a : SocketAddr) : Label → Prop
  | .terminator k => ∃ leaf, c.leaves.find? (·.terminator = k) = some leaf ∧ k ∈ c.signalled ∧
      leaf.peerAddr = a
  | .handshake k ok => ok = false ∧ ∃ leaf, c.leaves.find? (·.terminator = k) = some leaf ∧
      k ∉ c.signalled ∧ c.senderAlive leaf ∧ leaf.peerAddr = a
  | .driverFailed q => ∃ d, c.drivers.find? (·.qConn = q) = some d ∧ d.peerAddr = a
  | .readFailed q _ => ∃ r, c.readers.find? (·.qConn = q) = some r ∧ r.peerAddr = a
  | .writeFailed q _ => ∃ w, c.writers.find? (·.qConn = q) = some w ∧ w.peerAddr = a
  | _ => False

/-- A `connect_to` for `peerInfo` that fails at `a`: the address is `a`, and
the certificate gives no config or `connect_with` refuses the address. -/
def NodeInfo.ConnectFails (peerInfo : NodeInfo) (env : Env) (a : SocketAddr) : Prop :=
  peerInfo.peerAddr = a ∧ (env.certParses peerInfo.peerCertDer = false ∨ env.connectWithOk a = false)

/-- The step makes a `connect_to` that fails at `a`: the host's, a bootstrap
candidate's, or the one a `send` to a Node makes. -/
def Label.ConnectFails (env : Env) (a : SocketAddr) : Label → Prop
  | .connectTo peerInfo _ => peerInfo.ConnectFails env a
  | .bootstrap proxies _ => ∃ p ∈ proxies, p.ConnectFails env a
  | .send (.node info) _ => info.ConnectFails env a
  | _ => False

/-- The record for `a`, if there is one, is still there after the step, with its
lifetime. -/
def Kept (c c' : Context) (a : SocketAddr) : Prop :=
  ∀ conn, c.connections a = some conn →
    ∃ conn', c'.connections a = some conn' ∧ conn'.lifetime = conn.lifetime

section kept

variable {env : Env} {c c' : Context} {a : SocketAddr}

theorem Kept.of_eq (h : c'.connections a = c.connections a) : Kept c c' a :=
  fun conn hc => ⟨conn, h ▸ hc, rfl⟩

theorem Kept.trans {c₁ : Context} (h₁ : Kept c c₁ a) (h₂ : Kept c₁ c' a) : Kept c c' a :=
  fun conn hc =>
    let ⟨_, hc₁, hl₁⟩ := h₁ conn hc
    let ⟨conn₂, hc₂, hl₂⟩ := h₂ _ hc₁
    ⟨conn₂, hc₂, hl₂.trans hl₁⟩

/-- A change of the record for one address that keeps its lifetime. -/
theorem Kept.update {a' : SocketAddr} {x : Connection}
    (hc : c'.connections = Function.update c.connections a' (some x))
    (hx : ∀ conn, c.connections a' = some conn → x.lifetime = conn.lifetime) : Kept c c' a := by
  intro conn h
  rw [hc]
  by_cases haa : a = a'
  · subst haa; exact ⟨x, Function.update_same .., hx conn h⟩
  · exact ⟨conn, by rw [Function.update_noteq haa, h], rfl⟩

/-- A removal at another address. -/
theorem Kept.removeConnection {c₁ : Context} {a' : SocketAddr} {cause : Option Error}
    (hc : c₁.connections = c.connections) (hne : a ≠ a') : Kept c (c₁.removeConnection a' cause) a :=
  .of_eq (by simp [hc, Function.update_noteq hne])

theorem connectTo_connections_of_ne {peerInfo : NodeInfo} {m : Option WireMsg} {g : Option ℕ}
    {r : Except Error Unit} (h : connectTo env c peerInfo m g = .ok (c', r))
    (ha : a ≠ peerInfo.peerAddr) : c'.connections a = c.connections a := by
  rcases connectTo_cases h with ⟨-, rfl⟩ | rfl | ⟨-, rfl | ⟨-, rfl⟩⟩ <;>
    simp [Function.update_noteq ha]

/-- A bootstrap changes records at its candidates' addresses only. -/
theorem bootstrap_connections_of_ne {proxies : List NodeInfo} {m : Option WireMsg}
    (hp : ∀ p ∈ proxies, p.peerAddr ≠ a) (h : bootstrap env c proxies m = .ok c') :
    c'.connections a = c.connections a :=
  bootstrap_induction (fun c₁ => c₁.connections a = c.connections a) rfl
    (fun _ _ info _ hmem h₁ h₂ => (connectTo_connections_of_ne h₂ (hp info hmem).symm).trans h₁) h

/-- A `connect_to` that does not fail at `a` keeps the record for `a`: it is
busy, or gets `Initiated` installed on its free half. -/
theorem connectTo_kept {peerInfo : NodeInfo} {m : Option WireMsg} {g : Option ℕ}
    {r : Except Error Unit} (h : connectTo env c peerInfo m g = .ok (c', r))
    (hf : ¬ peerInfo.ConnectFails env a) : Kept c c' a := by
  by_cases ha : a = peerInfo.peerAddr
  · subst ha
    rcases connectTo_cases h with ⟨hp, -⟩ | rfl | ⟨-, rfl | ⟨hw, -⟩⟩
    · exact absurd ⟨rfl, .inl hp⟩ hf
    · exact .of_eq rfl
    · exact .update (installed_connections ..) fun conn hc => by simp [initiatedRecord_lifetime, hc]
    · exact absurd ⟨rfl, .inr hw⟩ hf
  · exact .of_eq (connectTo_connections_of_ne h ha)

theorem handleNewConn_kept (a' : SocketAddr) : Kept c (handleNewConn c a') a := by
  rcases handleNewConn_busy_or_free c a' with ⟨conn, hc, hf⟩ | ⟨conn, hconn, hf⟩
  · rw [handleNewConn_of_busy hc hf]
    exact .of_eq rfl
  refine .update (handleNewConn_connections_of_free hconn hf) fun conn₀ h => ?_
  rw [h] at hconn; subst hconn; rfl

theorem readFromPeer_kept (a' : SocketAddr) (q : QConn) (msg : WireMsg) :
    Kept c (readFromPeer c a' q msg) a := by
  cases hc : c.connections a' with
  | none => rw [readFromPeer_of_none hc]; exact .of_eq rfl
  | some conn =>
    cases hr : conn.ready
    · rw [readFromPeer_of_not_ready hc hr]
      exact .update rfl fun _ h => by rw [hc, Option.some.injEq] at h; subst h; rfl
    · rw [readFromPeer_of_ready hc hr]; exact .of_eq rfl

/-- Away from a failure callback for `a`, a failing `connect_to` for `a` and
`disconnect_from(a)`, the record for `a` stays. -/
theorem step_kept {l : Label} (h : step env c l = .ok c') (hf : ¬ l.FailsAt c a)
    (hc : ¬ l.ConnectFails env a) (hd : l ≠ .disconnectFrom a) : Kept c c' a := by
  cases l with
  | connectTo peerInfo m =>
    obtain ⟨r, h⟩ := step_connectTo h
    exact connectTo_kept h hc
  | bootstrap proxies m =>
    exact bootstrap_induction (fun c₁ => Kept c c₁ a) (.of_eq rfl)
      (fun _ _ info _ hp h₁ h₂ => h₁.trans (connectTo_kept h₂ fun hi => hc ⟨info, hp, hi⟩)) h
  | send peer msg =>
    rcases step_send h with ⟨a', conn, k, cert, ps, hc', -, rfl⟩ | ⟨a', q, rfl⟩ | ⟨info, r, rfl, h'⟩ | rfl
    · exact .update rfl fun _ h => by rw [hc', Option.some.injEq] at h; subst h; rfl
    · exact .of_eq rfl
    · exact connectTo_kept h' hc
    · exact .of_eq rfl
  | disconnectFrom a' => cases h; exact .removeConnection rfl fun he => hd (he ▸ rfl)
  | terminator k =>
    rcases step_terminator h with rfl | ⟨-, -, -, -, rfl⟩ | ⟨leaf, -, -, rfl, hl, hs⟩
    · exact .of_eq rfl
    · exact .of_eq rfl
    · exact .removeConnection rfl fun he => hf ⟨leaf, hl, hs, he.symm⟩
  | handshake k ok =>
    rcases step_handshake h with rfl | ⟨leaf, -, -, hs, ha, h, hl⟩
    · exact .of_eq rfl
    rcases handleNewConnectionRes_cases h with ⟨e, he, rfl⟩ | ⟨q, -, -, rfl⟩ |
      ⟨q, conn, k', cert, ps, -, hcn, -, rfl⟩
    · have hok : ok = false := by cases ok <;> simp_all
      rcases handleConnectErr_eq { c.dropLeaf k with nextId := c.nextId + 1 } leaf.peerAddr e with
        h' | h' <;> rw [h']
      · exact .of_eq rfl
      · exact .removeConnection rfl fun he' => hf ⟨hok, leaf, hl, hs, ha, he'.symm⟩
    · exact .of_eq rfl
    · exact .update (establish_connections ..) fun _ h => by
        rw [show c.connections leaf.peerAddr = some conn from hcn, Option.some.injEq] at h
        subst h; rfl
  | driverFailed q =>
    rcases step_driverFailed h with rfl | ⟨d, -, -, rfl, hd'⟩
    · exact .of_eq rfl
    · exact .removeConnection rfl fun he => hf ⟨d, hd', he.symm⟩
  | incoming a' =>
    rcases step_incoming h with rfl | ⟨-, rfl⟩
    · exact .of_eq rfl
    · exact handleNewConn_kept a'
  | read q msg =>
    rcases step_read h with rfl | ⟨r, -, rfl⟩
    · exact .of_eq rfl
    · exact readFromPeer_kept _ _ _
  | readFailed q e =>
    rcases step_readFailed h with rfl | ⟨r, -, rfl, hr⟩
    · exact .of_eq rfl
    · exact .removeConnection rfl fun he => hf ⟨r, hr, he.symm⟩
  | writeFailed q e =>
    rcases step_writeFailed h with rfl | ⟨w, -, rfl, hw⟩
    · exact .of_eq rfl
    · exact .removeConnection rfl fun he => hf ⟨w, hw, he.symm⟩

/-- A failure callback that runs removes the record stored for its address,
and changes no other. -/
theorem step_failsAt {l : Label} (h : step env c l = .ok c') (hf : l.FailsAt c a) :
    c'.connections = Function.update c.connections a none := by
  cases l with
  | terminator k =>
    obtain ⟨leaf, hl, hs, rfl⟩ := hf
    simp only [step, hl, hs, if_true] at h
    cases h; rfl
  | handshake k ok =>
    obtain ⟨rfl, leaf, hl, hs, ha, rfl⟩ := hf
    simp only [step, hl, hs, ha, not_false_eq_true, and_self, if_true] at h
    cases h; rfl
  | driverFailed q =>
    obtain ⟨d, hd, rfl⟩ := hf
    simp only [step, hd] at h
    cases h; cases d.outbound <;> rfl
  | readFailed q e =>
    obtain ⟨r, hr, rfl⟩ := hf
    simp only [step, hr] at h
    cases h; rfl
  | writeFailed q e =>
    obtain ⟨w, hw, rfl⟩ := hf
    simp only [step, hw] at h
    cases h; rfl
  | _ => cases hf

end kept

/-- **Failure callbacks are keyed by address.** A record leaves the table only
through a failure callback for its address, a `connect_to` for it that fails,
or `disconnect_from` for it; and a failure callback that runs removes whatever
record is stored for its address, whichever attempt or session that record
holds, and touches no other. -/
theorem record_removed_only_at_own_address {env : Env} {c c' : Context} {l : Label}
    (h : step env c l = .ok c') :
    (∀ a conn, c.connections a = some conn →
      (∀ conn', c'.connections a = some conn' → conn'.lifetime ≠ conn.lifetime) →
      l.FailsAt c a ∨ l.ConnectFails env a ∨ l = .disconnectFrom a) ∧
    (∀ a, l.FailsAt c a → c'.connections = Function.update c.connections a none) := by
  refine ⟨fun a conn ha hgone => ?_, fun a => step_failsAt h⟩
  by_contra hn
  obtain ⟨conn', hc', hl⟩ := step_kept h (fun hf => hn (.inl hf)) (fun hc => hn (.inr (.inl hc)))
    (fun hd => hn (.inr (.inr hd))) conn ha
  exact hgone conn' hc' hl

theorem record_removed_only_at_own_address_driver :
    let env : Env := ⟨.node, [9], fun d => !d.isEmpty, fun _ => true, 64⟩
    ∃ c c', step env c (.driverFailed 1) = .ok c' ∧
      (∀ a conn, c.connections a = some conn →
        (∀ conn', c'.connections a = some conn' → conn'.lifetime ≠ conn.lifetime) →
        (Label.driverFailed 1).FailsAt c a ∨ (Label.driverFailed 1).ConnectFails env a ∨
          Label.driverFailed 1 = .disconnectFrom a) ∧
      (∀ a, (Label.driverFailed 1).FailsAt c a →
        c'.connections = Function.update c.connections a none) := by
  intro env
  refine ⟨{ Context.init.setConn 1 ⟨.initiated 2 [1] [], .noConnection, none, true, 2⟩ with
    drivers := [⟨1, 1, true⟩] }, _, rfl, ?_⟩
  exact @record_removed_only_at_own_address env _ _ _ rfl

/-- A stale driver: the outbound session of the first record for address 1
fails after that record was removed and a new attempt installed `Initiated`;
`handle_connect_err` removes the new record. -/
theorem stale_driver_removes_newer_record :
    let env : Env := ⟨.node, [9], fun d => !d.isEmpty, fun _ => true, 64⟩
    ∃ c c', exec env .init [.connectTo ⟨1, [1]⟩ none, .handshake 0 true, .connectTo ⟨1, []⟩ none,
        .connectTo ⟨1, [1]⟩ none] = .ok c ∧
      step env c (.driverFailed 1) = .ok c' ∧
      (⟨1, 1, true⟩ : Driver) ∈ c.drivers ∧
      c.connections 1 = some ⟨.initiated 2 [1] [], .noConnection, none, true, 2⟩ ∧
      c'.connections 1 = none := by
  intro env
  exact ⟨_, _, rfl, rfl, by decide, rfl, rfl⟩

end QuicP2p
