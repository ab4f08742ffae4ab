/-
# Success events and the order of the event channel

A record sends one success event in its lifetime: `ConnectedTo`, or
`BootstrappedTo` when it holds a group ref, sent by whichever of
`handle_new_connection_res` and `handle_new_conn` brings its second half up;
the messages from its peer come after it. Events carry the lifetime of the
record they are about, so "per lifetime" is "per tag".

Every step appends to the channel, and what it appends is one of four things
(`EventFacts`): what the drops of the records it removes send (`Drops`); the
success event of the `Initiated` record it establishes, with the reads its
inbound half held back; the success event of the record whose inbound half it
fills; or a read dispatched to a record that is up. A drop can report a
lifetime the same step handed out (`connect_to` makes the record, then
`connect_with` fails), so the address of each lifetime is carried as a map that
each step extends (`Placed`). From that, `EventInv` holds in every reachable
context.

The group is what `BootstrappedTo` does not protect: a Node's member fires when
its inbound half arrives, and by then its own handshake is past the
terminator that the group's first success signals.

Key definitions: `successCount`, `successFirst`, `Placed`, `Drops`, `EventFacts`,
`EventInv`, `SuccessStep`.
Key theorems: `Drops.removeConnection`, `step_eventFacts`, `EventInv.step`,
`Reachable.eventInv`, `Reachable.drained`.
-/
import QuicP2p.Lifetime

namespace QuicP2p

/-! ### Events -/

theorem Event.isSuccess_of_isNewMessage {e : Event} (h : e.isNewMessage) : e.isSuccess = false := by
  cases e <;> simp_all [Event.isNewMessage, Event.isSuccess]

@[simp] theorem Connection.successEvent_peerAddr (conn : Connection) (nodeInfo : NodeInfo) :
    (conn.successEvent nodeInfo).peerAddr = nodeInfo.peerAddr := by
  unfold Connection.successEvent; split <;> rfl

@[simp] theorem Connection.successEvent_isSuccess (conn : Connection) (nodeInfo : NodeInfo) :
    (conn.successEvent nodeInfo).isSuccess = true := by
  unfold Connection.successEvent; split <;> rfl

@[simp] theorem Connection.successEvent_isNewMessage (conn : Connection) (nodeInfo : NodeInfo) :
    (conn.successEvent nodeInfo).isNewMessage = false := by
  unfold Connection.successEvent; split <;> rfl

@[simp] theorem FromPeer.isReady_drain (f : FromPeer) : f.drain.isReady = f.isReady := by
  cases f <;> rfl

@[simp] theorem FromPeer.isReady_buffer (f : FromPeer) (msg : WireMsg) :
    (f.buffer msg).isReady = f.isReady := by
  cases f <;> rfl

/-- An inbound half that is not ready holds no reads. -/
theorem FromPeer.pendingReads_of_not_isReady {f : FromPeer} (h : f.isReady = false) :
    f.pendingReads = [] := by
  cases f <;> simp_all [FromPeer.isReady, FromPeer.pendingReads]

/-- A dispatched read sends `NewMessage`s only, about the peer, with the
record's tag. -/
theorem mem_dispatchedEvents {lifetime : ℕ} {peer : Peer} {msg : WireMsg} {e : ℕ × Event}
    (h : e ∈ dispatchedEvents lifetime peer msg) :
    e.1 = lifetime ∧ e.2.isNewMessage ∧ e.2.isSuccess = false ∧ e.2.peerAddr = peer.peerAddr := by
  cases msg <;> simp only [dispatchedEvents, List.mem_singleton, List.not_mem_nil] at h
  subst h
  exact ⟨rfl, rfl, rfl, rfl⟩

/-- The success event `handle_new_conn` sends, if any, is the record's. -/
theorem mem_inboundEvents {conn : Connection} {peerAddr : SocketAddr} {e : ℕ × Event}
    (h : e ∈ inboundEvents conn peerAddr) : ∃ cert q, conn.toPeer = .established cert q ∧
      e = (conn.lifetime, conn.successEvent ⟨peerAddr, cert⟩) := by
  cases ht : conn.toPeer <;>
    simp only [inboundEvents, ht, List.mem_singleton, List.not_mem_nil] at h
  exact ⟨_, _, rfl, h⟩

/-- A drop sends `UnsentUserMessage`s and `ConnectionFailure`, about the
record's address, with its tag. -/
theorem mem_dropped {c : Context} {a : SocketAddr} {cause : Option Error} {e : ℕ × Event}
    (h : e ∈ c.dropped a cause) : ∃ conn, c.connections a = some conn ∧ conn.lifetime = e.1 ∧
      e.2.peerAddr = a ∧ e.2.isSuccess = false ∧ e.2.isNewMessage = false := by
  unfold Context.dropped at h
  split at h
  · rename_i conn hc
    obtain ⟨ev, hev, rfl⟩ := List.mem_map.1 h
    refine ⟨conn, hc, rfl, ?_⟩
    simp only [Connection.dropEvents, List.mem_append, List.mem_map] at hev
    rcases hev with ⟨msg, -, rfl⟩ | ⟨err, -, rfl⟩ <;> exact ⟨rfl, rfl, rfl⟩
  · cases h

/-! ### Counting success events, and their place -/

/-- The success events tagged `t`. -/
def successCount (t : ℕ) (es : List (ℕ × Event)) : ℕ :=
  es.countP fun e => e.1 == t && e.2.isSuccess

/-- Every `NewMessage` tagged `t` comes after a success event tagged `t`. -/
def successFirst (t : ℕ) : List (ℕ × Event) → Bool
  | [] => true
  | e :: es =>
    if e.1 = t then e.2.isSuccess || (!e.2.isNewMessage && successFirst t es) else successFirst t es

section order

variable {t : ℕ} {e : ℕ × Event} {es es' : List (ℕ × Event)}

@[simp] theorem successCount_append :
    successCount t (es ++ es') = successCount t es + successCount t es' :=
  List.countP_append ..

theorem successCount_eq_zero : successCount t es = 0 ↔ ∀ e ∈ es, e.1 = t → e.2.isSuccess = false := by
  simp [successCount, List.countP_eq_zero]

theorem successCount_pos : 0 < successCount t es ↔ ∃ e ∈ es, e.1 = t ∧ e.2.isSuccess := by
  simp [successCount, List.countP_pos_iff]

/-- A list with no `NewMessage` tagged `t` is in order for `t`. -/
theorem successFirst_of_no_message (h : ∀ e ∈ es, e.1 = t → e.2.isNewMessage = false) :
    successFirst t es := by
  induction es with
  | nil => rfl
  | cons e es ih =>
    simp only [List.mem_cons, forall_eq_or_imp] at h
    unfold successFirst
    split
    · simp [h.1 ‹_›, ih h.2]
    · exact ih h.2

/-- Appending keeps the order for `t` once `t`'s success event is in, or when
the appended part is in order itself. -/
theorem successFirst_append (h : successFirst t es)
    (h' : 0 < successCount t es ∨ successFirst t es') : successFirst t (es ++ es') := by
  induction es with
  | nil => simpa [successCount] using h'
  | cons e es ih =>
    have hcount : e.1 = t → e.2.isSuccess = false → successCount t (e :: es) = successCount t es := by
      intro he hs; simp [successCount, List.countP_cons, he, hs]
    have hcount' : e.1 ≠ t → successCount t (e :: es) = successCount t es := by
      intro he; simp [successCount, List.countP_cons, he]
    rw [List.cons_append]
    unfold successFirst at h ⊢
    split at h
    · rename_i he
      rw [if_pos he]
      cases hs : e.2.isSuccess
      · simp only [hs, Bool.false_or, Bool.and_eq_true] at h ⊢
        exact ⟨h.1, ih h.2 (hcount he hs ▸ h')⟩
      · rfl
    · rename_i he
      rw [if_neg he]
      exact ih h (hcount' he ▸ h')

/-- In an ordered list a `NewMessage` tagged `t` has a success event tagged `t`
before it. -/
theorem exists_success_before (h : successFirst t (es ++ e :: es')) (ht : e.1 = t)
    (hm : e.2.isNewMessage) : ∃ s ∈ es, s.1 = t ∧ s.2.isSuccess := by
  induction es with
  | nil => simp [successFirst, ht, hm, Event.isSuccess_of_isNewMessage hm] at h
  | cons s es ih =>
    rw [List.cons_append] at h
    unfold successFirst at h
    have later : (∃ s ∈ es, s.1 = t ∧ s.2.isSuccess) → ∃ s' ∈ s :: es, s'.1 = t ∧ s'.2.isSuccess :=
      fun ⟨s', hs', h'⟩ => ⟨s', List.mem_cons_of_mem _ hs', h'⟩
    split at h
    · cases hs : s.2.isSuccess
      · simp only [hs, Bool.false_or, Bool.and_eq_true] at h
        exact later (ih h.2)
      · exact ⟨s, List.mem_cons_self _ _, ‹_›, hs⟩
    · exact later (ih h)

end order

/-! ### Which address a lifetime is at -/

/-- `f` sends the lifetime of every record to the record's address. -/
def AddrMap (f : ℕ → SocketAddr) (c : Context) : Prop :=
  ∀ a conn, c.connections a = some conn → f conn.lifetime = a

/-- The events `new` of a step from `c` to `c'` carry lifetimes handed out by
its end, and a map of the lifetimes of `c`'s records to their addresses
extends, past the counter of `c`, to one that sends each new event's tag to the
event's address and each record of `c'` to its own. -/
structure Placed (c c' : Context) (new : List (ℕ × Event)) : Prop where
  tag_lt : ∀ e ∈ new, e.1 < c'.nextId
  addr : ∀ f, AddrMap f c → ∃ f', (∀ t < c.nextId, f' t = f t) ∧
    (∀ e ∈ new, e.2.peerAddr = f' e.1) ∧ AddrMap f' c'

section placed

variable {c c₁ c' : Context} {new new' : List (ℕ × Event)}

/-- A step that changes the record at one address, keeping its lifetime or
making it with the counter's number, and sends events about records of `c`. -/
theorem Placed.of_update (hlt : c.AllRecords (·.lifetime < c.nextId)) (hn : c.nextId ≤ c'.nextId)
    {a : SocketAddr} {o : Option Connection} (hc : c'.connections = Function.update c.connections a o)
    (ho : ∀ x, o = some x →
      (∃ conn, c.connections a = some conn ∧ conn.lifetime = x.lifetime) ∨ x.lifetime = c.nextId)
    (htag : ∀ e ∈ new, ∃ b conn, c.connections b = some conn ∧ conn.lifetime = e.1 ∧
      e.2.peerAddr = b) :
    Placed c c' new := by
  have old : ∀ f b conn, AddrMap f c → c.connections b = some conn →
      Function.update f c.nextId a conn.lifetime = b := fun f b conn hf hb => by
    rw [Function.update_noteq (Nat.ne_of_lt (hlt b conn hb)), hf b conn hb]
  refine ⟨fun e he => ?_, fun f hf => ⟨Function.update f c.nextId a,
    fun t ht => Function.update_noteq (Nat.ne_of_lt ht) _ _, fun e he => ?_, fun b conn' hb => ?_⟩⟩
  · obtain ⟨b, conn, hb, hl, -⟩ := htag e he
    exact hl ▸ Nat.lt_of_lt_of_le (hlt b conn hb) hn
  · obtain ⟨b, conn, hb, hl, ha⟩ := htag e he
    rw [← hl, old f b conn hf hb, ha]
  · rw [hc] at hb
    by_cases hba : b = a
    · subst hba
      rw [Function.update_same] at hb
      rcases ho conn' hb with ⟨conn, h₀, hl⟩ | hl
      · rw [← hl, old f b conn hf h₀]
      · rw [hl, Function.update_same]
    · rw [Function.update_noteq hba] at hb
      exact old f b conn' hf hb

/-- A step that keeps the records. -/
theorem Placed.of_eq (hlt : c.AllRecords (·.lifetime < c.nextId)) (hn : c.nextId ≤ c'.nextId)
    (hc : c'.connections = c.connections)
    (htag : ∀ e ∈ new, ∃ b conn, c.connections b = some conn ∧ conn.lifetime = e.1 ∧
      e.2.peerAddr = b) :
    Placed c c' new :=
  .of_update hlt hn (hc.trans (Function.update_eq_self 0 c.connections).symm)
    (fun x hx => .inl ⟨x, hx, rfl⟩) htag

/-- A removal, from a context with the records of `c`: its drop reports the
record's lifetime at its address. -/
theorem Placed.removeConnection (hlt : c.AllRecords (·.lifetime < c.nextId))
    (hc : c₁.connections = c.connections) (hn : c.nextId ≤ c₁.nextId) (a : SocketAddr)
    (cause : Option Error) : Placed c (c₁.removeConnection a cause) (c₁.dropped a cause) :=
  .of_update hlt hn (by rw [Context.removeConnection_connections, hc]) (fun _ h => by cases h)
    fun e he => by
      obtain ⟨conn, h, hl, ha, -⟩ := mem_dropped he
      exact ⟨a, conn, hc ▸ h, hl, ha⟩

theorem Placed.trans (h₁ : Placed c c₁ new) (h₂ : Placed c₁ c' new') (hn₁ : c.nextId ≤ c₁.nextId)
    (hn₂ : c₁.nextId ≤ c'.nextId) : Placed c c' (new ++ new') := by
  refine ⟨fun e he => ?_, fun f hf => ?_⟩
  · rcases List.mem_append.1 he with he | he
    · exact Nat.lt_of_lt_of_le (h₁.tag_lt e he) hn₂
    · exact h₂.tag_lt e he
  obtain ⟨f₁, hag₁, hnew₁, hf₁⟩ := h₁.addr f hf
  obtain ⟨f₂, hag₂, hnew₂, hf₂⟩ := h₂.addr f₁ hf₁
  refine ⟨f₂, fun t ht => (hag₂ t (Nat.lt_of_lt_of_le ht hn₁)).trans (hag₁ t ht), fun e he => ?_, hf₂⟩
  rcases List.mem_append.1 he with he | he
  · rw [hnew₁ e he, hag₂ _ (h₁.tag_lt e he)]
  · exact hnew₂ e he

end placed

/-! ### What one step sends -/

/-- Every record that is up after the step was there before, unchanged. -/
def ReadyKept (c c' : Context) : Prop :=
  ∀ a conn', c'.connections a = some conn' → conn'.ready → c.connections a = some conn'

section readyKept

variable {env : Env} {c c₁ c' : Context}

theorem ReadyKept.of_sub (h : ∀ b conn', c'.connections b = some conn' → c.connections b = some conn') :
    ReadyKept c c' :=
  fun a conn' h' _ => h a conn' h'

theorem ReadyKept.trans (h₁ : ReadyKept c c₁) (h₂ : ReadyKept c₁ c') : ReadyKept c c' :=
  fun a conn' h hr => h₁ a conn' (h₂ a conn' h hr) hr

/-- A step that stores a record that is not up. -/
theorem ReadyKept.update {a : SocketAddr} {x : Connection}
    (hc : c'.connections = Function.update c.connections a (some x)) (hx : x.ready = false) :
    ReadyKept c c' := by
  intro b conn' hb hr
  rw [hc] at hb
  by_cases hba : b = a
  · subst hba
    rw [Function.update_same, Option.some.injEq] at hb
    rw [← hb, hx] at hr; cases hr
  · rwa [Function.update_noteq hba] at hb

theorem connectTo_readyKept {peerInfo : NodeInfo} {m : Option WireMsg} {g : Option ℕ}
    {r : Except Error Unit} (h : connectTo env c peerInfo m g = .ok (c', r)) : ReadyKept c c' := by
  have hi : ReadyKept c (installed env c peerInfo m g) :=
    .update (installed_connections ..) (by simp [Connection.ready, ToPeer.isEstablished])
  rcases connectTo_cases h with ⟨-, rfl⟩ | rfl | ⟨-, rfl | ⟨-, rfl⟩⟩
  · exact .of_sub fun _ _ h => removeConnection_sub h
  · exact .of_sub fun _ _ h => h
  · exact hi
  · exact hi.trans (.of_sub fun _ _ h => removeConnection_sub h)

theorem bootstrap_readyKept {proxies : List NodeInfo} {m : Option WireMsg}
    (h : bootstrap env c proxies m = .ok c') : ReadyKept c c' :=
  bootstrap_induction (ReadyKept c) (.of_sub fun _ _ h => h)
    (fun _ _ _ _ _ h₁ h₂ => h₁.trans (connectTo_readyKept h₂)) h

theorem readFromPeer_readyKept (a : SocketAddr) (q : QConn) (msg : WireMsg) :
    ReadyKept c (readFromPeer c a q msg) := by
  cases hc : c.connections a with
  | none => rw [readFromPeer_of_none hc]; exact .of_sub fun _ _ h => h
  | some conn =>
    cases hr : conn.ready
    · rw [readFromPeer_of_not_ready hc hr]
      exact .update rfl (by simpa [Connection.ready] using hr)
    · rw [readFromPeer_of_ready hc hr]; exact .of_sub fun _ _ h => h

end readyKept

/-- The success event `e` is the one the record for some address sends in the
step from `c` to `c'`: the record was there, not up, and is up after it,
`Established` with the certificate the event's `NodeInfo` carries. The event is
`BootstrappedTo` exactly when the record held a group ref, which it gave up
after finishing the group. -/
def Fires (c c' : Context) (e : ℕ × Event) : Prop :=
  ∃ a conn conn' cert q, c.connections a = some conn ∧ c'.connections a = some conn' ∧
    conn.lifetime = e.1 ∧ conn'.lifetime = e.1 ∧ conn.ready = false ∧ conn'.ready ∧
    conn'.toPeer = .established cert q ∧ e.2 = conn.successEvent ⟨a, cert⟩ ∧
    conn'.bootstrapGroupRef = none ∧ ∀ g, conn.bootstrapGroupRef = some g → g ∈ c'.finishedGroups

/-- What a step from `c` to `c'` appends to the event channel, `new`, seen from
the records. -/
structure EventFacts (c c' : Context) (new : List (ℕ × Event)) : Prop where
  /-- The step appends `new`. -/
  events : c'.events = c.events ++ new
  /-- A new event is about the address of the lifetime it carries. -/
  placed : Placed c c' new
  /-- A new success event is sent by a record the step brings up. -/
  fired : ∀ e ∈ new, e.2.isSuccess → Fires c c' e
  /-- A record the step brings up sends its success event, then the messages of
  the reads it buffered, in the order read, and the step sends nothing else. -/
  up : ∀ a conn conn', c.connections a = some conn → c'.connections a = some conn' →
    conn.ready = false → conn'.ready → ∃ cert q, conn'.toPeer = .established cert q ∧
      new = (conn.lifetime, conn.successEvent ⟨a, cert⟩) ::
        conn.fromPeer.pendingReads.flatMap (dispatchedEvents conn.lifetime (.node ⟨a, cert⟩))
  /-- New messages of a lifetime come after its new success event, unless its
  record was up already. -/
  messages : ∀ t, successFirst t new ∨
    ∃ a conn, c.connections a = some conn ∧ conn.lifetime = t ∧ conn.ready

/-- A step that brings no record up and sends only what the drops of the
records it removes send. -/
structure Drops (c c' : Context) (new : List (ℕ × Event)) : Prop where
  events : c'.events = c.events ++ new
  placed : Placed c c' new
  kept : ReadyKept c c'
  quiet : ∀ e ∈ new, e.2.isSuccess = false ∧ e.2.isNewMessage = false
  nextId_le : c.nextId ≤ c'.nextId

section drops

variable {env : Env} {c c₁ c' : Context} {new new' : List (ℕ × Event)}
  (hlt : c.AllRecords (·.lifetime < c.nextId))
include hlt

/-- A step that keeps the records and sends nothing. -/
theorem Drops.of_eq (hc : c'.connections = c.connections) (he : c'.events = c.events)
    (hn : c.nextId ≤ c'.nextId) : Drops c c' [] where
  events := by rw [he, List.append_nil]
  placed := .of_eq hlt hn hc fun _ h => by cases h
  kept := .of_sub fun _ _ h => hc ▸ h
  quiet := fun _ h => by cases h
  nextId_le := hn

/-- A change of one record, within its lifetime, that leaves it not up. -/
theorem Drops.setConn {a : SocketAddr} {conn x : Connection} (hc : c.connections a = some conn)
    (hl : x.lifetime = conn.lifetime) (hx : x.ready = false) : Drops c (c.setConn a x) [] where
  events := (List.append_nil _).symm
  placed := .of_update hlt (Nat.le_refl _) rfl (fun _ h => by cases h; exact .inl ⟨conn, hc, hl.symm⟩)
    fun _ h => by cases h
  kept := .update rfl hx
  quiet := fun _ h => by cases h
  nextId_le := (Nat.le_refl _)

/-- A removal, from a context with the records and the events of `c`. -/
theorem Drops.removeConnection (hc : c₁.connections = c.connections) (he : c₁.events = c.events)
    (hn : c.nextId ≤ c₁.nextId) (a : SocketAddr) (cause : Option Error) :
    Drops c (c₁.removeConnection a cause) (c₁.dropped a cause) where
  events := by rw [Context.removeConnection_events, he]
  placed := .removeConnection hlt hc hn a cause
  kept := .of_sub fun _ _ h => hc ▸ (removeConnection_sub h :)
  quiet := fun _ he => by obtain ⟨-, -, -, -, h⟩ := mem_dropped he; exact h
  nextId_le := hn

omit hlt in
theorem Drops.trans (h₁ : Drops c c₁ new) (h₂ : Drops c₁ c' new') : Drops c c' (new ++ new') where
  events := by rw [h₂.events, h₁.events, List.append_assoc]
  placed := h₁.placed.trans h₂.placed h₁.nextId_le h₂.nextId_le
  kept := h₁.kept.trans h₂.kept
  quiet := fun e he => (List.mem_append.1 he).elim (h₁.quiet e) (h₂.quiet e)
  nextId_le := Nat.le_trans h₁.nextId_le h₂.nextId_le

end drops

section facts

variable {env : Env} {c c₁ c' : Context} {l : Label}

/-- `connect_to` brings no record up; it sends the drop events of the record it
removes, if any: the one it found, or the one it made. -/
theorem connectTo_drops (hL : LifetimeInv c) {peerInfo : NodeInfo} {m : Option WireMsg}
    {g : Option ℕ} {r : Except Error Unit} (h : connectTo env c peerInfo m g = .ok (c', r)) :
    ∃ new, Drops c c' new := by
  have hlt := hL.lifetime_lt
  have hi : Drops c (installed env c peerInfo m g) [] :=
    ⟨by simp, .of_update hlt (by simp) (installed_connections ..)
        (fun _ h => by cases h; exact initiatedRecord_origin ..) (fun _ h => by cases h),
      .update (installed_connections ..) (by simp [Connection.ready, ToPeer.isEstablished]),
      fun _ h => (by cases h), by simp⟩
  have hlt' : (installed env c peerInfo m g).AllRecords
      (·.lifetime < (installed env c peerInfo m g).nextId) := hL.installed.lifetime_lt
  rcases connectTo_cases h with ⟨-, rfl⟩ | rfl | ⟨-, rfl | ⟨-, rfl⟩⟩
  · exact ⟨_, .removeConnection hlt rfl rfl (Nat.le_refl _) _ _⟩
  · exact ⟨[], .of_eq hlt rfl rfl (Nat.le_refl _)⟩
  · exact ⟨[] ++ [], hi.trans (.of_eq hlt' rfl rfl (Nat.le_refl _))⟩
  · exact ⟨_, hi.trans (.removeConnection hlt' rfl rfl (Nat.le_refl _) _ _)⟩

/-- A bootstrap is its `connect_to` calls: it brings no record up, and sends
the drop events of the records they remove. -/
theorem bootstrap_drops (hL : LifetimeInv c) {proxies : List NodeInfo} {m : Option WireMsg}
    (h : bootstrap env c proxies m = .ok c') : ∃ new, Drops c c' new :=
  (bootstrap_induction (fun c₁ => (∃ new, Drops c c₁ new) ∧ LifetimeInv c₁)
    ⟨⟨[], .of_eq hL.lifetime_lt rfl rfl (Nat.le_succ _)⟩, hL.of_sub (fun _ _ h => h) (Nat.le_succ _)⟩
    (fun _ _ _ _ _ ⟨⟨_, hd⟩, hL₁⟩ h₂ =>
      let ⟨_, hd₂⟩ := connectTo_drops hL₁ h₂
      ⟨⟨_, hd.trans hd₂⟩, hL₁.connectTo h₂⟩) h).1

/-- A step that brings no record up. -/
theorem Drops.eventFacts {new : List (ℕ × Event)} (hd : Drops c c' new) : EventFacts c c' new where
  events := hd.events
  placed := hd.placed
  fired := fun e he hs => by rw [(hd.quiet e he).1] at hs; cases hs
  up := fun a conn conn' h h' hr hr' => by
    obtain rfl : conn' = conn := Option.some.inj ((hd.kept a conn' h' hr').symm.trans h)
    rw [hr] at hr'; cases hr'
  messages := fun _ => .inl (successFirst_of_no_message fun e he _ => (hd.quiet e he).2)

/-- `establish` on a context with the records and events of `c`: the success
event when the inbound half is ready, then the drained reads. -/
theorem EventFacts.establish (hlt : c.AllRecords (·.lifetime < c.nextId)) {c₀ : Context}
    (hc₀ : c₀.connections = c.connections) (he₀ : c₀.events = c.events) (hn₀ : c.nextId ≤ c₀.nextId)
    {a : SocketAddr} {conn : Connection} {k : ℕ} {cert : CertDer}
    {ps : List WireMsg} (q : QConn) (hc : c.connections a = some conn)
    (ht : conn.toPeer = .initiated k cert ps) :
    EventFacts c (QuicP2p.establish env c₀ a conn cert ps q)
      ((if conn.fromPeer.isReady then [(conn.lifetime, conn.successEvent ⟨a, cert⟩)] else []) ++
        conn.fromPeer.pendingReads.flatMap (dispatchedEvents conn.lifetime (.node ⟨a, cert⟩))) := by
  have hnr : conn.ready = false := by simp [Connection.ready, ht, ToPeer.isEstablished]
  have hc' : (QuicP2p.establish env c₀ a conn cert ps q).connections a =
      some (establishedRecord conn cert q) := by simp
  have hother : ∀ b, b ≠ a → (QuicP2p.establish env c₀ a conn cert ps q).connections b =
      c.connections b := fun b hb => by simp [Function.update_noteq hb, hc₀]
  have hmsgs : ∀ e ∈ conn.fromPeer.pendingReads.flatMap
      (dispatchedEvents conn.lifetime (.node ⟨a, cert⟩)),
      e.1 = conn.lifetime ∧ e.2.isNewMessage ∧ e.2.isSuccess = false ∧ e.2.peerAddr = a := by
    intro e he
    obtain ⟨msg, -, he⟩ := List.mem_flatMap.1 he
    simpa [Peer.peerAddr] using mem_dispatchedEvents he
  refine ⟨by rw [establish_events, he₀, List.append_assoc], .of_update hlt (by simpa using hn₀)
    (by rw [establish_connections, hc₀]) (fun _ h => by cases h; exact .inl ⟨conn, hc, rfl⟩)
    fun e he => ?_, fun e he hs => ?_, fun b conn₀ conn₀' h₀ h₀' hr hr' => ?_, fun t => .inl ?_⟩
  · rcases List.mem_append.1 he with he | he
    · split at he
      · obtain rfl := List.mem_singleton.1 he
        exact ⟨a, conn, hc, rfl, by simp⟩
      · cases he
    · obtain ⟨h₁, -, -, h₄⟩ := hmsgs e he
      exact ⟨a, conn, hc, h₁.symm, h₄⟩
  · rcases List.mem_append.1 he with he | he
    · split at he
      · rename_i hr
        obtain rfl := List.mem_singleton.1 he
        refine ⟨a, conn, _, cert, q, hc, hc', rfl, rfl, hnr, ?_, rfl, rfl, ?_,
          fun g hg => mem_establish_finishedGroups _ _ _ _ _ _ _ hr hg⟩
        · simp [Connection.ready, ToPeer.isEstablished, hr]
        · simp [establishedRecord, hr]
      · cases he
    · rw [(hmsgs e he).2.2.1] at hs; cases hs
  · by_cases hba : b = a
    · subst hba
      rw [hc, Option.some.injEq] at h₀; subst h₀
      rw [hc', Option.some.injEq] at h₀'; subst h₀'
      have hready : conn.fromPeer.isReady := by
        simpa [Connection.ready, ToPeer.isEstablished] using hr'
      exact ⟨cert, q, rfl, by simp [hready]⟩
    · rw [hother b hba, h₀, Option.some.injEq] at h₀'; subst h₀'
      rw [hr] at hr'; cases hr'
  · by_cases hr : conn.fromPeer.isReady
    · by_cases htl : conn.lifetime = t
      · subst htl; simp [hr, successFirst]
      · refine successFirst_of_no_message fun e he het => absurd ?_ htl
        rcases List.mem_append.1 he with he | he
        · simp only [hr, if_true, List.mem_singleton] at he
          rw [← het, he]
        · exact (hmsgs e he).1.symm.trans het
    · simp [hr, FromPeer.pendingReads_of_not_isReady (Bool.eq_false_iff.2 hr), successFirst]

/-- `handle_new_conn` on a free inbound half: the success event when the
outbound half is up. -/
theorem EventFacts.handleNewConn (hlt : c.AllRecords (·.lifetime < c.nextId)) {a : SocketAddr}
    {conn : Connection} (hconn : (c.connections a).getD (Connection.new false none c.nextId) = conn)
    (hf : conn.fromPeer = .noConnection) :
    EventFacts c (QuicP2p.handleNewConn c a) (inboundEvents conn a) := by
  have hc' : (QuicP2p.handleNewConn c a).connections a = some (inboundRecord conn c.nextId) := by
    rw [handleNewConn_connections_of_free hconn hf, Function.update_same]
  have hother : ∀ b, b ≠ a → (QuicP2p.handleNewConn c a).connections b = c.connections b :=
    fun b hb => by rw [handleNewConn_connections_of_free hconn hf, Function.update_noteq hb]
  have hold : ∀ conn₀, c.connections a = some conn₀ → conn₀ = conn := fun conn₀ h => by
    rw [h] at hconn; exact hconn
  have hpre : ∀ cert q, conn.toPeer = .established cert q → c.connections a = some conn := by
    intro cert q ht
    cases hc : c.connections a with
    | none => rw [hc] at hconn; rw [← hconn] at ht; cases ht
    | some conn₀ => rw [hold conn₀ hc]
  have hnr : conn.ready = false := by simp [Connection.ready, hf, FromPeer.isReady]
  refine ⟨handleNewConn_events_of_free hconn hf, .of_update hlt (by simp)
    (handleNewConn_connections_of_free hconn hf) (fun _ h => by cases h; exact inboundRecord_origin hconn _)
    fun e he => ?_, fun e he _ => ?_, fun b conn₀ conn₀' h₀ h₀' hr hr' => ?_, fun t => .inl ?_⟩
  · obtain ⟨cert, q, ht, rfl⟩ := mem_inboundEvents he
    exact ⟨a, conn, hpre cert q ht, rfl, by simp⟩
  · obtain ⟨cert, q, ht, rfl⟩ := mem_inboundEvents he
    refine ⟨a, conn, _, cert, q, hpre cert q ht, hc', rfl, rfl, hnr, ?_, ht, rfl, ?_,
      fun g hg => mem_handleNewConn_finishedGroups_of_free hconn hf (by simp [ht, ToPeer.isEstablished]) hg⟩
    · simp [Connection.ready, ht, ToPeer.isEstablished, FromPeer.isReady]
    · simp [inboundRecord, ht, ToPeer.isEstablished]
  · by_cases hba : b = a
    · subst hba
      obtain rfl := hold conn₀ h₀
      rw [hc', Option.some.injEq] at h₀'; subst h₀'
      cases ht : conn₀.toPeer <;>
        simp only [Connection.ready, inboundRecord_toPeer, ht, ToPeer.isEstablished,
          Bool.false_and, Bool.false_eq_true] at hr'
      exact ⟨_, _, ht, by simp [inboundEvents, ht, hf, FromPeer.pendingReads]⟩
    · rw [hother b hba, h₀, Option.some.injEq] at h₀'; subst h₀'
      rw [hr] at hr'; cases hr'
  · refine successFirst_of_no_message fun e he _ => ?_
    obtain ⟨cert, q, -, rfl⟩ := mem_inboundEvents he
    simp

/-- A read dispatched to a record that is up: its messages, no success event. -/
theorem EventFacts.dispatch (hlt : c.AllRecords (·.lifetime < c.nextId)) {a : SocketAddr}
    {conn : Connection} (q : QConn) (msg : WireMsg) (hc : c.connections a = some conn)
    (hr : conn.ready) :
    EventFacts c (readFromPeer c a q msg) (dispatchedEvents conn.lifetime (conn.peer a) msg) := by
  rw [readFromPeer_of_ready hc hr]
  refine ⟨rfl, .of_eq hlt (Nat.le_refl _) rfl fun e he => ?_, fun e he hs => ?_,
    fun b conn₀ conn₀' h₀ h₀' hr₀ hr₀' => ?_, fun t => ?_⟩
  · obtain ⟨h₁, -, -, h₄⟩ := mem_dispatchedEvents he
    exact ⟨a, conn, hc, h₁.symm, by simpa using h₄⟩
  · rw [(mem_dispatchedEvents he).2.2.1] at hs; cases hs
  · obtain rfl : conn₀' = conn₀ := Option.some.inj ((show c.connections b = some conn₀' from h₀').symm.trans h₀)
    rw [hr₀] at hr₀'; cases hr₀'
  · by_cases ht : conn.lifetime = t
    · exact .inr ⟨a, conn, hc, ht, hr⟩
    · exact .inl (successFirst_of_no_message fun e he het =>
        absurd ((mem_dispatchedEvents he).1.symm.trans het) ht)

/-- **What one step sends.** Every step appends to the event channel, and what
it appends is described by `EventFacts`. -/
theorem step_eventFacts (hL : LifetimeInv c) (h : step env c l = .ok c') : ∃ new, EventFacts c c' new := by
  have hlt := hL.lifetime_lt
  have same : ∀ {c₁ : Context}, c₁.connections = c.connections → c₁.events = c.events →
      c.nextId ≤ c₁.nextId → ∃ new, EventFacts c c₁ new :=
    fun hc he hn => ⟨[], (Drops.of_eq hlt hc he hn).eventFacts⟩
  have removal : ∀ {c₁ : Context} (a : SocketAddr) (cause : Option Error),
      c₁.connections = c.connections → c₁.events = c.events → c.nextId ≤ c₁.nextId →
      ∃ new, EventFacts c (c₁.removeConnection a cause) new :=
    fun a cause hc he hn => ⟨_, (Drops.removeConnection hlt hc he hn a cause).eventFacts⟩
  cases l with
  | connectTo peerInfo m =>
    obtain ⟨r, h⟩ := step_connectTo h
    obtain ⟨new, hd⟩ := connectTo_drops hL h
    exact ⟨new, hd.eventFacts⟩
  | bootstrap proxies m =>
    obtain ⟨new, hd⟩ := bootstrap_drops hL h
    exact ⟨new, hd.eventFacts⟩
  | send peer msg =>
    rcases step_send h with ⟨a, conn, k, cert, ps, hc, -, rfl⟩ | ⟨a, q, rfl⟩ | ⟨info, r, -, h⟩ | rfl
    · refine ⟨[], (Drops.setConn hlt hc ?_ ?_).eventFacts⟩
      · rfl
      · simp [Connection.ready, ToPeer.isEstablished]
    · exact same rfl rfl (Nat.le_refl _)
    · obtain ⟨new, hd⟩ := connectTo_drops hL h
      exact ⟨new, hd.eventFacts⟩
    · exact same rfl rfl (Nat.le_refl _)
  | disconnectFrom a => cases h; exact removal a none rfl rfl (Nat.le_refl _)
  | terminator k =>
    rcases step_terminator h with rfl | ⟨-, -, -, -, rfl⟩ | ⟨l, -, -, rfl, -⟩
    · exact same rfl rfl (Nat.le_refl _)
    · exact same rfl rfl (Nat.le_refl _)
    · exact removal _ _ rfl rfl (Nat.le_refl _)
  | handshake k ok =>
    rcases step_handshake h with rfl | ⟨l, -, -, -, -, h, -⟩
    · exact same rfl rfl (Nat.le_refl _)
    rcases handleNewConnectionRes_cases h with ⟨e, -, rfl⟩ | ⟨q, -, -, rfl⟩ |
      ⟨q, conn, k', cert, ps, -, hc, ht, rfl⟩
    · rcases handleConnectErr_eq { c.dropLeaf k with nextId := c.nextId + 1 } l.peerAddr e with
        h' | h' <;> rw [h']
      · exact same rfl rfl (Nat.le_succ _)
      · exact removal _ _ rfl rfl (Nat.le_succ _)
    · exact same rfl rfl (Nat.le_succ _)
    · refine ⟨_, .establish hlt ?_ ?_ ?_ q (show c.connections _ = _ from hc) ht⟩ <;>
        first | rfl | exact Nat.le_succ _
  | driverFailed q =>
    rcases step_driverFailed h with rfl | ⟨d, -, -, rfl, -⟩
    · exact same rfl rfl (Nat.le_refl _)
    · exact removal _ _ rfl rfl (Nat.le_refl _)
  | incoming a =>
    rcases step_incoming h with rfl | ⟨-, rfl⟩
    · exact same rfl rfl (Nat.le_refl _)
    rcases handleNewConn_busy_or_free c a with ⟨conn, hc, hf⟩ | ⟨conn, hconn, hf⟩
    · rw [handleNewConn_of_busy hc hf]; exact same rfl rfl (Nat.le_succ _)
    · exact ⟨_, .handleNewConn hlt hconn hf⟩
  | read q msg =>
    rcases step_read h with rfl | ⟨r, -, rfl⟩
    · exact same rfl rfl (Nat.le_refl _)
    cases hc : c.connections r.peerAddr with
    | none => rw [readFromPeer_of_none hc]; exact same rfl rfl (Nat.le_refl _)
    | some conn =>
      cases hr : conn.ready
      · rw [readFromPeer_of_not_ready hc hr]
        refine ⟨[], (Drops.setConn hlt hc ?_ ?_).eventFacts⟩
        · rfl
        · simpa [Connection.ready] using hr
      · exact ⟨_, .dispatch hlt q msg hc hr⟩
  | readFailed q e =>
    rcases step_readFailed h with rfl | ⟨r, -, rfl, -⟩
    · exact same rfl rfl (Nat.le_refl _)
    · exact removal _ _ rfl rfl (Nat.le_refl _)
  | writeFailed q e =>
    rcases step_writeFailed h with rfl | ⟨w, -, rfl, -⟩
    · exact same rfl rfl (Nat.le_refl _)
    · exact removal _ _ rfl rfl (Nat.le_refl _)

/-- A record the step brings up sends exactly one success event in it. -/
theorem EventFacts.flip {new : List (ℕ × Event)} (hf : EventFacts c c' new) {a : SocketAddr}
    {conn conn' : Connection} (h : c.connections a = some conn) (h' : c'.connections a = some conn')
    (hr : conn.ready = false) (hr' : conn'.ready) : successCount conn.lifetime new = 1 := by
  obtain ⟨cert, q, -, rfl⟩ := hf.up a conn conn' h h' hr hr'
  have hmsgs : successCount conn.lifetime (conn.fromPeer.pendingReads.flatMap
      (dispatchedEvents conn.lifetime (.node ⟨a, cert⟩))) = 0 :=
    successCount_eq_zero.2 fun e he _ => by
      obtain ⟨msg, -, he⟩ := List.mem_flatMap.1 he
      exact (mem_dispatchedEvents he).2.2.1
  rw [← List.singleton_append, successCount_append, hmsgs]
  simp [successCount]

end facts

/-! ### Records that are up -/

/-- A record with an attempt in flight is not up. -/
theorem Connection.ready_eq_false_of_terminator {conn : Connection}
    (h : conn.toPeer.terminator?.isSome) : conn.ready = false := by
  obtain ⟨k, hk⟩ := Option.isSome_iff_exists.1 h
  obtain ⟨cert, ps, hk⟩ := ToPeer.terminator?_eq_some.1 hk
  simp [Connection.ready, hk, ToPeer.isEstablished]

/-- A record a step makes is not up. -/
theorem NewRecord.ready_eq_false {g : Option ℕ} {conn : Connection} (h : NewRecord g conn) :
    conn.ready = false := by
  cases h with
  | install h => exact Connection.ready_eq_false_of_terminator h.1
  | accept q lifetime => rfl

/-- A step leaves a record that is up as it is. -/
theorem StepRecord.eq_of_ready {g : Option ℕ} {conn conn' : Connection} (h : StepRecord g conn conn')
    (hr : conn.ready) : conn' = conn := by
  cases h with
  | install h =>
    rcases h with rfl | ⟨ht, -⟩
    · rfl
    · simp [Connection.ready, ht, ToPeer.isEstablished] at hr
  | establish q ht => simp [Connection.ready, ht, ToPeer.isEstablished] at hr
  | accept q hf => simp [Connection.ready, hf, FromPeer.isReady] at hr
  | buffer msg hnr => rw [hnr] at hr; cases hr
  | queue more ht => simp [Connection.ready, ht, ToPeer.isEstablished] at hr

/-- Within a lifetime a group ref is kept or given up, or joined from the step's
group when the record had none. -/
theorem StepRecord.ref {g : Option ℕ} {conn conn' : Connection} {g' : ℕ} (h : StepRecord g conn conn')
    (hg : conn'.bootstrapGroupRef = some g') : conn.bootstrapGroupRef = some g' ∨ g = some g' := by
  cases h with
  | install h =>
    rcases h with rfl | ⟨-, -, -, href⟩
    · exact .inl hg
    rw [href] at hg
    cases hc : conn.bootstrapGroupRef with
    | none => exact .inr (by simpa [hc] using hg)
    | some x => exact .inl (by simpa [hc] using hg)
  | establish q ht =>
    simp only [establishedRecord] at hg
    split at hg
    · cases hg
    · exact .inl hg
  | accept q hf =>
    simp only [inboundRecord] at hg
    split at hg
    · cases hg
    · exact .inl hg
  | buffer msg hnr => exact .inl hg
  | queue more ht => exact .inl hg

/-- A new record's group ref is the step's group. -/
theorem NewRecord.ref {g : Option ℕ} {conn : Connection} {g' : ℕ} (h : NewRecord g conn)
    (hg : conn.bootstrapGroupRef = some g') : g = some g' := by
  cases h with
  | install h => exact h.2.symm.trans hg
  | accept q lifetime => simp [inboundRecord, Connection.new] at hg

theorem Label.group_eq_some {c : Context} {l : Label} {g : ℕ} (h : l.group c = some g) :
    ∃ proxies m, l = .bootstrap proxies m ∧ g = c.nextId := by
  cases l <;> simp [Label.group] at h
  exact ⟨_, _, rfl, h.symm⟩

/-! ### The event channel in every reachable context -/

/-- What the event channel says about the records. -/
structure EventInv (c : Context) : Prop where
  /-- Events carry lifetimes already handed out. -/
  tag_lt : ∀ e ∈ c.events, e.1 < c.nextId
  /-- Each lifetime is at one address: the events it tags are about that
  address, and so is its record while it lives. -/
  addr : ∃ f, (∀ e ∈ c.events, e.2.peerAddr = f e.1) ∧ AddrMap f c
  /-- A live record has sent its success event exactly when it is up. -/
  success_live : ∀ a conn, c.connections a = some conn →
    successCount conn.lifetime c.events = if conn.ready then 1 else 0
  /-- No lifetime has sent two success events. -/
  success_le : ∀ t, successCount t c.events ≤ 1
  /-- A lifetime's messages come after its success event. -/
  success_first : ∀ t, successFirst t c.events

namespace EventInv

theorem init : EventInv .init where
  tag_lt := fun _ h => by cases h
  addr := ⟨fun _ => 0, fun _ h => (by cases h), fun _ _ h => by cases h⟩
  success_live := fun _ _ h => by cases h
  success_le := fun _ => Nat.zero_le _
  success_first := fun _ => rfl

variable {c c' : Context}

/-- An event is about the address of the live record whose lifetime it carries. -/
theorem tag_addr (hI : EventInv c) : ∀ e ∈ c.events, ∀ a conn, c.connections a = some conn →
    conn.lifetime = e.1 → e.2.peerAddr = a := by
  obtain ⟨f, he, hf⟩ := hI.addr
  intro e hmem a conn hc hl
  rw [he e hmem, ← hl, hf a conn hc]

/-- Events of one lifetime are about one address. -/
theorem tag_addr_eq (hI : EventInv c) : ∀ e ∈ c.events, ∀ e' ∈ c.events, e.1 = e'.1 →
    e.2.peerAddr = e'.2.peerAddr := by
  obtain ⟨f, he, -⟩ := hI.addr
  intro e hmem e' hmem' hl
  rw [he e hmem, he e' hmem', hl]

section step

variable {new : List (ℕ × Event)} {g : Option ℕ}
  (hI : EventInv c) (hL : LifetimeInv c) (hf : EventFacts c c' new)
include hI hL hf

omit hI in
/-- The step sends a success event of a lifetime only if that lifetime's record
was there and not up. -/
theorem new_success_of_record {a : SocketAddr} {conn : Connection} (hc : c.connections a = some conn)
    (hpos : 0 < successCount conn.lifetime new) :
    conn.ready = false ∧ ∃ conn', c'.connections a = some conn' ∧ conn'.lifetime = conn.lifetime ∧
      conn'.ready := by
  obtain ⟨e, he, hl, hs⟩ := successCount_pos.1 hpos
  obtain ⟨b, conn₀, conn₀', cert, q, h₀, h₀', hl₀, hl₀', hnr, hr, -⟩ := hf.fired e he hs
  obtain rfl := hL.lifetime_inj b a conn₀ conn h₀ hc (hl₀.trans hl)
  obtain rfl : conn₀ = conn := Option.some.inj (h₀.symm.trans hc)
  exact ⟨hnr, conn₀', h₀', hl₀'.trans hl, hr⟩

omit hL in
/-- At most one success event per lifetime, after the step too. -/
theorem success_le' : ∀ t, successCount t c'.events ≤ 1 := by
  intro t
  rw [hf.events, successCount_append]
  rcases Nat.eq_zero_or_pos (successCount t new) with h0 | hpos
  · rw [h0]; exact hI.success_le t
  obtain ⟨e, he, hl, hs⟩ := successCount_pos.1 hpos
  obtain ⟨a, conn, conn', -, -, hc, hc', hl₀, hl₀', hnr, hr, -⟩ := hf.fired e he hs
  have hold := hI.success_live a conn hc
  rw [hnr, if_neg Bool.false_ne_true] at hold
  have hsum : successCount t c.events + successCount t new = 1 := by
    rw [← hl, ← hl₀, hold, hf.flip hc hc' hnr hr]
  exact Nat.le_of_eq hsum

omit hL in
theorem tag_lt' (hn : c.nextId ≤ c'.nextId) : ∀ e ∈ c'.events, e.1 < c'.nextId := by
  intro e he
  rw [hf.events] at he
  rcases List.mem_append.1 he with he | he
  · exact Nat.lt_of_lt_of_le (hI.tag_lt e he) hn
  · exact hf.placed.tag_lt e he

omit hL in
/-- The map of lifetimes to addresses, extended by the step. -/
theorem addr' : ∃ f, (∀ e ∈ c'.events, e.2.peerAddr = f e.1) ∧ AddrMap f c' := by
  obtain ⟨f, he, hf₀⟩ := hI.addr
  obtain ⟨f', hag, hnew, hf'⟩ := hf.placed.addr f hf₀
  refine ⟨f', fun e hmem => ?_, hf'⟩
  rw [hf.events] at hmem
  rcases List.mem_append.1 hmem with hmem | hmem
  · rw [he e hmem, hag _ (hI.tag_lt e hmem)]
  · exact hnew e hmem

omit hL in
theorem success_first' : ∀ t, successFirst t c'.events := by
  intro t
  rw [hf.events]
  refine successFirst_append (hI.success_first t) ?_
  rcases hf.messages t with h | ⟨a, conn, hc, hl, hr⟩
  · exact .inr h
  · have hlive := hI.success_live a conn hc
    rw [hr, if_pos rfl, hl] at hlive
    exact .inl (hlive ▸ Nat.one_pos)

variable (hm : Moves (StepRecord g) (NewRecord g) c c')
include hm

theorem success_live' : ∀ a conn', c'.connections a = some conn' →
    successCount conn'.lifetime c'.events = if conn'.ready then 1 else 0 := by
  intro a conn' hc'
  rw [hf.events, successCount_append]
  rcases hm a conn' hc' with ⟨hn, hnew⟩ | ⟨conn, hc, hl, hr⟩
  · have hold : successCount conn'.lifetime c.events = 0 :=
      successCount_eq_zero.2 fun e he hl => absurd (hl ▸ hI.tag_lt e he) (Nat.not_lt_of_le hn)
    have hnew' : successCount conn'.lifetime new = 0 := by
      refine Nat.eq_zero_of_not_pos fun hpos => ?_
      obtain ⟨e, he, hl, hs⟩ := successCount_pos.1 hpos
      obtain ⟨b, conn₀, -, -, -, h₀, -, hl₀, -⟩ := hf.fired e he hs
      exact absurd (hl₀.trans hl ▸ hL.lifetime_lt b conn₀ h₀) (Nat.not_lt_of_le hn)
    simp [hold, hnew', hnew.ready_eq_false]
  · rw [← hl, hI.success_live a conn hc]
    cases hcr : conn.ready
    · cases hcr' : conn'.ready
      · have hnew : successCount conn.lifetime new = 0 := Nat.eq_zero_of_not_pos fun hpos => by
          obtain ⟨-, conn₀', h₀', -, hr₀⟩ := new_success_of_record hL hf hc hpos
          rw [hc', Option.some.injEq] at h₀'
          rw [← h₀', hcr'] at hr₀; cases hr₀
        simp [hnew]
      · simp [hf.flip hc hc' hcr hcr']
    · have hnew : successCount conn.lifetime new = 0 := Nat.eq_zero_of_not_pos fun hpos => by
        rw [(new_success_of_record hL hf hc hpos).1] at hcr; cases hcr
      simp [hr.eq_of_ready hcr, hcr, hnew]

end step

/-- Every step from a context whose lifetimes are sound keeps `EventInv`. -/
theorem step {env : Env} {l : Label} (hI : EventInv c) (hL : LifetimeInv c)
    (h : QuicP2p.step env c l = .ok c') : EventInv c' := by
  obtain ⟨new, hf⟩ := step_eventFacts hL h
  exact ⟨tag_lt' hI hf (step_nextId_le h), addr' hI hf, success_live' hI hL hf (step_moves h),
    success_le' hI hf, success_first' hI hf⟩

end EventInv

theorem Reachable.eventInv {env : Env} {c : Context} (hc : Reachable env c) : EventInv c :=
  hc.invariant EventInv.init fun _ _ _ hc hI h => hI.step hc.lifetimeInv h

/-! ### Success events -/

/-- What one step does about success events. -/
structure SuccessStep (c : Context) (l : Label) (c' : Context) (new : List (ℕ × Event)) : Prop where
  /-- The step appends `new` to the event channel. -/
  events : c'.events = c.events ++ new
  /-- A success event is sent by a record the step brings up (`Fires`). -/
  fired : ∀ e ∈ new, e.2.isSuccess → Fires c c' e
  /-- A record the step brings up sends exactly one success event in it. -/
  flip : ∀ a conn conn', c.connections a = some conn → c'.connections a = some conn' →
    conn.lifetime = conn'.lifetime → conn.ready = false → conn'.ready →
    successCount conn.lifetime new = 1
  /-- A record the step makes is not up. -/
  fresh : ∀ a conn', c'.connections a = some conn' → c.nextId ≤ conn'.lifetime →
    conn'.ready = false
  /-- A record that is up stays as it is, at its address. -/
  stays : ∀ a b conn conn', c.connections a = some conn → c'.connections b = some conn' →
    conn.lifetime = conn'.lifetime → conn.ready → b = a ∧ conn' = conn
  /-- A group ref is the one the record had in its lifetime, or the fresh group of
  a bootstrap that connects to the record's address. -/
  ref : ∀ a conn' g, c'.connections a = some conn' → conn'.bootstrapGroupRef = some g →
    (∃ conn, c.connections a = some conn ∧ conn.lifetime = conn'.lifetime ∧
      conn.bootstrapGroupRef = some g) ∨
    ∃ proxies m, l = .bootstrap proxies m ∧ g = c.nextId ∧ ∃ p ∈ proxies, p.peerAddr = a

theorem step_successStep {env : Env} {c c' : Context} {l : Label} (hL : LifetimeInv c)
    (h : step env c l = .ok c') : ∃ new, SuccessStep c l c' new := by
  obtain ⟨new, hf⟩ := step_eventFacts hL h
  have hm := step_moves h
  refine ⟨new, hf.events, hf.fired, fun _ _ _ h h' _ hr hr' => hf.flip h h' hr hr', fun a conn' hc' hn => ?_,
    fun a b conn conn' hc hc' hl hr => ?_, fun a conn' g hc' hg => ?_⟩
  · rcases hm a conn' hc' with ⟨-, hnew⟩ | ⟨conn, hc, hl, -⟩
    · exact hnew.ready_eq_false
    · exact absurd (hl ▸ hL.lifetime_lt a conn hc) (Nat.not_lt_of_le hn)
  · obtain ⟨rfl, hr'⟩ := hm.same hL hc hc' hl
    exact ⟨rfl, hr'.eq_of_ready hr⟩
  · by_cases hp : ∃ proxies m, l = .bootstrap proxies m ∧ g = c.nextId ∧ ∃ p ∈ proxies, p.peerAddr = a
    · exact .inr hp
    have hsame : l.group c = some g → c'.connections a = c.connections a := fun hl => by
      obtain ⟨proxies, m, rfl, rfl⟩ := Label.group_eq_some hl
      exact bootstrap_connections_of_ne (fun p hp' he => hp ⟨proxies, m, rfl, rfl, p, hp', he⟩) h
    refine .inl ?_
    rcases hm a conn' hc' with ⟨hn, hnew⟩ | ⟨conn, hc, hl, hr⟩
    · have hc := (hsame (hnew.ref hg)).symm.trans hc'
      exact absurd hn (Nat.not_le_of_lt (hL.lifetime_lt a conn' hc))
    · rcases hr.ref hg with h' | h'
      · exact ⟨conn, hc, hl, h'⟩
      · obtain rfl : conn = conn' := Option.some.inj (hc.symm.trans ((hsame h').symm.trans hc'))
        exact ⟨conn, hc, rfl, hg⟩

/-- **One success event per lifetime, at the step that brings the record up.**
From a reachable context, across any step: a success event is sent exactly
when a record's outbound half is `Established` and its inbound half
`Established` or `NotNeeded` for the first time, once, by that step, about the
record's address; it is `BootstrappedTo` exactly when the record holds a group
ref, which it gives up after finishing the group, and its `NodeInfo` carries
the outbound half's certificate; a record that is up never changes again; a
group ref comes from a bootstrap that connected to the address within the
lifetime. After the step, a live record has sent its success event exactly
when it is up, no lifetime has sent two, and the events of one lifetime are
about one address. -/
theorem success_event_once {env : Env} {c c' : Context} {l : Label} (hc : Reachable env c)
    (h : step env c l = .ok c') :
    (∃ new, SuccessStep c l c' new) ∧
    (∀ a conn, c'.connections a = some conn →
      successCount conn.lifetime c'.events = if conn.ready then 1 else 0) ∧
    (∀ t, successCount t c'.events ≤ 1) ∧
    (∀ e ∈ c'.events, ∀ e' ∈ c'.events, e.1 = e'.1 → e.2.peerAddr = e'.2.peerAddr) := by
  have hI := (hc.step l h).eventInv
  exact ⟨step_successStep hc.lifetimeInv h, hI.success_live, hI.success_le, hI.tag_addr_eq⟩

theorem success_event_once_incoming :
    let env : Env := ⟨.node, [9], fun d => !d.isEmpty, fun _ => true, 64⟩
    ∃ c c', Reachable env c ∧ step env c (.incoming 1) = .ok c' ∧
      (∃ new, SuccessStep c (.incoming 1) c' new) ∧
      (∀ a conn, c'.connections a = some conn →
        successCount conn.lifetime c'.events = if conn.ready then 1 else 0) ∧
      (∀ t, successCount t c'.events ≤ 1) ∧
      (∀ e ∈ c'.events, ∀ e' ∈ c'.events, e.1 = e'.1 → e.2.peerAddr = e'.2.peerAddr) := by
  intro env
  have hc : Reachable env _ := .step (.handshake 0 true) (.step (.connectTo ⟨1, [1]⟩ none) .init rfl) rfl
  exact ⟨_, _, hc, rfl, @success_event_once _ _ _ (.incoming 1) hc rfl⟩

/-! ### Messages after the success event -/

/-- **No message before the success event.** In every reachable context, each
`NewMessage` on the event channel has before it a success event of the same
lifetime about the same address: the outbound completion dispatches the reads
held back only after its success event, and a read loop buffers what it reads
until the record is up. -/
theorem message_after_success {env : Env} {c : Context} (hc : Reachable env c)
    (es₁ es₂ : List (ℕ × Event)) (e : ℕ × Event) (he : c.events = es₁ ++ e :: es₂)
    (hm : e.2.isNewMessage) :
    ∃ s ∈ es₁, s.1 = e.1 ∧ s.2.isSuccess ∧ s.2.peerAddr = e.2.peerAddr := by
  have hI := hc.eventInv
  have hfirst := hI.success_first e.1
  rw [he] at hfirst
  obtain ⟨s, hs, hl, hsucc⟩ := exists_success_before hfirst rfl hm
  exact ⟨s, hs, hl, hsucc, hI.tag_addr_eq s (by simp [he, hs]) e (by simp [he]) hl⟩

theorem message_after_success_read :
    let env : Env := ⟨.node, [9], fun d => !d.isEmpty, fun _ => true, 64⟩
    let es₁ : List (ℕ × Event) := [(0, .connectedTo (.node ⟨1, [1]⟩))]
    let e : ℕ × Event := (0, .newMessage 1 [5])
    ∃ c, Reachable env c ∧ c.events = es₁ ++ e :: [] ∧ e.2.isNewMessage ∧
      ∃ s ∈ es₁, s.1 = e.1 ∧ s.2.isSuccess ∧ s.2.peerAddr = e.2.peerAddr := by
  intro env es₁ e
  have hc : Reachable env _ :=
    .step (.read 2 (.userMsg [5])) (.step (.incoming 1) (.step (.handshake 0 true)
      (.step (.connectTo ⟨1, [1]⟩ none) .init rfl) rfl) rfl) rfl
  exact ⟨_, hc, rfl, rfl, message_after_success hc es₁ [] e rfl rfl⟩

/-! ### Buffered reads -/

/-- A record that is up holds no buffered read. -/
def Connection.Drained (conn : Connection) : Prop :=
  conn.ready → conn.fromPeer.pendingReads = []

/-- A record one step moves stays drained: only a record that is not up buffers,
and the step that brings a record up drains it. -/
theorem StepRecord.drained {g : Option ℕ} {conn conn' : Connection} (h : StepRecord g conn conn')
    (hD : conn.Drained) : conn'.Drained := by
  intro hr'
  cases h with
  | install h =>
    rcases h with rfl | ⟨-, hi, -⟩
    · exact hD hr'
    · rw [Connection.ready_eq_false_of_terminator hi] at hr'; cases hr'
  | establish q ht => simp
  | accept q hf => rfl
  | buffer msg hr =>
    have hup : conn.ready := by simpa [Connection.ready] using hr'
    rw [hr] at hup; cases hup
  | queue more ht => simp [Connection.ready, ToPeer.isEstablished] at hr'

theorem Reachable.drained {env : Env} {c : Context} (hc : Reachable env c) :
    c.AllRecords Connection.Drained :=
  hc.invariant (fun _ _ h => by cases h) fun _ _ _ _ hD h b conn' hb => by
    rcases step_moves h b conn' hb with ⟨-, hn⟩ | ⟨conn, hc, -, hs⟩
    · exact fun hr => by rw [hn.ready_eq_false] at hr; cases hr
    · exact hs.drained (hD b conn hc)

/-- **Reads buffered before a record comes up are delivered once, in order.**
From a reachable context, across any step: a record that comes up in the step
sends its success event and then one `NewMessage` per user message its inbound
half buffered, in the order read, and the step sends nothing else; and a
record that is up holds no buffered read, so whatever is read on it is
dispatched at once. -/
theorem buffered_reads_delivered {env : Env} {c c' : Context} {l : Label} (hc : Reachable env c)
    (h : step env c l = .ok c') :
    (∀ a conn conn', c.connections a = some conn → c'.connections a = some conn' →
      conn.ready = false → conn'.ready →
      ∃ cert q, conn'.toPeer = .established cert q ∧
        c'.events = c.events ++ (conn.lifetime, conn.successEvent ⟨a, cert⟩) ::
          conn.fromPeer.pendingReads.flatMap (dispatchedEvents conn.lifetime (.node ⟨a, cert⟩))) ∧
    ∀ a conn', c'.connections a = some conn' → conn'.ready → conn'.fromPeer.pendingReads = [] := by
  obtain ⟨new, hf⟩ := step_eventFacts hc.lifetimeInv h
  refine ⟨fun a conn conn' hc₀ hc' hr hr' => ?_, (hc.step l h).drained⟩
  obtain ⟨cert, q, ht, rfl⟩ := hf.up a conn conn' hc₀ hc' hr hr'
  exact ⟨cert, q, ht, hf.events⟩

theorem buffered_reads_delivered_drain :
    let env : Env := ⟨.node, [9], fun d => !d.isEmpty, fun _ => true, 64⟩
    ∃ c c', Reachable env c ∧ step env c (.handshake 0 true) = .ok c' ∧
      (∀ a conn conn', c.connections a = some conn → c'.connections a = some conn' →
        conn.ready = false → conn'.ready →
        ∃ cert q, conn'.toPeer = .established cert q ∧
          c'.events = c.events ++ (conn.lifetime, conn.successEvent ⟨a, cert⟩) ::
            conn.fromPeer.pendingReads.flatMap (dispatchedEvents conn.lifetime (.node ⟨a, cert⟩))) ∧
      ∀ a conn', c'.connections a = some conn' → conn'.ready → conn'.fromPeer.pendingReads = [] := by
  intro env
  have hc : Reachable env _ :=
    .step (.read 1 (.userMsg [5])) (.step (.incoming 1) (.step (.connectTo ⟨1, [1]⟩ none) .init rfl) rfl) rfl
  exact ⟨_, _, hc, rfl, @buffered_reads_delivered env _ _ (.handshake 0 true) hc rfl⟩

/-! ### A bootstrap group in Node mode -/

/-- Two candidates of one bootstrap both complete their handshakes before either
inbound half arrives. Neither fires then (a Node waits for the inbound half),
so the group is still open and neither terminator can stop a handshake that is
over; each record keeps its group ref and sends `BootstrappedTo` when its
inbound session comes, the second after the first has finished the group. -/
theorem bootstrap_group_fires_twice :
    let env : Env := ⟨.node, [9], fun d => !d.isEmpty, fun _ => true, 64⟩
    ∃ c, exec env .init [.bootstrap [⟨1, [1]⟩, ⟨2, [2]⟩] none, .handshake 1 true,
        .handshake 2 true, .incoming 1, .incoming 2] = .ok c ∧
      c.events = [(1, .bootstrappedTo ⟨1, [1]⟩), (2, .bootstrappedTo ⟨2, [2]⟩)] ∧
      c.finishedGroups = [0] := by
  intro env
  exact ⟨_, rfl, by decide, by decide⟩

end QuicP2p
