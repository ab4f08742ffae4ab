/-
# The bootstrap cache

`handle_new_connection_res` adds the peer to the bootstrap cache when the
record's outbound attempt completes and we contacted the peer
(`if conn.we_contacted_peer { c.bootstrap_cache.add_peer(node_info) }`); no
other handler touches the cache, so an inbound session never populates it. The
cache is `bootstrap_cache.rs`, not among the sources: an ordered set bounded
by its capacity, a re-inserted peer moving to the back and the front evicted
on overflow (§3), which `addPeer` models.

Key theorems: `addPeer_length_le`, `step_bootstrapCache`, `Reachable.cacheBounded`.
-/
import Mathlib.Data.List.Nodup
import QuicP2p.Loop

namespace QuicP2p

/-! ### `add_peer` -/

section addPeer

variable (capacity : ℕ) (info : NodeInfo) (cache : List NodeInfo)

theorem addPeer_length_le : (addPeer capacity info cache).length ≤ capacity := by
  simp only [addPeer, List.length_drop]
  omega

theorem addPeer_nodup (h : cache.Nodup) : (addPeer capacity info cache).Nodup :=
  (List.nodup_append.2 ⟨h.erase info, List.nodup_singleton info,
    List.disjoint_singleton.2 (h.not_mem_erase)⟩).sublist (List.drop_sublist _ _)

theorem mem_addPeer {n : NodeInfo} (h : n ∈ addPeer capacity info cache) : n = info ∨ n ∈ cache := by
  rcases List.mem_append.1 ((List.drop_sublist _ _).subset h) with h | h
  · exact .inr (List.mem_of_mem_erase h)
  · exact .inl (List.mem_singleton.1 h)

end addPeer

/-! ### What a step does to the cache -/

section step

variable {env : Env} {c c' : Context}

theorem handleConnectErr_bootstrapCache (a : SocketAddr) (e : Error) :
    (handleConnectErr c a e).bootstrapCache = c.bootstrapCache := by
  rcases handleConnectErr_eq c a e with h | h <;> simp [h]

theorem connectTo_bootstrapCache {peerInfo : NodeInfo} {m : Option WireMsg} {g : Option ℕ}
    {r : Except Error Unit} (h : connectTo env c peerInfo m g = .ok (c', r)) :
    c'.bootstrapCache = c.bootstrapCache := by
  rcases connectTo_cases h with ⟨-, rfl⟩ | rfl | ⟨-, rfl | ⟨-, rfl⟩⟩ <;> simp

/-- **Only an outbound completion changes the cache.** A step leaves the cache
as it was, or establishes the outbound half of an `Initiated` record and adds
the peer, with the certificate the attempt was made with, if we contacted it. -/
theorem step_bootstrapCache {l : Label} (h : step env c l = .ok c') :
    c'.bootstrapCache = c.bootstrapCache ∨
      ∃ a conn k cert ps q, c.connections a = some conn ∧ conn.toPeer = .initiated k cert ps ∧
        c'.connections a = some (establishedRecord conn cert q) ∧
        c'.bootstrapCache = if conn.weContactedPeer then
          addPeer env.bootstrapCacheCapacity ⟨a, cert⟩ c.bootstrapCache else c.bootstrapCache := by
  cases l with
  | connectTo peerInfo m =>
    obtain ⟨r, h⟩ := step_connectTo h
    exact .inl (connectTo_bootstrapCache h)
  | bootstrap proxies m =>
    exact .inl (bootstrap_induction (fun c₁ => c₁.bootstrapCache = c.bootstrapCache) rfl
      (fun _ _ _ _ _ h₁ h₂ => (connectTo_bootstrapCache h₂).trans h₁) h)
  | send peer msg =>
    rcases step_send h with ⟨a, conn, k, cert, ps, -, -, rfl⟩ | ⟨a, q, rfl⟩ | ⟨info, r, -, h⟩ | rfl
    · exact .inl rfl
    · exact .inl rfl
    · exact .inl (connectTo_bootstrapCache h)
    · exact .inl rfl
  | disconnectFrom a => cases h; exact .inl rfl
  | terminator k =>
    refine .inl ?_
    rcases step_terminator h with rfl | ⟨-, -, -, -, rfl⟩ | ⟨l, -, -, rfl, -⟩ <;> rfl
  | handshake k ok =>
    rcases step_handshake h with rfl | ⟨l, -, -, -, -, h, -⟩
    · exact .inl rfl
    rcases handleNewConnectionRes_cases h with ⟨e, -, rfl⟩ | ⟨q, -, -, rfl⟩ |
      ⟨q, conn, k', cert, ps, -, hc, ht, rfl⟩
    · exact .inl (handleConnectErr_bootstrapCache _ _)
    · exact .inl rfl
    · exact .inr ⟨_, conn, k', cert, ps, q, hc, ht, by simp, establish_bootstrapCache ..⟩
  | driverFailed q =>
    refine .inl ?_
    rcases step_driverFailed h with rfl | ⟨d, -, -, rfl, -⟩ <;> rfl
  | incoming a =>
    refine .inl ?_
    rcases step_incoming h with rfl | ⟨-, rfl⟩ <;> simp
  | read q msg =>
    refine .inl ?_
    rcases step_read h with rfl | ⟨r, -, rfl⟩ <;> simp
  | readFailed q e => exact .inl (by rcases step_readFailed h with rfl | ⟨r, -, rfl, -⟩ <;> rfl)
  | writeFailed q e => exact .inl (by rcases step_writeFailed h with rfl | ⟨w, -, rfl, -⟩ <;> rfl)

end step

/-- In every reachable context the cache holds each peer once and no more
peers than its capacity. -/
theorem Reachable.cacheBounded {env : Env} {c : Context} (hc : Reachable env c) :
    c.bootstrapCache.Nodup ∧ c.bootstrapCache.length ≤ env.bootstrapCacheCapacity := by
  refine @Reachable.invariant env
    (fun c => c.bootstrapCache.Nodup ∧ c.bootstrapCache.length ≤ env.bootstrapCacheCapacity)
    ⟨List.nodup_nil, Nat.zero_le _⟩ (fun c c' l _ hI h => ?_) c hc
  rcases step_bootstrapCache h with he | ⟨a, conn, k, cert, ps, q, -, -, -, he⟩
  · exact he ▸ hI
  · rw [he]
    split
    · exact ⟨addPeer_nodup _ _ _ hI.1, addPeer_length_le _ _ _⟩
    · exact hI

/-- **The cache only learns peers we dialled, when the handshake completes.**
From a reachable context, across any step, the cache holds each peer once and
no more than its capacity, and a peer new to it is the address and
certificate of a record we contacted whose `Initiated` outbound half the step
establishes with that certificate. -/
theorem bootstrap_cache_from_outbound {env : Env} {c c' : Context} {l : Label}
    (hc : Reachable env c) (h : step env c l = .ok c') :
    c'.bootstrapCache.Nodup ∧ c'.bootstrapCache.length ≤ env.bootstrapCacheCapacity ∧
    ∀ n ∈ c'.bootstrapCache, n ∉ c.bootstrapCache →
      ∃ conn k ps q, c.connections n.peerAddr = some conn ∧ conn.weContactedPeer ∧
        conn.toPeer = .initiated k n.peerCertDer ps ∧
        c'.connections n.peerAddr = some (establishedRecord conn n.peerCertDer q) := by
  refine ⟨((hc.step l h).cacheBounded).1, ((hc.step l h).cacheBounded).2, fun n hn hold => ?_⟩
  rcases step_bootstrapCache h with he | ⟨a, conn, k, cert, ps, q, hc₀, ht, hc', he⟩
  · exact (hold (he ▸ hn)).elim
  rw [he] at hn
  split at hn
  · rename_i hw
    rcases mem_addPeer _ _ _ hn with rfl | hn
    · exact ⟨conn, k, ps, q, hc₀, hw, ht, hc'⟩
    · exact (hold hn).elim
  · exact (hold hn).elim

theorem bootstrap_cache_from_outbound_handshake :
    let env : Env := ⟨.node, [9], fun d => !d.isEmpty, fun _ => true, 64⟩
    ∃ c c', Reachable env c ∧ step env c (.handshake 0 true) = .ok c' ∧
      c'.bootstrapCache.Nodup ∧ c'.bootstrapCache.length ≤ env.bootstrapCacheCapacity ∧
      ∀ n ∈ c'.bootstrapCache, n ∉ c.bootstrapCache →
        ∃ conn k ps q, c.connections n.peerAddr = some conn ∧ conn.weContactedPeer ∧
          conn.toPeer = .initiated k n.peerCertDer ps ∧
          c'.connections n.peerAddr = some (establishedRecord conn n.peerCertDer q) := by
  intro env
  have hc : Reachable env _ := .step (.connectTo ⟨1, [1]⟩ none) .init rfl
  exact ⟨_, _, hc, rfl, @bootstrap_cache_from_outbound env _ _ (.handshake 0 true) hc rfl⟩

end QuicP2p
