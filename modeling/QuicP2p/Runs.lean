/-
# Whole runs

The step results lifted to runs of the loop (`exec`). A lifetime number is
never handed out twice, so a record of a lifetime that is there at both ends
of a run is at the same address, each of its halves has only moved forward
over the run, and a record that was up at the start has not changed at all.

Key definitions: `Later`.
Key theorems: `Later.trans`, `StepRecord.later`, `exec_moves`.
-/
import Mathlib.Logic.Relation
import QuicP2p.Events

namespace QuicP2p

/-- How a record may change over a run within its lifetime: each half moved
forward any number of times, and a record that was up is unchanged. -/
def Later (conn conn' : Connection) : Prop :=
  Relation.ReflTransGen ToPeer.Next conn.toPeer conn'.toPeer ∧
    Relation.ReflTransGen FromPeer.Next conn.fromPeer conn'.fromPeer ∧ (conn.ready → conn' = conn)

theorem Later.refl (conn : Connection) : Later conn conn :=
  ⟨.refl, .refl, fun _ => rfl⟩

theorem Later.trans {x y z : Connection} (h₁ : Later x y) (h₂ : Later y z) : Later x z :=
  ⟨h₁.1.trans h₂.1, h₁.2.1.trans h₂.2.1, fun hx => by
    obtain rfl := h₁.2.2 hx
    exact h₂.2.2 hx⟩

theorem StepRecord.later {g : Option ℕ} {conn conn' : Connection} (h : StepRecord g conn conn') :
    Later conn conn' :=
  ⟨.single h.halves.1, .single h.halves.2, h.eq_of_ready⟩

/-- **What a run does to the records.** Every record at the end of a run is new,
or the record of its lifetime at the start, at the same address, moved on. -/
theorem exec_moves {env : Env} {c' : Context} :
    ∀ {c : Context} {ls : List Label}, exec env c ls = .ok c' → Moves Later (fun _ => True) c c'
  | c, [], h => by cases h; exact .of_sub Later.refl fun _ _ h => h
  | c, l :: ls, h => by
    simp only [exec] at h
    cases hs : step env c l with
    | error e => rw [hs] at h; cases h
    | ok c₁ =>
      rw [hs] at h
      exact ((step_moves hs).mono (fun _ _ => StepRecord.later) fun _ _ => trivial).trans
        (fun _ _ _ => Later.trans) (fun _ _ _ _ => trivial) (exec_moves h) (step_nextId_le hs)

/-- **A lifetime only moves forward, over whole runs.** From a reachable
context, along any run of the loop, a record of a lifetime that is there at
both ends is at the same address; its outbound half has only moved
`NoConnection → Initiated → Established`, the certificate carried along, and
its inbound half `NoConnection → Established` or `NotNeeded`, the session
kept; and a record whose halves were both up at the start has not changed. -/
theorem lifetime_forward_over_run {env : Env} {c c' : Context} {ls : List Label}
    (hc : Reachable env c) (h : exec env c ls = .ok c') :
    ∀ a b conn conn', c.connections a = some conn → c'.connections b = some conn' →
      conn.lifetime = conn'.lifetime →
      b = a ∧ Relation.ReflTransGen ToPeer.Next conn.toPeer conn'.toPeer ∧
        Relation.ReflTransGen FromPeer.Next conn.fromPeer conn'.fromPeer ∧
        (conn.ready → conn' = conn) := by
  intro a b conn conn' ha hb hl
  obtain ⟨rfl, hr⟩ := (exec_moves h).same hc.lifetimeInv ha hb hl
  exact ⟨rfl, hr⟩

theorem lifetime_forward_over_run_first :
    let env : Env := ⟨.node, [9], fun d => !d.isEmpty, fun _ => true, 64⟩
    ∃ c c', Reachable env c ∧ exec env c [.handshake 0 true, .incoming 1] = .ok c' ∧
      ∀ a b conn conn', c.connections a = some conn → c'.connections b = some conn' →
        conn.lifetime = conn'.lifetime →
        b = a ∧ Relation.ReflTransGen ToPeer.Next conn.toPeer conn'.toPeer ∧
          Relation.ReflTransGen FromPeer.Next conn.fromPeer conn'.fromPeer ∧
          (conn.ready → conn' = conn) := by
  intro env
  have hc : Reachable env _ := .step (.connectTo ⟨1, [1]⟩ none) .init rfl
  exact ⟨_, _, hc, rfl, @lifetime_forward_over_run env _ _ [.handshake 0 true, .incoming 1] hc rfl⟩

end QuicP2p
