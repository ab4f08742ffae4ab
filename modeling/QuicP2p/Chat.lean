/-
# The chat example

`examples/chat.rs` builds a chat on the library. Two threads share a peer
list behind a mutex: the main thread runs one command line at a time, and the
event thread (`handle_qp2p_events`) consumes the library's event channel,
adding every peer it is told it is `ConnectedTo`. Each turn of either thread
holds the lock for its whole effect on the list, so a run of the chat is a
sequence of inputs, lines and events interleaved in any order (`Chat.run`).

* A command that fails prints its error and leaves the list and the sends as
  they were (`handleLine_error`).
* The event thread panics exactly when the channel holds a message of at most
  512 bytes that is not UTF-8 (`unwrap!` on `String::from_utf8`); until then
  it only appends the peers it is told of, each once
  (`handleQp2pEvents_error_iff`, `handleQp2pEvents_ok`).
* Over every run the list never holds a peer twice, and no input but a
  `delpeer` line moves a listed peer, so an index `listpeers` printed names
  the same peer in `send`, `sendrand` and `delpeer` until a `delpeer` runs
  (`Chat.run_nodup`, `Chat.run_extends`).
* The decimal text of an index parses back to it (`parseUsize_toString`), so
  until a `delpeer` runs, `send` with the index `listpeers` printed reaches the
  peer it printed there, and so does `sendrand` when `random_vec` can make the
  bytes (`handleLine_send`, `handleLine_sendrand`).
* `random_vec` asks `Vec::with_capacity` for the count: past `isize::MAX` bytes
  it panics with "capacity overflow", and a count the allocator refuses aborts
  the process, so a `sendrand` line can stop the whole chat (`randomVec`). The
  doc comment of `on_cmd_send_rand` ("Sends random data of given size") and the
  `help` text, which lists no `sendrand`, say neither.
* Every peer the chat lists or sends to, over any run, was listed at the start
  or announced by a `ConnectedTo` event or an `addpeer` line
  (`Chat.step_cases`, `Chat.step_sent`).

Not modelled: printing, the line editor, `parse_cli_args`, the bytes of
`random_vec` (a `sendrand` is its count), and what `qp2p.send` does with a
message (it is not among the sources). `serde_json::from_str` of a peer,
`String::from_utf8` and the allocator are the parameters `ChatEnv.parsePeer`,
`ChatEnv.utf8Valid` and `ChatEnv.allocates`.

Key definitions: `PeerList`, `randomVec`, `handleLine`, `handleEvent`,
`handleQp2pEvents`, `Chat.step`, `ChatInput.Announces`.
Key theorems: `handleLine_eq_result`, `handleLine_error`, `handleLine_send`,
`handleLine_sendrand`, `handleQp2pEvents_error_iff`, `Chat.step_cases`,
`Chat.run_extends`.
-/
import Mathlib.Data.List.Nodup
import Mathlib.Data.Nat.Digits
import QuicP2p.Types

namespace QuicP2p

/-- What the chat takes from its libraries: `serde_json::from_str` of a peer,
whether `String::from_utf8` accepts the bytes, and whether the allocator gives
`Vec::with_capacity` a buffer of that many bytes. -/
structure ChatEnv where
  parsePeer : String → Option Peer
  utf8Valid : List UInt8 → Bool
  allocates : ℕ → Bool

/-- `str::parse::<usize>` on a 64-bit target: an optional `+`, then one or more
ASCII digits, of a value below `2 ^ 64` (`UInt64.size`). -/
def parseUsize (s : String) : Option ℕ :=
  let digits := match s.toList with
    | '+' :: ds => ds
    | ds => ds
  if !digits.isEmpty && digits.all Char.isDigit then
    let n := digits.foldl (fun n d => 10 * n + (d.toNat - '0'.toNat)) 0
    if n < UInt64.size then some n else none
  else none

example : parseUsize "+12" = some 12 ∧ parseUsize "-1" = none ∧ parseUsize "+" = none := by decide

theorem digitChar_decimal :
    ∀ k < 10, (Nat.digitChar k).isDigit ∧ (Nat.digitChar k).toNat - '0'.toNat = k := by
  decide

/-- `Nat.toDigitsCore` puts the decimal digits of `n` before `ds`: a nonempty
run of ASCII digits, which the fold of `parseUsize` reads back as `n`. -/
theorem toDigitsCore_decimal : ∀ fuel n ds, n < fuel →
    (∃ c cs, Nat.toDigitsCore 10 fuel n ds = c :: cs) ∧
    (∀ c ∈ Nat.toDigitsCore 10 fuel n ds, c.isDigit ∨ c ∈ ds) ∧
    (Nat.toDigitsCore 10 fuel n ds).foldl (fun n d => 10 * n + (d.toNat - '0'.toNat)) 0 =
      ds.foldl (fun n d => 10 * n + (d.toNat - '0'.toNat)) n
  | 0, n, _, h => absurd h (Nat.not_lt_zero n)
  | fuel + 1, n, ds, h => by
    obtain ⟨hdig, hval⟩ := digitChar_decimal (n % 10) (Nat.mod_lt _ (by decide))
    have hcons : ∀ c ∈ Nat.digitChar (n % 10) :: ds, c.isDigit ∨ c ∈ ds := fun c hc => by
      rcases List.mem_cons.1 hc with rfl | hc
      exacts [.inl hdig, .inr hc]
    simp only [Nat.toDigitsCore]
    split
    · refine ⟨⟨_, _, rfl⟩, hcons, ?_⟩
      simp only [List.foldl_cons, hval]; congr 1; omega
    · obtain ⟨hne, hmem, hfold⟩ :=
        toDigitsCore_decimal fuel (n / 10) (Nat.digitChar (n % 10) :: ds) (by omega)
      refine ⟨hne, fun c hc => (hmem c hc).elim .inl (hcons c), ?_⟩
      rw [hfold]; simp only [List.foldl_cons, hval]; congr 1; omega

/-- The decimal text of an index, as `listpeers` prints it, parses back to the
index whenever a `usize` holds it. -/
theorem parseUsize_toString (n : ℕ) :
    parseUsize (toString n) = if n < UInt64.size then some n else none := by
  obtain ⟨⟨c, cs, hcons⟩, hmem, hfold⟩ := toDigitsCore_decimal (n + 1) n [] (Nat.lt_succ_self n)
  have hdig : ∀ d ∈ c :: cs, d.isDigit := fun d hd => by simpa using hmem d (hcons ▸ hd)
  have hc : c ≠ '+' := fun h => absurd (hdig c (List.mem_cons_self _ _)) (h ▸ by decide)
  have hs : (toString n).toList = c :: cs := hcons
  rw [hcons] at hfold
  simp at hfold
  simp only [parseUsize, hs]
  simp [hc, List.all_eq_true.2 hdig, hfold]

/-- `PeerList`. -/
structure PeerList where
  peers : List Peer
  deriving DecidableEq, Repr

namespace PeerList

def new : PeerList := ⟨[]⟩

/-- `insert`: a peer already listed is not pushed again. -/
def insert (pl : PeerList) (peer : Peer) : PeerList :=
  if peer ∈ pl.peers then pl else ⟨pl.peers ++ [peer]⟩

/-- `insert_from_json`. -/
def insertFromJson (env : ChatEnv) (pl : PeerList) (peerJson : String) : Except String PeerList :=
  match env.parsePeer peerJson with
  | some peer => .ok (pl.insert peer)
  | none => .error "Error parsing JSON"

/-- `remove`: `Vec::remove` behind its bounds check. -/
def remove (pl : PeerList) (peerIdx : ℕ) : Except String (Peer × PeerList) :=
  if h : peerIdx < pl.peers.length then .ok (pl.peers.get ⟨peerIdx, h⟩, ⟨pl.peers.eraseIdx peerIdx⟩)
  else .error "Index out of bounds"

/-- `get`. -/
def get (pl : PeerList) (peerIdx : ℕ) : Option Peer := pl.peers.get? peerIdx

variable {pl pl' : PeerList}

theorem insert_peers (pl : PeerList) (peer : Peer) :
    (pl.insert peer).peers = if peer ∈ pl.peers then pl.peers else pl.peers ++ [peer] := by
  unfold insert; split <;> rfl

/-- An insert only appends. -/
theorem peers_prefix_insert (pl : PeerList) (peer : Peer) : pl.peers <+: (pl.insert peer).peers := by
  rw [insert_peers]; split
  · exact List.prefix_refl _
  · exact List.prefix_append _ _

theorem nodup_insert (h : pl.peers.Nodup) (peer : Peer) : (pl.insert peer).peers.Nodup := by
  rw [insert_peers]; split
  · exact h
  · simpa [List.nodup_append, h]

theorem mem_insert {peer p : Peer} : p ∈ (pl.insert peer).peers ↔ p ∈ pl.peers ∨ p = peer := by
  rw [insert_peers]; split
  · exact ⟨.inl, fun h => h.elim id (· ▸ ‹_›)⟩
  · simp

/-- A list that only grew keeps every index. -/
theorem get_of_prefix (h : pl.peers <+: pl'.peers) {idx : ℕ} {peer : Peer} (hp : pl.get idx = some peer) :
    pl'.get idx = some peer := by
  obtain ⟨t, ht⟩ := h
  simp only [get, ← ht, List.get?_eq_getElem?] at hp ⊢
  rw [List.getElem?_append_left (List.getElem?_eq_some_iff.1 hp).1, hp]

/-- A removal takes out the one peer at the index. -/
theorem remove_eq_ok {peerIdx : ℕ} {peer : Peer} (h : pl.remove peerIdx = .ok (peer, pl')) :
    pl.peers.get? peerIdx = some peer ∧ pl'.peers = pl.peers.eraseIdx peerIdx := by
  unfold remove at h
  split at h <;> cases h
  exact ⟨List.get?_eq_get _, rfl⟩

end PeerList

/-- What `qp2p.send` is handed: the text of a `send`, or the count of random
bytes of a `sendrand`. -/
inductive Payload
  | text (msg : String)
  | random (bytes : ℕ)
  deriving DecidableEq, Repr

/-- The index argument of `delpeer`, `send` and `sendrand`:
`args.next().ok_or("Missing index argument")`, then
`idx.parse().or(Err("Invalid index argument"))`. -/
def indexArg : List String → Except String (ℕ × List String)
  | [] => .error "Missing index argument"
  | idx :: rest =>
    match parseUsize idx with
    | some i => .ok (i, rest)
    | none => .error "Invalid index argument"

/-- The peer argument of `send` and `sendrand`: the index, then
`peer_list.get(idx).ok_or("Index out of bounds")`. -/
def peerArg (args : List String) (peerList : PeerList) : Except String (Peer × List String) := do
  let (idx, rest) ← indexArg args
  match peerList.get idx with
  | some peer => pure (peer, rest)
  | none => throw "Index out of bounds"

/-- `on_cmd_send`: the rest of the line, its words joined by single spaces. -/
def onCmdSend (args : List String) (peerList : PeerList) : Except String (Peer × Payload) := do
  let (peer, rest) ← peerArg args peerList
  pure (peer, .text (" ".intercalate rest))

/-- `isize::MAX` on a 64-bit target. -/
def isizeMax : ℕ := 9223372036854775807

/-- `random_vec(size)`: `Vec::with_capacity(size)` panics ("capacity overflow")
past `isize::MAX` bytes and aborts the process when the allocator refuses the
bytes; otherwise `size` random bytes. `none` when the process stops. -/
def randomVec (env : ChatEnv) (size : ℕ) : Option Payload :=
  if Nat.ble size isizeMax && env.allocates size then some (.random size) else none

/-- `on_cmd_send_rand`: the next word is the count of random bytes, which
`random_vec` makes; `.ok none` when it stops the process. -/
def onCmdSendRand (env : ChatEnv) (args : List String) (peerList : PeerList) :
    Except String (Option (Peer × Payload)) := do
  let (peer, rest) ← peerArg args peerList
  match rest with
  | [] => throw "Missing bytes count"
  | bytes :: _ =>
    match parseUsize bytes with
    | some n => pure ((randomVec env n).map (peer, ·))
    | none => throw "Invalid bytes count argument"

/-- `delpeer`: the index, then `peerlist.remove(idx)`. -/
def delPeer (args : List String) (peerList : PeerList) : Except String PeerList :=
  (indexArg args).bind fun a => (peerList.remove a.1).map (·.2)

/-- What one line does: the list after it, what it hands to `qp2p.send`, and
the error it prints. -/
structure LineResult where
  peerList : PeerList
  sent : Option (Peer × Payload)
  error : Option String
  deriving DecidableEq, Repr

/-- A command on the list: the list it leaves, or its error. -/
def LineResult.ofList (peerList : PeerList) : Except String PeerList → LineResult
  | .ok pl => ⟨pl, none, none⟩
  | .error e => ⟨peerList, none, some e⟩

/-- A command that sends: what it sends, or its error. -/
def LineResult.ofSend (peerList : PeerList) : Except String (Peer × Payload) → LineResult
  | .ok s => ⟨peerList, some s, none⟩
  | .error e => ⟨peerList, none, some e⟩

/-- How one turn of the main loop ends: with the result of its line, by
breaking the loop (`quit`, `exit`), or with the process stopped by a panic or
an abort in the line. -/
inductive LineEnd
  | result (r : LineResult)
  | quit
  | panic
  deriving DecidableEq, Repr

/-- `sendrand`: what it sends, its error, or the stop of the process. -/
def LineEnd.ofSendRand (peerList : PeerList) : Except String (Option (Peer × Payload)) → LineEnd
  | .ok (some s) => .result ⟨peerList, some s, none⟩
  | .ok none => .panic
  | .error e => .result ⟨peerList, none, some e⟩

theorem LineResult.ofList_error {peerList : PeerList} {x : Except String PeerList} {e : String}
    (he : (LineResult.ofList peerList x).error = some e) :
    (LineResult.ofList peerList x).peerList = peerList ∧ (LineResult.ofList peerList x).sent = none := by
  cases x <;> simp_all [LineResult.ofList]

theorem LineResult.ofSend_error {peerList : PeerList} {x : Except String (Peer × Payload)} {e : String}
    (he : (LineResult.ofSend peerList x).error = some e) :
    (LineResult.ofSend peerList x).peerList = peerList ∧ (LineResult.ofSend peerList x).sent = none := by
  cases x <;> simp_all [LineResult.ofSend]

/-- One turn of the main loop on the words of a line
(`line.trim().split_whitespace()`). -/
def handleLine (env : ChatEnv) (peerList : PeerList) : List String → LineEnd
  | [] => .result ⟨peerList, none, none⟩
  | cmd :: args =>
    match cmd with
    | "ourinfo" => .result ⟨peerList, none, none⟩
    | "addpeer" => .result (.ofList peerList (peerList.insertFromJson env (" ".intercalate args)))
    | "listpeers" => .result ⟨peerList, none, none⟩
    | "delpeer" => .result (.ofList peerList (delPeer args peerList))
    | "send" => .result (.ofSend peerList (onCmdSend args peerList))
    | "sendrand" => .ofSendRand peerList (onCmdSendRand env args peerList)
    | "quit" | "exit" => .quit
    | "help" => .result ⟨peerList, none, none⟩
    | _ => .result ⟨peerList, none, some "Unknown command"⟩

/-- One event on the event thread: `ConnectedTo` inserts the peer; a message
of more than 512 bytes is reported by its size and a shorter one printed as
text, which panics (`unwrap!`) unless it is UTF-8; any other event is printed. -/
def handleEvent (env : ChatEnv) (peerList : PeerList) : Event → Except String PeerList
  | .connectedTo peer => .ok (peerList.insert peer)
  | .newMessage _ msg =>
    if msg.length > 512 ∨ env.utf8Valid msg then .ok peerList else .error "unwrap!"
  | _ => .ok peerList

/-- `handle_qp2p_events`: the thread's loop over the channel, ended by its
first panic. -/
def handleQp2pEvents (env : ChatEnv) (peerList : PeerList) : List Event → Except String PeerList
  | [] => .ok peerList
  | e :: es => (handleEvent env peerList e).bind fun pl => handleQp2pEvents env pl es

/-! ### Commands -/

@[simp] theorem LineResult.ofList_sent {peerList : PeerList} {x : Except String PeerList} :
    (LineResult.ofList peerList x).sent = none := by
  cases x <;> rfl

@[simp] theorem LineResult.ofSend_peerList {peerList : PeerList} {x : Except String (Peer × Payload)} :
    (LineResult.ofSend peerList x).peerList = peerList := by
  cases x <;> rfl

theorem LineResult.ofSend_sent {peerList : PeerList} {x : Except String (Peer × Payload)}
    {s : Peer × Payload} (h : (LineResult.ofSend peerList x).sent = some s) : x = .ok s := by
  cases x <;> cases h; rfl

/-- An `Except` computation succeeds when its first part does and the rest,
run on what it returned, does. -/
theorem except_bind_eq_ok {α β ε : Type} {x : Except ε α} {f : α → Except ε β} {b : β} :
    x >>= f = .ok b ↔ ∃ a, x = .ok a ∧ f a = .ok b := by
  cases x <;> simp [bind, Except.bind]

section commands

variable {env : ChatEnv} {peerList : PeerList} {args : List String}

theorem delPeer_eq_ok {pl : PeerList} (h : delPeer args peerList = .ok pl) :
    ∃ idx peer, peerList.remove idx = .ok (peer, pl) := by
  unfold delPeer at h
  cases hi : indexArg args with
  | error e => rw [hi] at h; cases h
  | ok a =>
    rw [hi] at h
    change (peerList.remove a.1).map (·.2) = .ok pl at h
    cases hr : peerList.remove a.1 with
    | error e => rw [hr] at h; cases h
    | ok q => rw [hr] at h; cases h; exact ⟨a.1, q.1, hr⟩

/-- The peer argument names a listed peer. -/
theorem peerArg_mem {peer : Peer} {rest : List String} (h : peerArg args peerList = .ok (peer, rest)) :
    peer ∈ peerList.peers := by
  obtain ⟨⟨i, rest'⟩, -, h⟩ := except_bind_eq_ok.1 h
  dsimp only at h
  split at h <;> cases h
  exact List.get?_mem ‹_›

theorem onCmdSend_mem {s : Peer × Payload} (h : onCmdSend args peerList = .ok s) :
    s.1 ∈ peerList.peers := by
  obtain ⟨⟨peer, rest⟩, hp, h⟩ := except_bind_eq_ok.1 h
  cases h
  exact peerArg_mem hp

theorem onCmdSendRand_mem {s : Peer × Payload} (h : onCmdSendRand env args peerList = .ok (some s)) :
    s.1 ∈ peerList.peers := by
  obtain ⟨⟨peer, rest⟩, hp, h⟩ := except_bind_eq_ok.1 h
  dsimp only at h
  split at h
  · cases h
  · split at h
    · obtain ⟨p, -, rfl⟩ := Option.map_eq_some'.1 (Except.ok.inj h)
      exact peerArg_mem hp
    · cases h

/-- `random_vec` makes the bytes of a count up to `isize::MAX` the allocator
gives. -/
theorem randomVec_of_le {n : ℕ} (h : n ≤ isizeMax) (ha : env.allocates n) :
    randomVec env n = some (.random n) := by
  simp [randomVec, Nat.ble_eq, h, ha]

/-- Past `isize::MAX`, or when the allocator refuses, the process stops. -/
theorem randomVec_eq_none {n : ℕ} (h : isizeMax < n ∨ env.allocates n = false) :
    randomVec env n = none := by
  rcases h with h | h <;> simp [randomVec, Nat.ble_eq, h, Nat.not_le.2, Bool.and_eq_true]

/-- A `sendrand` line that does not stop the process ends as a command that
sends. -/
theorem LineEnd.ofSendRand_eq_result {x : Except String (Option (Peer × Payload))} {r : LineResult}
    (h : LineEnd.ofSendRand peerList x = .result r) :
    ∃ y, r = .ofSend peerList y ∧ ∀ s, y = .ok s → x = .ok (some s) := by
  rcases x with e | _ | s <;> cases h
  · exact ⟨.error e, rfl, fun _ h => by cases h⟩
  · exact ⟨.ok s, rfl, fun _ h => by cases h; rfl⟩

theorem indexArg_toString {idx : ℕ} (hi : idx < UInt64.size) (rest : List String) :
    indexArg (toString idx :: rest) = .ok (idx, rest) := by
  simp only [indexArg, parseUsize_toString, if_pos hi]

/-- The decimal text of a listed peer's index names that peer. -/
theorem peerArg_toString {idx : ℕ} {peer : Peer} (hi : idx < UInt64.size)
    (hp : peerList.get idx = some peer) (rest : List String) :
    peerArg (toString idx :: rest) peerList = .ok (peer, rest) := by
  simp only [peerArg, indexArg_toString hi rest, bind, Except.bind, hp]
  rfl

/-- What a line that ends with a result does, by its first word. -/
theorem handleLine_eq_result {words : List String} {r : LineResult}
    (h : handleLine env peerList words = .result r) :
    r = ⟨peerList, none, none⟩ ∨ r = ⟨peerList, none, some "Unknown command"⟩ ∨
      (∃ args, words = "addpeer" :: args ∧
        r = .ofList peerList (peerList.insertFromJson env (" ".intercalate args))) ∨
      (∃ args, words = "delpeer" :: args ∧ r = .ofList peerList (delPeer args peerList)) ∨
      ∃ args, r = .ofSend peerList (onCmdSend args peerList) ∨
        ∃ y, r = .ofSend peerList y ∧ ∀ s, y = .ok s → onCmdSendRand env args peerList = .ok (some s) := by
  cases words with
  | nil => cases h; exact .inl rfl
  | cons cmd args =>
    unfold handleLine at h
    dsimp only at h
    split at h
    · cases h; exact .inl rfl
    · cases h; exact .inr (.inr (.inl ⟨args, rfl, rfl⟩))
    · cases h; exact .inl rfl
    · cases h; exact .inr (.inr (.inr (.inl ⟨args, rfl, rfl⟩)))
    · cases h; exact .inr (.inr (.inr (.inr ⟨args, .inl rfl⟩)))
    · exact .inr (.inr (.inr (.inr ⟨args, .inr (LineEnd.ofSendRand_eq_result h)⟩)))
    · cases h
    · cases h
    · cases h; exact .inl rfl
    · cases h; exact .inr (.inl rfl)

/-- What a line can do to the list: nothing, insert the peer an `addpeer`
line's JSON gives, or, for `delpeer`, remove the peer at an index. -/
theorem handleLine_cases {words : List String} {r : LineResult}
    (h : handleLine env peerList words = .result r) :
    r.peerList = peerList ∨
      (∃ args peer, words = "addpeer" :: args ∧ env.parsePeer (" ".intercalate args) = some peer ∧
        r.peerList = peerList.insert peer) ∨
      ∃ args idx peer, words = "delpeer" :: args ∧ peerList.remove idx = .ok (peer, r.peerList) := by
  rcases handleLine_eq_result h with rfl | rfl | ⟨args, rfl, rfl⟩ | ⟨args, rfl, rfl⟩ |
    ⟨args, rfl | ⟨y, rfl, -⟩⟩
  · exact .inl rfl
  · exact .inl rfl
  · unfold PeerList.insertFromJson
    cases hp : env.parsePeer (" ".intercalate args) with
    | some peer => exact .inr (.inl ⟨args, peer, rfl, hp, rfl⟩)
    | none => exact .inl rfl
  · cases hd : delPeer args peerList with
    | ok pl =>
      obtain ⟨idx, peer, hr⟩ := delPeer_eq_ok hd
      exact .inr (.inr ⟨args, idx, peer, rfl, hr⟩)
    | error e => exact .inl rfl
  · exact .inl LineResult.ofSend_peerList
  · exact .inl LineResult.ofSend_peerList

/-- A line that fails prints its error and leaves the list and the sends as
they were. -/
theorem handleLine_error {words : List String} {r : LineResult} {e : String}
    (h : handleLine env peerList words = .result r) (he : r.error = some e) :
    r.peerList = peerList ∧ r.sent = none := by
  rcases handleLine_eq_result h with rfl | rfl | ⟨_, -, rfl⟩ | ⟨_, -, rfl⟩ | ⟨_, rfl | ⟨_, rfl, -⟩⟩
  · cases he
  · exact ⟨rfl, rfl⟩
  · exact LineResult.ofList_error he
  · exact LineResult.ofList_error he
  · exact LineResult.ofSend_error he
  · exact LineResult.ofSend_error he

/-- A line sends only to a listed peer. -/
theorem handleLine_sent {words : List String} {r : LineResult} {s : Peer × Payload}
    (h : handleLine env peerList words = .result r) (hs : r.sent = some s) : s.1 ∈ peerList.peers := by
  rcases handleLine_eq_result h with rfl | rfl | ⟨_, -, rfl⟩ | ⟨_, -, rfl⟩ | ⟨_, rfl | ⟨_, rfl, hy⟩⟩
  · cases hs
  · cases hs
  · simp at hs
  · simp at hs
  · exact onCmdSend_mem (LineResult.ofSend_sent hs)
  · exact onCmdSendRand_mem (hy s (LineResult.ofSend_sent hs))

/-- `send` with the decimal index of a listed peer hands it the rest of the
line. -/
theorem handleLine_send {idx : ℕ} {peer : Peer} (hi : idx < UInt64.size)
    (hp : peerList.get idx = some peer) (words : List String) :
    handleLine env peerList ("send" :: toString idx :: words) =
      .result ⟨peerList, some (peer, .text (" ".intercalate words)), none⟩ := by
  unfold handleLine
  dsimp only
  simp only [onCmdSend, peerArg_toString hi hp, bind, Except.bind]
  rfl

/-- `sendrand` with the decimal index of a listed peer and a count hands
`random_vec`'s bytes to the peer. -/
theorem handleLine_sendrand {idx n : ℕ} {peer : Peer} (hi : idx < UInt64.size)
    (hp : peerList.get idx = some peer) (hn : n < UInt64.size) (rest : List String) :
    handleLine env peerList ("sendrand" :: toString idx :: toString n :: rest) =
      .ofSendRand peerList (.ok ((randomVec env n).map (peer, ·))) := by
  unfold handleLine
  dsimp only
  simp only [onCmdSendRand, peerArg_toString hi hp, bind, Except.bind, parseUsize_toString,
    if_pos hn]
  rfl

end commands

/-! ### The event thread -/

section events

variable {env : ChatEnv}

/-- A message that makes `unwrap!` panic. -/
def ChatEnv.Unprintable (env : ChatEnv) : Event → Prop
  | .newMessage _ msg => msg.length ≤ 512 ∧ env.utf8Valid msg = false
  | _ => False

theorem handleEvent_cases (env : ChatEnv) (peerList : PeerList) (e : Event) :
    (env.Unprintable e ∧ ∃ m, handleEvent env peerList e = .error m) ∨
      ¬ env.Unprintable e ∧
        ((∀ peer, .connectedTo peer ≠ e) ∧ handleEvent env peerList e = .ok peerList ∨
          ∃ peer, e = .connectedTo peer ∧ handleEvent env peerList e = .ok (peerList.insert peer)) := by
  cases e with
  | connectedTo peer => exact .inr ⟨id, .inr ⟨peer, rfl, rfl⟩⟩
  | bootstrappedTo _ | connectionFailure _ _ | unsentUserMessage _ _ =>
    exact .inr ⟨id, .inl ⟨fun _ h => (by cases h), rfl⟩⟩
  | newMessage a msg =>
    by_cases hp : msg.length > 512 ∨ env.utf8Valid msg
    · refine .inr ⟨fun ⟨hl, hv⟩ => ?_, .inl ⟨fun _ h => (by cases h), by simp [handleEvent, hp]⟩⟩
      rcases hp with hp | hp
      · omega
      · simp [hv] at hp
    · refine .inl ⟨?_, "unwrap!", by simp only [handleEvent, if_neg hp]⟩
      simp only [not_or, Bool.not_eq_true, not_lt] at hp
      exact ⟨hp.1, hp.2⟩

/-- The event thread panics exactly on an unprintable message. -/
theorem handleQp2pEvents_error_iff : ∀ (peerList : PeerList) (es : List Event),
    (∃ m, handleQp2pEvents env peerList es = .error m) ↔ ∃ e ∈ es, env.Unprintable e
  | _, [] => by simp [handleQp2pEvents]
  | peerList, e :: es => by
    rcases handleEvent_cases env peerList e with ⟨hu, m, he⟩ | ⟨hu, ⟨-, he⟩ | ⟨_, -, he⟩⟩
    · simp only [handleQp2pEvents, he, Except.bind]
      exact ⟨fun _ => ⟨e, List.mem_cons_self _ _, hu⟩, fun _ => ⟨m, rfl⟩⟩
    all_goals
      rw [handleQp2pEvents, he, Except.bind, handleQp2pEvents_error_iff _ es]
      simp [hu]

/-- Until it panics, the event thread only appends the peers of the
`ConnectedTo` events, each once. -/
theorem handleQp2pEvents_ok : ∀ (peerList : PeerList) (es : List Event) (pl : PeerList),
    handleQp2pEvents env peerList es = .ok pl →
      peerList.peers <+: pl.peers ∧ (peerList.peers.Nodup → pl.peers.Nodup) ∧
      ∀ p, p ∈ pl.peers ↔ p ∈ peerList.peers ∨ .connectedTo p ∈ es
  | _, [], _, h => by cases h; exact ⟨List.prefix_refl _, id, by simp⟩
  | peerList, e :: es, pl, h => by
    rcases handleEvent_cases env peerList e with ⟨-, m, he⟩ | ⟨-, ⟨hne, he⟩ | ⟨peer, rfl, he⟩⟩ <;>
      rw [handleQp2pEvents, he, Except.bind] at h
    · cases h
    · obtain ⟨hpre, hnd, hmem⟩ := handleQp2pEvents_ok peerList es pl h
      exact ⟨hpre, hnd, fun p => (hmem p).trans (by simp [hne])⟩
    · obtain ⟨hpre, hnd, hmem⟩ := handleQp2pEvents_ok _ es pl h
      refine ⟨(peerList.peers_prefix_insert peer).trans hpre,
        fun h => hnd (PeerList.nodup_insert h peer), fun p => (hmem p).trans ?_⟩
      simp only [PeerList.mem_insert, List.mem_cons, Event.connectedTo.injEq, or_assoc]

/-- **The event thread.** It panics exactly when the channel holds a message of
at most 512 bytes that is not UTF-8. Otherwise it leaves a list that extends the
one it started from, holds no peer twice if that one did not, and lists exactly
the peers it had and those of the `ConnectedTo` events. -/
theorem handleQp2pEvents_spec (env : ChatEnv) :
    ∀ (peerList : PeerList) (es : List Event),
      ((∃ m, handleQp2pEvents env peerList es = .error m) ↔ ∃ e ∈ es, env.Unprintable e) ∧
      ∀ pl, handleQp2pEvents env peerList es = .ok pl →
        peerList.peers <+: pl.peers ∧ (peerList.peers.Nodup → pl.peers.Nodup) ∧
        ∀ p, p ∈ pl.peers ↔ p ∈ peerList.peers ∨ .connectedTo p ∈ es :=
  fun peerList es => ⟨handleQp2pEvents_error_iff peerList es, handleQp2pEvents_ok peerList es⟩

theorem handleQp2pEvents_spec_unprintable :
    let env : ChatEnv := ⟨fun _ => none, fun msg => msg != [0xff], fun _ => true⟩
    let es : List Event := [.connectedTo (.client 1), .newMessage 1 [0xff], .connectedTo (.client 2)]
    (∃ m, handleQp2pEvents env .new es = .error m) ∧
      ((∃ m, handleQp2pEvents env .new es = .error m) ↔ ∃ e ∈ es, env.Unprintable e) ∧
      ∀ pl, handleQp2pEvents env .new es = .ok pl →
        PeerList.new.peers <+: pl.peers ∧ (PeerList.new.peers.Nodup → pl.peers.Nodup) ∧
        ∀ p, p ∈ pl.peers ↔ p ∈ PeerList.new.peers ∨ .connectedTo p ∈ es := by
  intro env es
  exact ⟨⟨_, rfl⟩, handleQp2pEvents_spec env .new es⟩

end events

/-! ### Runs of the chat -/

/-- The chat's state: the shared list, what was handed to `qp2p.send` and the
errors printed, in order, and whether the main loop and the event thread still
run. -/
structure Chat where
  peerList : PeerList
  sent : List (Peer × Payload)
  errors : List String
  running : Bool
  listening : Bool
  deriving DecidableEq, Repr

def Chat.init : Chat := ⟨.new, [], [], true, true⟩

/-- A turn of one of the threads: a line for the main loop, or an event from
the channel for the event thread. -/
inductive ChatInput
  | line (words : List String)
  | event (e : Event)
  deriving DecidableEq, Repr

/-- One turn. A thread that has stopped takes no more turns: the main loop
after `quit` or `exit`, the event thread after its panic, and both once a line
stops the process. -/
def Chat.step (env : ChatEnv) (ch : Chat) : ChatInput → Chat
  | .line words =>
    if ch.running then
      match handleLine env ch.peerList words with
      | .result r =>
        { ch with
          peerList := r.peerList
          sent := ch.sent ++ r.sent.toList
          errors := ch.errors ++ r.error.toList }
      | .quit => { ch with running := false }
      | .panic => { ch with running := false, listening := false }
    else ch
  | .event e =>
    if ch.listening then
      match handleEvent env ch.peerList e with
      | .ok pl => { ch with peerList := pl }
      | .error _ => { ch with listening := false }
    else ch

/-- The inputs in order. -/
def Chat.run (env : ChatEnv) (ch : Chat) (inputs : List ChatInput) : Chat :=
  inputs.foldl (Chat.step env) ch

/-- The inputs that make a peer known to the chat: a `ConnectedTo` event, and
an `addpeer` line whose JSON parses to the peer. -/
inductive ChatInput.Announces (env : ChatEnv) (peer : Peer) : ChatInput → Prop
  | connectedTo : ChatInput.Announces env peer (.event (.connectedTo peer))
  | addpeer (args : List String) : env.parsePeer (" ".intercalate args) = some peer →
      ChatInput.Announces env peer (.line ("addpeer" :: args))

namespace Chat

variable {env : ChatEnv} {ch : Chat} {input : ChatInput}

@[simp] theorem run_cons {inputs : List ChatInput} :
    ch.run env (input :: inputs) = (ch.step env input).run env inputs := rfl

/-- What a turn can do to the list: nothing, insert a peer the input
announces, or, on a `delpeer` line, remove the peer at an index. -/
theorem step_cases (env : ChatEnv) (ch : Chat) (input : ChatInput) :
    (ch.step env input).peerList = ch.peerList ∨
      (∃ peer, input.Announces env peer ∧ (ch.step env input).peerList = ch.peerList.insert peer) ∨
      ∃ args idx peer, input = .line ("delpeer" :: args) ∧
        ch.peerList.remove idx = .ok (peer, (ch.step env input).peerList) := by
  cases input with
  | line words =>
    simp only [Chat.step]
    split
    · split
      · rename_i r hr
        rcases handleLine_cases hr with h | ⟨args, peer, rfl, hp, h⟩ | ⟨args, idx, peer, rfl, h⟩
        · exact .inl h
        · exact .inr (.inl ⟨peer, .addpeer args hp, h⟩)
        · exact .inr (.inr ⟨args, idx, peer, rfl, h⟩)
      · exact .inl rfl
      · exact .inl rfl
    · exact .inl rfl
  | event e =>
    simp only [Chat.step]
    split
    · rcases handleEvent_cases env ch.peerList e with ⟨-, m, he⟩ | ⟨-, ⟨-, he⟩ | ⟨peer, rfl, he⟩⟩ <;>
        rw [he]
      · exact .inl rfl
      · exact .inl rfl
      · exact .inr (.inl ⟨peer, .connectedTo, rfl⟩)
    · exact .inl rfl

/-- A turn lists only peers that were listed or that its input announces. -/
theorem step_peers {peer : Peer} (h : peer ∈ (ch.step env input).peerList.peers) :
    peer ∈ ch.peerList.peers ∨ input.Announces env peer := by
  rcases step_cases env ch input with h' | ⟨p, hp, h'⟩ | ⟨_, idx, _, -, h'⟩
  · exact .inl (h' ▸ h)
  · rw [h', PeerList.mem_insert] at h
    rcases h with h | rfl
    exacts [.inl h, .inr hp]
  · rw [(PeerList.remove_eq_ok h').2] at h
    exact .inl ((List.eraseIdx_sublist _ _).subset h)

/-- A turn sends only to a listed peer. -/
theorem step_sent {s : Peer × Payload} (h : s ∈ (ch.step env input).sent) :
    s ∈ ch.sent ∨ s.1 ∈ ch.peerList.peers := by
  cases input with
  | line words =>
    simp only [Chat.step] at h
    split at h
    · split at h
      · rename_i r hr
        rcases List.mem_append.1 h with h | h
        · exact .inl h
        · exact .inr (handleLine_sent hr (by simpa using h))
      · exact .inl h
      · exact .inl h
    · exact .inl h
  | event e =>
    simp only [Chat.step] at h
    split at h
    · split at h <;> exact .inl h
    · exact .inl h

/-- A turn keeps the list free of duplicates. -/
theorem step_nodup (h : ch.peerList.peers.Nodup) : (ch.step env input).peerList.peers.Nodup := by
  rcases step_cases env ch input with h' | ⟨peer, -, h'⟩ | ⟨-, idx, peer, -, h'⟩
  · rw [h']; exact h
  · rw [h']; exact PeerList.nodup_insert h peer
  · rw [(PeerList.remove_eq_ok h').2]; exact h.sublist (List.eraseIdx_sublist _ _)

/-- A turn other than a `delpeer` line only appends to the list. -/
theorem step_extends (hdel : ∀ args, input ≠ .line ("delpeer" :: args)) :
    ch.peerList.peers <+: (ch.step env input).peerList.peers := by
  rcases step_cases env ch input with h' | ⟨peer, -, h'⟩ | ⟨args, -, -, h', -⟩
  · simp only [h', List.prefix_refl]
  · rw [h']; exact ch.peerList.peers_prefix_insert peer
  · exact absurd h' (hdel args)

theorem run_nodup : ∀ (ch : Chat) (inputs : List ChatInput), ch.peerList.peers.Nodup →
    (ch.run env inputs).peerList.peers.Nodup
  | _, [], h => h
  | ch, input :: inputs, h => run_nodup (ch.step env input) inputs (step_nodup h)

theorem run_extends : ∀ (ch : Chat) (inputs : List ChatInput),
    (∀ args, .line ("delpeer" :: args) ∉ inputs) → ch.peerList.peers <+: (ch.run env inputs).peerList.peers
  | _, [], _ => List.prefix_refl _
  | ch, input :: inputs, hdel =>
    (step_extends fun args h => hdel args (h ▸ List.mem_cons_self _ _)).trans
      (run_extends (ch.step env input) inputs fun args h => hdel args (List.mem_cons_of_mem _ h))

end Chat

/-- **The peer list over every run.** From a list with no peer twice, any
interleaving of lines and events keeps it so, and, unless a `delpeer` line is
among them, only appends to it: every listed peer keeps its index. -/
theorem peer_list_stable (env : ChatEnv) :
    ∀ (ch : Chat) (inputs : List ChatInput), ch.peerList.peers.Nodup →
      (ch.run env inputs).peerList.peers.Nodup ∧
      ((∀ args, .line ("delpeer" :: args) ∉ inputs) →
        ch.peerList.peers <+: (ch.run env inputs).peerList.peers) :=
  fun ch inputs h => ⟨Chat.run_nodup ch inputs h, Chat.run_extends ch inputs⟩

theorem peer_list_stable_session :
    let env : ChatEnv := ⟨fun _ => some (.client 7), fun _ => true, fun _ => true⟩
    let inputs : List ChatInput := [.event (.connectedTo (.client 1)), .line ["addpeer", "x"],
      .event (.connectedTo (.client 1)), .line ["send", "0", "hi"]]
    Chat.init.peerList.peers.Nodup ∧ (Chat.init.run env inputs).peerList.peers = [.client 1, .client 7] ∧
      (Chat.init.run env inputs).peerList.peers.Nodup ∧
      ((∀ args, .line ("delpeer" :: args) ∉ inputs) →
        Chat.init.peerList.peers <+: (Chat.init.run env inputs).peerList.peers) := by
  intro env inputs
  exact ⟨by decide, by decide, peer_list_stable env .init inputs (by decide)⟩

/-- **The chat knows every peer it lists or sends to.** Over any interleaving
of lines and events, `delpeer` lines included, every peer in the list, and
every peer handed to `qp2p.send`, was listed at the start or announced by an
input of the run: a `ConnectedTo` event, or an `addpeer` line whose JSON
parses to it. -/
theorem chat_knows_its_peers (env : ChatEnv) :
    ∀ (ch : Chat) (inputs : List ChatInput),
      (∀ peer ∈ (ch.run env inputs).peerList.peers,
        peer ∈ ch.peerList.peers ∨ ∃ input ∈ inputs, input.Announces env peer) ∧
      ∀ s ∈ (ch.run env inputs).sent,
        s ∈ ch.sent ∨ s.1 ∈ ch.peerList.peers ∨ ∃ input ∈ inputs, input.Announces env s.1
  | _, [] => ⟨fun _ h => .inl h, fun _ h => .inl h⟩
  | ch, input :: inputs => by
    obtain ⟨hpeers, hsent⟩ := chat_knows_its_peers env (ch.step env input) inputs
    have known : ∀ peer, peer ∈ (ch.step env input).peerList.peers ∨
        (∃ x ∈ inputs, x.Announces env peer) →
        peer ∈ ch.peerList.peers ∨ ∃ x ∈ input :: inputs, x.Announces env peer := by
      rintro peer (h | ⟨x, hx, ha⟩)
      · exact (Chat.step_peers h).imp_right fun ha => ⟨input, List.mem_cons_self _ _, ha⟩
      · exact .inr ⟨x, List.mem_cons_of_mem _ hx, ha⟩
    simp only [Chat.run_cons]
    refine ⟨fun peer h => known peer (hpeers peer h), fun s h => ?_⟩
    rcases hsent s h with h | h
    · exact (Chat.step_sent h).imp_right .inl
    · exact .inr (known s.1 h)

theorem chat_knows_its_peers_session :
    let env : ChatEnv := ⟨fun _ => some (.client 7), fun _ => true, fun _ => true⟩
    let inputs : List ChatInput := [.line ["addpeer", "x"], .line ["send", "0", "hi"],
      .line ["delpeer", "0"], .event (.connectedTo (.client 1)), .line ["send", "0", "yo"]]
    (Chat.init.run env inputs).sent = [(.client 7, .text "hi"), (.client 1, .text "yo")] ∧
      (∀ peer ∈ (Chat.init.run env inputs).peerList.peers,
        peer ∈ Chat.init.peerList.peers ∨ ∃ input ∈ inputs, input.Announces env peer) ∧
      ∀ s ∈ (Chat.init.run env inputs).sent,
        s ∈ Chat.init.sent ∨ s.1 ∈ Chat.init.peerList.peers ∨ ∃ input ∈ inputs, input.Announces env s.1 := by
  intro env inputs
  exact ⟨by decide, chat_knows_its_peers env .init inputs⟩

/-- **A listed index keeps naming its peer.** Take the peer at index `idx` of
the list, as `listpeers` prints it. After any interleaving of lines and events
with no `delpeer` among them, while the main loop runs, `send` with the decimal
text of `idx` hands that peer the rest of the line. `sendrand` with it and a
count hands the peer that many random bytes when the count is at most
`isize::MAX` and the allocator gives the bytes; otherwise `random_vec` stops the
process, and nothing is sent. -/
theorem listed_index_names_peer (env : ChatEnv) (ch : Chat) (inputs : List ChatInput) {idx : ℕ}
    {peer : Peer} (hp : ch.peerList.get idx = some peer) (hi : idx < UInt64.size)
    (hdel : ∀ args, .line ("delpeer" :: args) ∉ inputs) (hrun : (ch.run env inputs).running) :
    (∀ words, ((ch.run env inputs).step env (.line ("send" :: toString idx :: words))).sent =
      (ch.run env inputs).sent ++ [(peer, .text (" ".intercalate words))]) ∧
    ∀ n rest, n < UInt64.size →
      let ch' := (ch.run env inputs).step env (.line ("sendrand" :: toString idx :: toString n :: rest))
      (n ≤ isizeMax → env.allocates n → ch'.sent = (ch.run env inputs).sent ++ [(peer, .random n)] ∧
        ch'.running) ∧
      (isizeMax < n ∨ env.allocates n = false →
        ch'.sent = (ch.run env inputs).sent ∧ ch'.running = false ∧ ch'.listening = false) := by
  have hp' : (ch.run env inputs).peerList.get idx = some peer :=
    PeerList.get_of_prefix (Chat.run_extends ch inputs hdel) hp
  refine ⟨fun words => by simp [Chat.step, hrun, handleLine_send hi hp' words],
    fun n rest hn => ⟨fun hle ha => ?_, fun hno => ?_⟩⟩
  · simp [Chat.step, hrun, handleLine_sendrand hi hp' hn rest, randomVec_of_le hle ha,
      LineEnd.ofSendRand]
  · simp [Chat.step, hrun, handleLine_sendrand hi hp' hn rest, randomVec_eq_none hno,
      LineEnd.ofSendRand]

theorem listed_index_names_peer_session :
    let env : ChatEnv := ⟨fun _ => some (.client 7), fun _ => true, fun n => n < 4096⟩
    let ch : Chat := { Chat.init with peerList := ⟨[.client 1, .client 2]⟩ }
    let inputs : List ChatInput := [.event (.connectedTo (.client 3)), .line ["addpeer", "x"],
      .line ["listpeers"]]
    (ch.peerList.get 1 = some (.client 2) ∧ 1 < UInt64.size ∧
      (∀ args, .line ("delpeer" :: args) ∉ inputs) ∧ (ch.run env inputs).running) ∧
    (∀ words, ((ch.run env inputs).step env (.line ("send" :: toString 1 :: words))).sent =
      (ch.run env inputs).sent ++ [(.client 2, .text (" ".intercalate words))]) ∧
    ∀ n rest, n < UInt64.size →
      let ch' := (ch.run env inputs).step env (.line ("sendrand" :: toString 1 :: toString n :: rest))
      (n ≤ isizeMax → env.allocates n → ch'.sent = (ch.run env inputs).sent ++ [(.client 2, .random n)] ∧
        ch'.running) ∧
      (isizeMax < n ∨ env.allocates n = false →
        ch'.sent = (ch.run env inputs).sent ∧ ch'.running = false ∧ ch'.listening = false) := by
  intro env ch inputs
  have hdel : ∀ args, .line ("delpeer" :: args) ∉ inputs := by simp [inputs]
  exact ⟨⟨rfl, by decide, hdel, by decide⟩,
    listed_index_names_peer env ch inputs rfl (by decide) hdel (by decide)⟩

end QuicP2p
