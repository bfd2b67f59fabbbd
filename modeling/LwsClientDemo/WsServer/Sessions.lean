import LwsClientDemo.Mailbox
import LwsClientDemo.WsServer.Echo

open interleaving

namespace lws_client.ws_server

/-- What the user of the server is told about one connection. -/
inductive Note where
  | connected
  | message (m : Message)
  | disconnected
  deriving DecidableEq

def Call.note (client_id : Int) : Call → Option Note
  | .conn_cb id connected =>
    if id = client_id then some (if connected then .connected else .disconnected) else none
  | .rx_cb data is_binary id => if id = client_id then some (.message (data, is_binary)) else none
  | _ => none

/-- The callbacks made with a client id, in order. -/
def notes (client_id : Int) (trace : List Call) : List Note := trace.filterMap (Call.note client_id)

@[simp] theorem notes_append (id : Int) (xs ys : List Call) :
    notes id (xs ++ ys) = notes id xs ++ notes id ys :=
  List.filterMap_append

/-- lws delivers no RECEIVE to a connection one of whose callbacks has returned
    nonzero: it closes it. -/
def lively (cfg : Config) : Label → Bool
  | .event (.receive w _ _ _) => (cfg.shared.wsi w).all fun x => !x.failed
  | _ => true

/-- The CLOSED callback of connection `w` has been delivered. -/
def closes (w : WsiId) (ls : List Label) : Bool :=
  ls.any fun
    | .event (.closed v) => v == w
    | _ => false

variable {srv srv₀ : wss_server} {ps ps' : per_session_t} {w v : WsiId} {chunk : Chunk}
  {realloc malloc : Bool} {calls : List Call} {ret : Int}

/-- What a RECEIVE does: it fails, it appends the chunk, or it completes a message,
    whose echo is prepared unless `malloc` fails. -/
inductive Outcome (srv : wss_server) (ps : per_session_t) (w : WsiId) (chunk : Chunk) :
    per_session_t → List Call → Int → Prop where
  | failed {ps' : per_session_t} : ps'.client_id = ps.client_id → ps'.echo = ps.echo →
      Outcome srv ps w chunk ps' [] (-1)
  | appended {ps' : per_session_t} : ps'.client_id = ps.client_id → ps'.echo = ps.echo →
      (∀ out, take ⟨ps.frag.contents, out⟩ chunk = ⟨ps'.frag.contents, out⟩) →
      Outcome srv ps w chunk ps' [] 0
  | completed {ps' : per_session_t} {calls : List Call} {m : Message} :
      ps'.client_id = ps.client_id → chunk.is_final_fragment = true →
      (∀ out, take ⟨ps.frag.contents, out⟩ chunk = ⟨ps'.frag.contents, out ++ [m]⟩) →
      ps'.echo.toList.map ws_msg_node_t.message = [m] ∨ ps'.echo = none →
      (ps'.echo.isSome = true → .lws_callback_on_writable w ∈ calls) →
      (∀ id, notes id calls =
        if srv.rx_cb = true ∧ ps.client_id = id then [.message m] else []) →
      Outcome srv ps w chunk ps' calls 0

theorem receive_outcome (h : receive srv ps w chunk realloc malloc = some (ps', calls, ret)) :
    Outcome srv ps w chunk ps' calls ret := by
  simp only [receive, Option.map_eq_some_iff] at h
  obtain ⟨⟨r, f⟩, happend, h⟩ := h
  dsimp only at h
  split at h
  · cases h
    exact .failed rfl rfl
  · next hret =>
    obtain rfl := ws_frag_append_returned happend hret
    have hcontents := ws_frag_append_after happend
    split at h
    · next hfinal =>
      have htake : ∀ out, take ⟨ps.frag.contents, out⟩ chunk =
          ⟨[], out ++ [(f.contents, chunk.frame_is_binary)]⟩ := by
        intro out
        simp only [take, hfinal, if_true, ← hcontents]
      rcases prepare_echo_spec { ps with frag := f } (per_session_t.payload { ps with frag := f })
          chunk.frame_is_binary malloc with ⟨n, hprepare, hmessage⟩ | hprepare
      · rw [hprepare] at h
        cases h
        refine .completed rfl hfinal htake (.inl (congrArg (fun m => [m]) hmessage)) (by simp) ?_
        intro id
        cases srv.rx_cb <;> by_cases hid : ps.client_id = id <;>
          simp [notes, Call.note, hid, per_session_t.payload]
      · rw [hprepare] at h
        cases h
        refine .completed rfl hfinal htake (.inr rfl) (by simp) ?_
        intro id
        cases srv.rx_cb <;> by_cases hid : ps.client_id = id <;>
          simp [notes, Call.note, hid, per_session_t.payload]
    · next hpart =>
      cases h
      refine .appended rfl rfl fun out => ?_
      simp [take, hpart, hcontents]

/-- The callbacks are those `srv` has, and connections are numbered in the order
    they were accepted. -/
structure Numbered (srv : wss_server) (s : Sys) : Prop where
  rx_cb : s.srv.rx_cb = srv.rx_cb
  conn_cb : s.srv.conn_cb = srv.conn_cb
  next_id : s.srv.next_id = srv.next_id + s.next
  client_id : ∀ w x, s.wsi w = some x → x.user.client_id = srv.next_id + w
  seen : ∀ w x, s.wsi w = some x → w < s.next

/-- Connection `w` after the chunks `ks`. `handled` are the messages RECEIVE has
    completed, and `ops` what was done to the echo slot. -/
structure Session (srv : wss_server) (w : WsiId) (ks : List Chunk) (ended : Bool)
    (ops : List (mailbox.Op Message)) (handled : List Message) (s : Sys) : Prop where
  unused : s.next ≤ w → ks = [] ∧ ended = false ∧ ops = [] ∧ handled = []
  ongoing : ∀ x, s.wsi w = some x → ended = false
  taken : ∀ x, s.wsi w = some x → x.failed = false →
    ks.foldl take ⟨[], []⟩ = ⟨x.user.frag.contents, handled⟩
  completed : handled <+: (ks.foldl take ⟨[], []⟩).out
  puts : (mailbox.puts ops).Sublist handled
  notes : ws_server.notes (srv.next_id + w) s.trace = if w < s.next then
    (if srv.conn_cb then [.connected] else []) ++ (if srv.rx_cb then handled.map Note.message else []) ++
      (if srv.conn_cb && ended then [.disconnected] else []) else []
  frames : ws_server.frames w s.trace = (mailbox.run ops).taken
  slot : ∀ x, s.wsi w = some x → x.user.echo.map ws_msg_node_t.message = (mailbox.run ops).slot
  requested : ∀ x, s.wsi w = some x → x.user.echo.isSome = true → x.writable = true

/-- No message completed on connection `w` has been lost to the allocator. -/
structure Spared (w : WsiId) (ops : List (mailbox.Op Message)) (handled : List Message) (s : Sys) :
    Prop where
  puts : mailbox.puts ops = handled
  no_drop : ∀ op ∈ ops, op ≠ .drop
  not_failed : ∀ x, s.wsi w = some x → x.failed = false

variable {s s' : Sys} {ks : List Chunk} {ended : Bool} {ops : List (mailbox.Op Message)}
  {handled : List Message}

/-- A step that touches neither the connection nor its part of the trace. -/
theorem Session.other (h : Session srv w ks ended ops handled s)
    (hnext : s'.next ≤ w ↔ s.next ≤ w) (hwsi : s'.wsi w = s.wsi w ∨ s'.wsi w = none)
    (hframes : ws_server.frames w s'.trace = ws_server.frames w s.trace)
    (hnotes : ws_server.notes (srv.next_id + w) s'.trace =
      ws_server.notes (srv.next_id + w) s.trace) :
    Session srv w ks ended ops handled s' := by
  have hopen : ∀ x, s'.wsi w = some x → s.wsi w = some x := by
    intro x hx
    rcases hwsi with heq | hnone
    · exact heq ▸ hx
    · rw [hnone] at hx
      cases hx
  refine ⟨fun hle => h.unused (hnext.mp hle), fun x hx => h.ongoing x (hopen x hx),
    fun x hx => h.taken x (hopen x hx), h.completed, h.puts, ?_, hframes.trans h.frames,
    fun x hx => h.slot x (hopen x hx), fun x hx => h.requested x (hopen x hx)⟩
  rw [hnotes, h.notes]
  by_cases hlt : w < s.next
  · rw [if_pos hlt, if_pos (Nat.lt_of_not_le fun hle => absurd (hnext.mp hle) (Nat.not_le.mpr hlt))]
  · rw [if_neg hlt, if_neg (Nat.not_lt.mpr (hnext.mpr (Nat.le_of_not_lt hlt)))]

theorem Spared.other (h : Spared w ops handled s)
    (hwsi : s'.wsi w = s.wsi w ∨ s'.wsi w = none) : Spared w ops handled s' := by
  refine ⟨h.puts, h.no_drop, fun x hx => ?_⟩
  rcases hwsi with heq | hnone
  · exact h.not_failed x (heq ▸ hx)
  · rw [hnone] at hx
    cases hx

/-- What the callbacks of a step on connection `w` do to it, as the operations on
    its echo slot and the messages completed. -/
theorem Session.stays {x y : Wsi} {calls : List Call} {ks' : List Chunk}
    {ops' : List (mailbox.Op Message)} {handled' : List Message}
    (h : Session srv w ks ended ops handled s) (hnumbered : Numbered srv s) (hx : s.wsi w = some x)
    (htaken : y.failed = false → x.failed = false ∧
      ∀ out, ks'.foldl take ⟨x.user.frag.contents, out⟩ = ⟨y.user.frag.contents, out ++ handled'⟩)
    (hcompleted : x.failed = false →
      handled ++ handled' <+: (ks'.foldl take ⟨x.user.frag.contents, handled⟩).out)
    (hfailed : x.failed = true → ks' = [] ∧ handled' = [])
    (hputs : (mailbox.puts ops').Sublist handled')
    (hnotes : ws_server.notes (srv.next_id + w) calls =
      if srv.rx_cb then handled'.map Note.message else [])
    (hframes : ws_server.frames w s.trace ++ ws_server.frames w calls =
      (mailbox.run (ops ++ ops')).taken)
    (hslot : y.user.echo.map ws_msg_node_t.message = (mailbox.run (ops ++ ops')).slot)
    (hrequested : y.user.echo.isSome = true → y.writable = true) :
    Session srv w (ks ++ ks') ended (ops ++ ops') (handled ++ handled') (s.set w (some y) calls) := by
  have hlt := hnumbered.seen w x hx
  refine ⟨fun hle => absurd hlt (Nat.not_lt.mpr hle), fun z _ => h.ongoing x hx, fun z hz halive => ?_,
    ?_, ?_, ?_, ?_, fun z hz => ?_, fun z hz => ?_⟩
  · obtain rfl : y = z := by simpa [Sys.set] using hz
    obtain ⟨hbefore, htake⟩ := htaken halive
    rw [List.foldl_append, h.taken x hx hbefore, htake]
  · rw [List.foldl_append]
    cases hx' : x.failed with
    | true =>
      obtain ⟨rfl, rfl⟩ := hfailed hx'
      simpa using h.completed
    | false =>
      rw [h.taken x hx hx']
      exact hcompleted hx'
  · rw [mailbox.puts_append]
    exact h.puts.append hputs
  · rw [Sys.set, notes_append, h.notes, hnotes, if_pos hlt, if_pos hlt, h.ongoing x hx]
    cases srv.conn_cb <;> cases srv.rx_cb <;> simp
  · rw [Sys.set, frames_append]
    exact hframes
  · obtain rfl : y = z := by simpa [Sys.set] using hz
    exact hslot
  · obtain rfl : y = z := by simpa [Sys.set] using hz
    exact hrequested

theorem take_prefix (a : Assembler) (k : Chunk) : a.out <+: (take a k).out := by
  unfold take
  dsimp only
  split
  · exact List.prefix_append _ _
  · exact List.prefix_refl _

theorem Session.receive {x : Wsi} {user : per_session_t}
    (h : Session srv w ks ended ops handled s) (hnumbered : Numbered srv s) (hx : s.wsi w = some x)
    (halive : x.failed = false) (hreceive : Outcome s.srv x.user w chunk user calls ret)
    (hwrites : ws_server.frames w calls = []) :
    ∃ ops' handled', Session srv w (ks ++ [chunk]) ended ops' handled'
        (s.set w (some
          { user, writable := x.writable || decide (.lws_callback_on_writable w ∈ calls)
            failed := x.failed || decide (ret ≠ 0) }) calls) ∧
      (ret = 0 → (chunk.is_final_fragment = true → user.echo.isSome = true) →
        Spared w ops handled s → mailbox.puts ops' = handled' ∧ ∀ op ∈ ops', op ≠ .drop) := by
  have hid := hnumbered.client_id w x hx
  have hrx := hnumbered.rx_cb
  have hslot := h.slot x hx
  have hfirst := take_prefix ⟨x.user.frag.contents, handled⟩ chunk
  have hsame : ∀ {user : per_session_t}, user.echo = x.user.echo →
      user.echo.map ws_msg_node_t.message = (mailbox.run (ops ++ [])).slot := by
    intro user hecho
    rw [hecho, List.append_nil]
    exact hslot
  cases hreceive with
  | failed hid' hecho =>
    refine ⟨ops ++ [], handled ++ [], h.stays hnumbered hx (fun hf => by simp at hf) (fun _ => ?_)
      (fun hf => by simp [halive] at hf) (.refl _) (by simp [ws_server.notes]) ?_ (hsame hecho)
      fun hsome => ?_, fun hret => by simp at hret⟩
    · simpa using hfirst
    · simpa [ws_server.frames] using h.frames
    · simp [h.requested x hx (hecho ▸ hsome)]
  | appended hid' hecho htake =>
    refine ⟨ops ++ [], handled ++ [], h.stays hnumbered hx
      (fun _ => ⟨halive, fun out => by simpa using htake out⟩) (fun _ => ?_)
      (fun hf => by simp [halive] at hf) (.refl _) (by simp [ws_server.notes]) ?_ (hsame hecho)
      fun hsome => ?_, fun _ _ hspared => ?_⟩
    · simpa using hfirst
    · simpa [ws_server.frames] using h.frames
    · simp [h.requested x hx (hecho ▸ hsome)]
    · simpa using ⟨hspared.puts, hspared.no_drop⟩
  | @completed calls m hid' hfinal htake hecho hwritable hnotes =>
    have hdone : handled ++ [m] <+: ([chunk].foldl take ⟨x.user.frag.contents, handled⟩).out := by
      rw [List.foldl_cons, List.foldl_nil, htake]
    have htold : ws_server.notes (srv.next_id + w) calls =
        if srv.rx_cb then [m].map Note.message else [] := by
      rw [hnotes, hid, hrx]
      simp
    rcases hecho with hprepared | hlost
    · obtain ⟨n, hn, rfl⟩ : ∃ n, user.echo = some n ∧ n.message = m := by
        cases hecho : user.echo with
        | none => simp [hecho] at hprepared
        | some n => exact ⟨n, rfl, by simpa [hecho] using hprepared⟩
      refine ⟨ops ++ [.put n.message], handled ++ [n.message], h.stays hnumbered hx
        (fun _ => ⟨halive, fun out => by simpa using htake out⟩) (fun _ => hdone)
        (fun hf => by simp [halive] at hf) (.refl _) htold ?_ ?_ fun hsome => ?_,
        fun _ _ hspared => ⟨?_, ?_⟩⟩
      · rw [hwrites, List.append_nil, mailbox.run_append]
        exact h.frames
      · rw [mailbox.run_append]
        simp [hn, mailbox.State.apply]
      · simp [hwritable hsome]
      · rw [mailbox.puts_append, hspared.puts]
        rfl
      · intro op hop
        rcases List.mem_append.mp hop with hop | hop
        · exact hspared.no_drop op hop
        · simp [List.mem_singleton.mp hop]
    · refine ⟨ops ++ [.drop], handled ++ [m], h.stays hnumbered hx
        (fun _ => ⟨halive, fun out => by simpa using htake out⟩) (fun _ => hdone)
        (fun hf => by simp [halive] at hf) (by simp [mailbox.puts]) htold ?_ ?_ fun hsome => ?_,
        fun _ hprepares => ?_⟩
      · rw [hwrites, List.append_nil, mailbox.run_append]
        exact h.frames
      · rw [mailbox.run_append]
        simp [hlost, mailbox.State.apply]
      · simp [hlost] at hsome
      · have hsome := hprepares hfinal
        simp [hlost] at hsome

theorem Session.writeable {x : Wsi} (h : Session srv w ks ended ops handled s)
    (hnumbered : Numbered srv s) (hx : s.wsi w = some x) :
    Session srv w (ks ++ []) ended (ops ++ [.take]) (handled ++ [])
      (s.set w (some { x with user := (server_writeable x.user w).1, writable := false })
        (server_writeable x.user w).2) := by
  obtain ⟨hfrag, hnone, hcalls⟩ := writeable_frames (w := w) x.user w
  refine h.stays hnumbered hx (fun hf => ⟨hf, fun out => by simp [hfrag]⟩) (fun _ => by simp)
    (fun _ => ⟨rfl, rfl⟩) (.refl _) ?_ ?_ ?_ fun hsome => ?_
  · unfold server_writeable
    split <;> simp [ws_server.notes, Call.note]
  · rw [hcalls, if_pos rfl, mailbox.run_append, h.frames]
    simp only [List.foldl_cons, List.foldl_nil, mailbox.State.apply, ← h.slot x hx]
    cases x.user.echo <;> rfl
  · rw [hnone, mailbox.run_append]
    rfl
  · rw [hnone] at hsome
    cases hsome

theorem deliver_numbered {e : Event} {fs : List Empty} (hdeliver : s.deliver e = some (fs, s'))
    (h : Numbered srv s) : Numbered srv s' := by
  obtain ⟨hrx, hconn, hnext, hid, hseen⟩ := h
  have hkeep : ∀ {v : WsiId} {x y : Wsi} {calls : List Call}, s.wsi v = some x →
      y.user.client_id = x.user.client_id → Numbered srv (s.set v (some y) calls) := by
    intro v x y calls hx hsame
    refine ⟨hrx, hconn, hnext, fun w z hz => ?_, fun w z hz => ?_⟩ <;> by_cases hw : w = v
    · subst hw
      obtain rfl : y = z := by simpa [Sys.set] using hz
      rw [hsame, hid w x hx]
    · exact hid w z (by simpa [Sys.set, hw] using hz)
    · subst hw
      exact hseen w x hx
    · exact hseen w z (by simpa [Sys.set, hw] using hz)
  cases e with
  | established v =>
    simp only [Sys.deliver, Option.ite_none_right_eq_some, Option.some.injEq, Prod.mk.injEq] at hdeliver
    obtain ⟨⟨_, rfl⟩, _, rfl⟩ := hdeliver
    refine ⟨hrx, hconn, ?_, fun w x hx => ?_, fun w x hx => ?_⟩
    · simp only [established, hnext]
      push_cast
      omega
    · by_cases hw : w = s.next
      · subst hw
        obtain rfl : _ = x := by simpa [Sys.set] using hx
        exact hnext
      · exact hid w x (by simpa [Sys.set, hw] using hx)
    · by_cases hw : w = s.next
      · subst hw
        exact Nat.lt_succ_self _
      · exact Nat.lt_succ_of_lt (hseen w x (by simpa [Sys.set, hw] using hx))
  | receive v chunk realloc malloc =>
    simp only [Sys.deliver, Option.ite_none_right_eq_some, Option.bind_eq_some_iff,
      Option.map_eq_some_iff, Prod.mk.injEq] at hdeliver
    obtain ⟨_, x, hx, ⟨user, calls, ret⟩, hreceive, _, rfl⟩ := hdeliver
    apply hkeep hx
    cases receive_outcome hreceive <;> assumption
  | server_writeable v =>
    simp only [Sys.deliver, Option.ite_none_right_eq_some, Option.map_eq_some_iff,
      Prod.mk.injEq] at hdeliver
    obtain ⟨_, x, hx, _, rfl⟩ := hdeliver
    apply hkeep hx
    unfold server_writeable
    split <;> rfl
  | closed v =>
    simp only [Sys.deliver, Option.ite_none_right_eq_some, Option.map_eq_some_iff,
      Prod.mk.injEq] at hdeliver
    obtain ⟨_, x, hx, _, rfl⟩ := hdeliver
    refine ⟨hrx, hconn, hnext, fun w z hz => ?_, fun w z hz => ?_⟩ <;> by_cases hw : w = v
    · simp [Sys.set, hw] at hz
    · exact hid w z (by simpa [Sys.set, hw] using hz)
    · simp [Sys.set, hw] at hz
    · exact hseen w z (by simpa [Sys.set, hw] using hz)
  | exit =>
    simp only [Sys.deliver, Option.ite_none_right_eq_some, Option.some.injEq, Prod.mk.injEq] at hdeliver
    obtain ⟨_, _, rfl⟩ := hdeliver
    exact ⟨hrx, hconn, hnext, hid, hseen⟩
  | context_destroyed =>
    simp only [Sys.deliver, Option.ite_none_right_eq_some, Option.some.injEq, Prod.mk.injEq] at hdeliver
    obtain ⟨_, _, rfl⟩ := hdeliver
    exact ⟨hrx, hconn, hnext, fun w x hx => (by cases hx), fun w x hx => (by cases hx)⟩

theorem app_numbered {f : AppFrame} {a : Answer} {fs : List AppFrame}
    (happ : s.app f a = some (fs, s')) (h : Numbered srv s) : Numbered srv s' := by
  cases f with
  | wss_start | wss_stop =>
    simp only [Sys.app] at happ
    split at happ <;> cases happ
    · exact ⟨h.rx_cb, h.conn_cb, h.next_id, h.client_id, h.seen⟩
    · exact h
  | stop_join | stop_context_destroyed =>
    simp only [Sys.app, Option.ite_none_right_eq_some, Option.some.injEq, Prod.mk.injEq] at happ
    obtain ⟨_, _, rfl⟩ := happ
    exact ⟨h.rx_cb, h.conn_cb, h.next_id, h.client_id, h.seen⟩

/-- The callbacks of one connection are told apart from those of the others by
    the client id. -/
theorem notes_of_ne {id : Int} (hid : ps.client_id ≠ id) {user : per_session_t} {calls : List Call}
    {ret : Int} (h : Outcome srv ps w chunk user calls ret) : notes id calls = [] := by
  cases h with
  | failed | appended => rfl
  | completed _ _ _ _ _ hnotes =>
    rw [hnotes, if_neg fun hboth => hid hboth.2]

theorem closed_notes (srv : wss_server) (ps : per_session_t) (id : Int) : notes id (closed srv ps) =
    if srv.conn_cb = true ∧ ps.client_id = id then [.disconnected] else [] := by
  unfold closed
  cases srv.conn_cb <;> by_cases hid : ps.client_id = id <;> simp [notes, Call.note, hid]

/-- What one event does to connection `w`. With the allocator answering nothing is
    lost. -/
theorem deliver_session {e : Event} {fs : List Empty} {app : Nat → List AppFrame}
    (hdeliver : s.deliver e = some (fs, s')) (hlively : lively ⟨s, [], app⟩ (.event e) = true)
    (hnumbered : Numbered srv s) (h : Session srv w ks ended ops handled s) :
    ∃ ops' handled', Session srv w (ks ++ received w [.event e]) (ended || closes w [.event e])
        ops' handled' s' ∧
      (granted ⟨s, [], app⟩ (.event e) = true → Spared w ops handled s →
        Spared w ops' handled' s') := by
  have hidle : ∀ {t : Sys}, received w [.event e] = [] → closes w [.event e] = false →
      (t.next ≤ w ↔ s.next ≤ w) → t.wsi w = s.wsi w ∨ t.wsi w = none →
      ws_server.frames w t.trace = ws_server.frames w s.trace →
      ws_server.notes (srv.next_id + w) t.trace = ws_server.notes (srv.next_id + w) s.trace →
      ∃ ops' handled', Session srv w (ks ++ received w [.event e])
          (ended || closes w [.event e]) ops' handled' t ∧
        (granted ⟨s, [], app⟩ (.event e) = true → Spared w ops handled s →
          Spared w ops' handled' t) := by
    intro t hreceived hcloses hnext hwsi hframes hnotes
    rw [hreceived, hcloses, List.append_nil, Bool.or_false]
    exact ⟨ops, handled, h.other hnext hwsi hframes hnotes, fun _ hspared => hspared.other hwsi⟩
  have hids : ∀ {v : WsiId}, v ≠ w → srv.next_id + (v : Int) ≠ srv.next_id + w := by
    intro v hv heq
    exact hv (Int.ofNat_inj.mp (Int.add_left_cancel heq))
  cases e with
  | established v =>
    simp only [Sys.deliver, Option.ite_none_right_eq_some, Option.some.injEq, Prod.mk.injEq] at hdeliver
    obtain ⟨⟨_, rfl⟩, _, rfl⟩ := hdeliver
    have hframes : ws_server.frames w (s.trace ++ (established s.srv).2.2) =
        ws_server.frames w s.trace := by
      rw [frames_append, established, conn_cb_frames, List.append_nil]
    by_cases hw : s.next = w
    · subst hw
      obtain ⟨rfl, rfl, rfl, rfl⟩ := h.unused (Nat.le_refl _)
      have htold : ws_server.notes (srv.next_id + s.next) (established s.srv).2.2 =
          if srv.conn_cb then [.connected] else [] := by
        rw [established, hnumbered.conn_cb, hnumbered.next_id]
        cases srv.conn_cb <;> simp [ws_server.notes, Call.note]
      refine ⟨[], [], ⟨fun hle => absurd hle (Nat.not_succ_le_self _), fun _ _ => rfl,
        fun x hx _ => ?_, List.nil_prefix, .refl _, ?_, hframes.trans h.frames, fun x hx => ?_,
        fun x hx hsome => ?_⟩, fun _ _ => ⟨rfl, by simp, fun x hx => ?_⟩⟩
      · obtain rfl : _ = x := by simpa [Sys.set] using hx
        rfl
      · simp only [Sys.set, notes_append, htold, h.notes, Nat.lt_irrefl, if_false,
          Nat.lt_succ_self, if_true]
        simp [closes]
      · obtain rfl : _ = x := by simpa [Sys.set] using hx
        rfl
      · obtain rfl : _ = x := by simpa [Sys.set] using hx
        cases hsome
      · obtain rfl : _ = x := by simpa [Sys.set] using hx
        rfl
    · refine hidle rfl rfl ⟨Nat.le_of_succ_le, fun hle => Nat.lt_of_le_of_ne hle hw⟩
        (.inl (by simp [Sys.set, Ne.symm hw])) hframes ?_
      · simp only [Sys.set, notes_append, established, hnumbered.next_id]
        cases s.srv.conn_cb <;> simp [ws_server.notes, Call.note, hw]
  | receive v chunk realloc malloc =>
    simp only [Sys.deliver, Option.ite_none_right_eq_some, Option.bind_eq_some_iff,
      Option.map_eq_some_iff, Prod.mk.injEq] at hdeliver
    obtain ⟨_, x, hx, ⟨user, calls, ret⟩, hreceive, _, rfl⟩ := hdeliver
    have hwrites : ws_server.frames w calls = [] := receive_frames hreceive
    by_cases hv : v = w
    · subst hv
      have halive : x.failed = false := by simpa [lively, hx] using hlively
      obtain ⟨ops', handled', hsession, hspares⟩ :=
        h.receive hnumbered hx halive (receive_outcome hreceive) hwrites
      have hreceived : received v [.event (.receive v chunk realloc malloc)] = [chunk] := by
        simp [received]
      rw [hreceived]
      refine ⟨ops', handled', by simpa [closes] using hsession, fun hgranted hspared => ?_⟩
      simp only [granted, hx, Option.all_some, hreceive, Option.any_some, Bool.and_eq_true, beq_iff_eq,
        Bool.or_eq_true, Bool.not_eq_true'] at hgranted
      obtain ⟨hputs, hdrop⟩ := hspares hgranted.1
        (fun hfinal => hgranted.2.resolve_left (by simp [hfinal])) hspared
      refine ⟨hputs, hdrop, fun y hy => ?_⟩
      obtain rfl : _ = y := by simpa [Sys.set] using hy
      simp [halive, hgranted.1]
    · refine hidle (by simp [received, hv]) rfl (by rfl) (.inl (by simp [Sys.set, Ne.symm hv])) ?_ ?_
      · simp [Sys.set, hwrites]
      · have hid : x.user.client_id ≠ srv.next_id + w := by
          rw [hnumbered.client_id v x hx]
          exact hids hv
        have hother := notes_of_ne hid (receive_outcome hreceive)
        simp [Sys.set, hother]
  | server_writeable v =>
    simp only [Sys.deliver, Option.ite_none_right_eq_some, Option.map_eq_some_iff,
      Prod.mk.injEq] at hdeliver
    obtain ⟨_, x, hx, _, rfl⟩ := hdeliver
    by_cases hv : v = w
    · subst hv
      refine ⟨ops ++ [.take], handled ++ [], by simpa [received, closes] using h.writeable hnumbered hx,
        fun _ hspared => ⟨?_, fun op hop => ?_, fun y hy => ?_⟩⟩
      · rw [mailbox.puts_append, hspared.puts]
        rfl
      · rcases List.mem_append.mp hop with hop | hop
        · exact hspared.no_drop op hop
        · simp [List.mem_singleton.mp hop]
      · obtain rfl : _ = y := by simpa [Sys.set] using hy
        exact hspared.not_failed x hx
    · obtain ⟨_, _, hcalls⟩ := writeable_frames (w := w) x.user v
      rw [if_neg hv] at hcalls
      refine hidle rfl rfl (by rfl) (.inl (by simp [Sys.set, Ne.symm hv])) ?_ ?_
      · simp [Sys.set, hcalls]
      · unfold server_writeable
        split <;> simp [Sys.set, ws_server.notes, Call.note]
  | closed v =>
    simp only [Sys.deliver, Option.ite_none_right_eq_some, Option.map_eq_some_iff,
      Prod.mk.injEq] at hdeliver
    obtain ⟨_, x, hx, _, rfl⟩ := hdeliver
    have hframes : ws_server.frames w (s.trace ++ closed s.srv x.user) =
        ws_server.frames w s.trace := by
      rw [frames_append, closed, conn_cb_frames, List.append_nil]
    by_cases hv : v = w
    · subst hv
      have hlt := hnumbered.seen v x hx
      have hgone : ∀ y, (s.set v none (closed s.srv x.user)).wsi v ≠ some y := by simp [Sys.set]
      refine ⟨ops, handled, ⟨fun hle => absurd hlt (Nat.not_lt.mpr hle), fun y hy => (hgone y hy).elim,
        fun y hy => (hgone y hy).elim, by simpa [received] using h.completed, h.puts, ?_,
        hframes.trans h.frames, fun y hy => (hgone y hy).elim, fun y hy => (hgone y hy).elim⟩,
        fun _ hspared => hspared.other (.inr (by simp [Sys.set]))⟩
      rw [Sys.set, notes_append, h.notes, closed_notes, hnumbered.conn_cb,
        hnumbered.client_id v x hx, if_pos hlt, if_pos hlt, h.ongoing x hx]
      cases srv.conn_cb <;> simp [closes]
    · refine hidle rfl (by simp [closes, hv]) (by rfl) (.inl (by simp [Sys.set, Ne.symm hv])) hframes ?_
      rw [Sys.set, notes_append, closed_notes, hnumbered.client_id v x hx,
        if_neg fun hboth => hids hv hboth.2, List.append_nil]
  | exit =>
    simp only [Sys.deliver, Option.ite_none_right_eq_some, Option.some.injEq, Prod.mk.injEq] at hdeliver
    obtain ⟨_, _, rfl⟩ := hdeliver
    exact hidle rfl rfl Iff.rfl (.inl rfl) rfl rfl
  | context_destroyed =>
    simp only [Sys.deliver, Option.ite_none_right_eq_some, Option.some.injEq, Prod.mk.injEq] at hdeliver
    obtain ⟨_, _, rfl⟩ := hdeliver
    exact hidle rfl rfl Iff.rfl (.inr rfl) rfl rfl

/-- The owner's calls touch no connection. -/
theorem app_session {f : AppFrame} {a : Answer} {fs : List AppFrame}
    (happ : s.app f a = some (fs, s')) (h : Session srv w ks ended ops handled s) :
    Session srv w ks ended ops handled s' ∧
      (Spared w ops handled s → Spared w ops handled s') := by
  cases f with
  | wss_start | wss_stop =>
    simp only [Sys.app] at happ
    split at happ <;> cases happ
    · refine ⟨h.other (by rfl) (.inl rfl) ?_ ?_, fun hspared => hspared.other (.inl rfl)⟩
      · simp [ws_server.frames, Call.frame]
      · simp [ws_server.notes, Call.note]
    · exact ⟨h, id⟩
  | stop_join | stop_context_destroyed =>
    simp only [Sys.app, Option.ite_none_right_eq_some, Option.some.injEq, Prod.mk.injEq] at happ
    obtain ⟨_, _, rfl⟩ := happ
    exact ⟨h.other (by rfl) (.inl rfl) rfl rfl, fun hspared => hspared.other (.inl rfl)⟩

/-- A step makes the calls of one connection, under the id it was given. -/
theorem deliver_unissued {e : Event} {fs : List Empty} {id : Int}
    (hdeliver : s.deliver e = some (fs, s')) (hnumbered : Numbered srv s)
    (h : (∀ w < s.next, id ≠ srv.next_id + w) → notes id s.trace = [])
    (hid : ∀ w < s'.next, id ≠ srv.next_id + w) : notes id s'.trace = [] := by
  have hother : ∀ {v : WsiId} {x : Wsi}, s.wsi v = some x →
      (∀ w < s.next, id ≠ srv.next_id + w) → x.user.client_id ≠ id := by
    intro v x hx hid
    rw [hnumbered.client_id v x hx]
    exact Ne.symm (hid v (hnumbered.seen v x hx))
  cases e with
  | established v =>
    simp only [Sys.deliver, Option.ite_none_right_eq_some, Option.some.injEq, Prod.mk.injEq] at hdeliver
    obtain ⟨⟨_, rfl⟩, _, rfl⟩ := hdeliver
    have hnew : srv.next_id + s.next ≠ id := Ne.symm (hid s.next (Nat.lt_succ_self _))
    have hbefore := h fun w hw => hid w (Nat.lt_succ_of_lt hw)
    simp only [Sys.set, notes_append, hbefore, established, hnumbered.next_id]
    cases s.srv.conn_cb <;> simp [notes, Call.note, hnew]
  | receive v chunk realloc malloc =>
    simp only [Sys.deliver, Option.ite_none_right_eq_some, Option.bind_eq_some_iff,
      Option.map_eq_some_iff, Prod.mk.injEq] at hdeliver
    obtain ⟨_, x, hx, ⟨user, calls, ret⟩, hreceive, _, rfl⟩ := hdeliver
    rw [Sys.set, notes_append, h hid, notes_of_ne (hother hx hid) (receive_outcome hreceive)]
    rfl
  | server_writeable v =>
    simp only [Sys.deliver, Option.ite_none_right_eq_some, Option.map_eq_some_iff,
      Prod.mk.injEq] at hdeliver
    obtain ⟨_, x, _, _, rfl⟩ := hdeliver
    rw [Sys.set, notes_append, h hid]
    unfold server_writeable
    split <;> simp [notes, Call.note]
  | closed v =>
    simp only [Sys.deliver, Option.ite_none_right_eq_some, Option.map_eq_some_iff,
      Prod.mk.injEq] at hdeliver
    obtain ⟨_, x, hx, _, rfl⟩ := hdeliver
    rw [Sys.set, notes_append, h hid, closed_notes, if_neg fun hboth => hother hx hid hboth.2]
    rfl
  | exit | context_destroyed =>
    simp only [Sys.deliver, Option.ite_none_right_eq_some, Option.some.injEq, Prod.mk.injEq] at hdeliver
    obtain ⟨_, _, rfl⟩ := hdeliver
    exact h hid

theorem app_notes {f : AppFrame} {a : Answer} {fs : List AppFrame} (id : Int)
    (happ : s.app f a = some (fs, s')) :
    s'.next = s.next ∧ notes id s'.trace = notes id s.trace := by
  cases f with
  | wss_start | wss_stop =>
    simp only [Sys.app] at happ
    split at happ <;> cases happ <;> simp [notes, Call.note]
  | stop_join | stop_context_destroyed =>
    simp only [Sys.app, Option.ite_none_right_eq_some, Option.some.injEq, Prod.mk.injEq] at happ
    obtain ⟨_, _, rfl⟩ := happ
    exact ⟨rfl, rfl⟩

theorem initial_numbered : Numbered srv (initial srv).shared :=
  ⟨rfl, rfl, (Int.add_zero _).symm, fun w x hx => (by cases hx), fun w x hx => (by cases hx)⟩

/-- No call carries an id that was not given out. -/
theorem Follows.unissued {ok : Config → Label → Prop} {ls : List Label} {cfg : Config} {id : Int}
    (h : system.Follows ok (initial srv) ls cfg)
    (hid : ∀ w < cfg.shared.next, id ≠ srv.next_id + w) : notes id cfg.shared.trace = [] := by
  refine (h.reaches.invariant (I := fun cfg => Numbered srv cfg.shared ∧
    ((∀ w < cfg.shared.next, id ≠ srv.next_id + w) → notes id cfg.shared.trace = []))
    ⟨initial_numbered, fun _ => rfl⟩ ?_).2 hid
  rintro cfg l cfg' _ hmove ⟨hnumbered, hbefore⟩
  cases hmove with
  | event hdeliver =>
    exact ⟨deliver_numbered hdeliver hnumbered, deliver_unissued hdeliver hnumbered hbefore⟩
  | @svc f _ _ _ _ _ _ _ => exact f.elim
  | call _ _ => exact ⟨hnumbered, hbefore⟩
  | app _ happ =>
    obtain ⟨hnext, hnotes⟩ := app_notes id happ
    refine ⟨app_numbered happ hnumbered, fun hid => hnotes.trans (hbefore ?_)⟩
    rw [← hnext]
    exact hid

/-- In every run the steps on a connection are those of one session. -/
theorem Follows.session {ok : Config → Label → Prop} {ls : List Label} {cfg : Config}
    (h : system.Follows ok (initial srv) ls cfg) (hlively : ∀ cfg l, ok cfg l → lively cfg l = true)
    (w : WsiId) : Numbered srv cfg.shared ∧ ∃ ops handled,
      Session srv w (received w ls) (closes w ls) ops handled cfg.shared ∧
      ((∀ cfg l, ok cfg l → granted cfg l = true) → Spared w ops handled cfg.shared) := by
  refine h.invariant (I := fun ls cfg => Numbered srv cfg.shared ∧ ∃ ops handled,
    Session srv w (received w ls) (closes w ls) ops handled cfg.shared ∧
      ((∀ cfg l, ok cfg l → granted cfg l = true) → Spared w ops handled cfg.shared)) ?_ ?_
  · refine ⟨initial_numbered, [], [], ⟨fun _ => ⟨rfl, rfl, rfl, rfl⟩, fun x hx => (by cases hx),
        fun x hx => (by cases hx), List.nil_prefix, .refl _, ?_, rfl, fun x hx => (by cases hx),
        fun x hx => (by cases hx)⟩,
      fun _ => ⟨rfl, by simp, fun x hx => (by cases hx)⟩⟩
    simp [initial, notes]
  · rintro ls cfg l cfg' hok hmove ⟨hnumbered, ops, handled, hsession, hspared⟩
    have hreceived : received w (ls ++ [l]) = received w ls ++ received w [l] :=
      List.filterMap_append
    have hcloses : closes w (ls ++ [l]) = (closes w ls || closes w [l]) := List.any_append
    rw [hreceived, hcloses]
    cases hmove with
    | event hdeliver =>
      obtain ⟨ops', handled', hsession', hspares⟩ :=
        deliver_session hdeliver (hlively _ _ hok) hnumbered hsession
      exact ⟨deliver_numbered hdeliver hnumbered, ops', handled', hsession',
        fun hgranted => hspares (hgranted _ _ hok) (hspared hgranted)⟩
    | @svc f _ _ _ _ _ _ _ => exact f.elim
    | call _ _ =>
      exact ⟨hnumbered, ops, handled, by simpa [received, closes] using hsession, hspared⟩
    | app _ happ =>
      obtain ⟨hsession', hspares⟩ := app_session happ hsession
      exact ⟨app_numbered happ hnumbered, ops, handled, by simpa [received, closes] using hsession',
        fun hgranted => hspares (hspared hgranted)⟩

section connection

variable {ls : List Label} {cfg : Config} {conn : Connection}

/-- The frames written on a connection are messages received on it, in order and
    each at most once, whatever the allocator answers. -/
theorem echoes_sublist
    (h : system.Follows (fun cfg l => lively cfg l = true) (initial srv) ls cfg)
    (hwire : received w ls = conn.chunks) (hconn : conn.WellFormed Chunk.is_final_fragment) :
    (frames w cfg.shared.trace).Sublist (conn.messages.map Prod.fst) := by
  obtain ⟨_, ops, handled, hsession, _⟩ := Follows.session h (fun _ _ => id) w
  have hmessages := take_receives.fold_connection hconn ⟨[], []⟩
  have hcompleted := hsession.completed
  rw [hwire, hmessages, List.nil_append] at hcompleted
  have hkept : (mailbox.run ops).taken.Sublist (mailbox.run ops).kept := List.sublist_append_left _ _
  rw [hsession.frames]
  exact hkept.trans ((mailbox.kept_sublist ops).trans (hsession.puts.trans hcompleted.sublist))

theorem echoes_sublist_second : ∃ cfg, Reachable cfg ∧
    frames 0 cfg.shared.trace = [([99, 100], false)] ∧
    (frames 0 cfg.shared.trace).Sublist (two_messages.messages.map Prod.fst) := by
  obtain ⟨cfg, hfollows, hframes⟩ : ∃ cfg,
      system.Follows (fun cfg l => lively cfg l = true) (initial wss_create)
        (open_run ++ [receive_text ab, receive_text cd, .event (.server_writeable 0)]) cfg ∧
      frames 0 cfg.shared.trace = [([99, 100], false)] :=
    System.exists_follows_of_run (by decide)
  exact ⟨cfg, ⟨_, hfollows.reaches.mono fun _ _ _ => trivial⟩, hframes,
    echoes_sublist hfollows rfl two_messages_split⟩

/-- With the allocator answering, the message a connection received last is never
    lost: it is the last frame written, or it is the next one. -/
theorem last_message_echoed {x : Wsi} {before : List Message} {m : Message}
    (h : system.Follows (fun cfg l => lively cfg l = true ∧ granted cfg l = true) (initial srv) ls cfg)
    (hwire : received w ls = conn.chunks) (hconn : conn.WellFormed Chunk.is_final_fragment)
    (hlast : conn.messages.map Prod.fst = before ++ [m]) (hx : cfg.shared.wsi w = some x) :
    (x.user.echo = none ∧ (frames w cfg.shared.trace).getLast? = some m) ∨
      (x.writable = true ∧ (cfg.shared.thread = .running →
        ∃ next, system.step cfg (.event (.server_writeable w)) = some next ∧
          frames w next.shared.trace = frames w cfg.shared.trace ++ [m])) := by
  obtain ⟨_, ops, handled, hsession, hspares⟩ := Follows.session h (fun _ _ hok => hok.1) w
  obtain ⟨hputs, hdrop, hfailed⟩ := hspares fun _ _ hok => hok.2
  have htaken := hsession.taken x hx (hfailed x hx)
  have hmessages := take_receives.fold_connection hconn ⟨[], []⟩
  rw [← hwire, htaken, List.nil_append, hlast] at hmessages
  have hhandled : handled = before ++ [m] := hmessages
  have hkept := mailbox.kept_getLast ops hdrop
  rw [hputs, hhandled, List.getLast?_concat, mailbox.State.kept, ← hsession.frames,
    ← hsession.slot x hx] at hkept
  cases hecho : x.user.echo with
  | none =>
    rw [hecho] at hkept
    exact .inl ⟨rfl, by simpa using hkept⟩
  | some n =>
    obtain rfl : n.message = m := by simpa [hecho] using hkept
    refine .inr ⟨hsession.requested x hx (by simp [hecho]), fun hrun => ?_⟩
    obtain ⟨s, svc, app⟩ := cfg
    obtain rfl : svc = [] := by
      cases svc with
      | nil => rfl
      | cons f rest => exact f.elim
    obtain ⟨_, _, hcalls⟩ := writeable_frames (w := w) x.user w
    refine ⟨⟨s.set w (some { x with user := (server_writeable x.user w).1, writable := false })
      (server_writeable x.user w).2, [], app⟩, ?_, ?_⟩
    · simp only at hrun hx
      simp [System.step, system, Sys.deliver, hrun, hx]
    · rw [Sys.set, frames_append, hcalls, if_pos rfl, hecho]
      rfl

theorem last_message_echoed_second : ∃ cfg x next, Reachable cfg ∧ cfg.shared.wsi 0 = some x ∧
    x.writable = true ∧ frames 0 cfg.shared.trace = [] ∧
    system.step cfg (.event (.server_writeable 0)) = some next ∧
    frames 0 next.shared.trace = [([99, 100], false)] := by
  obtain ⟨cfg, hfollows, hframes, hrun, hopen⟩ : ∃ cfg,
      system.Follows (fun cfg l => lively cfg l = true ∧ granted cfg l = true) (initial wss_create)
        (open_run ++ [receive_text ab, receive_text cd]) cfg ∧
      frames 0 cfg.shared.trace = [] ∧ cfg.shared.thread = .running ∧
      (cfg.shared.wsi 0).isSome = true :=
    System.exists_follows_of_run (by decide)
  obtain ⟨x, hx⟩ := Option.isSome_iff_exists.mp hopen
  have hlast : two_messages.messages.map Prod.fst = [([97, 98], false)] ++ [([99, 100], false)] := rfl
  rcases last_message_echoed hfollows rfl two_messages_split hlast hx with
    ⟨_, hlast⟩ | ⟨hwritable, hnext⟩
  · rw [hframes] at hlast
    cases hlast
  · obtain ⟨next, hstep, hwritten⟩ := hnext hrun
    rw [hframes] at hwritten
    exact ⟨cfg, x, next, ⟨_, hfollows.reaches.mono fun _ _ _ => trivial⟩, hx, hwritable, hframes, hstep,
      hwritten⟩

/-- What a connection tells the user: that it is there, each message completed on
    it in order, and that it is gone, all under an id of its own; nothing is told
    under an id that was not given out. -/
theorem session_notes
    (h : system.Follows (fun cfg l => lively cfg l = true) (initial srv) ls cfg)
    (hwire : received w ls = conn.chunks) (hconn : conn.WellFormed Chunk.is_final_fragment) :
    (∃ handled, handled <+: conn.messages.map Prod.fst ∧
      (∀ x, cfg.shared.wsi w = some x → x.failed = false →
        handled = conn.messages.map Prod.fst) ∧
      notes (srv.next_id + w) cfg.shared.trace = if w < cfg.shared.next then
        (if srv.conn_cb then [.connected] else []) ++ (if srv.rx_cb then handled.map Note.message else []) ++
          (if srv.conn_cb && closes w ls then [.disconnected] else []) else []) ∧
    ∀ id, (∀ v < cfg.shared.next, id ≠ srv.next_id + v) → notes id cfg.shared.trace = [] := by
  refine ⟨?_, fun id => Follows.unissued h⟩
  obtain ⟨_, ops, handled, hsession, _⟩ := Follows.session h (fun _ _ => id) w
  have hmessages := take_receives.fold_connection hconn ⟨[], []⟩
  rw [← hwire, List.nil_append] at hmessages
  refine ⟨handled, hmessages ▸ hsession.completed, fun x hx halive => ?_, hsession.notes⟩
  have htaken := hsession.taken x hx halive
  rw [htaken] at hmessages
  exact hmessages

theorem session_notes_closed : ∃ cfg, Reachable cfg ∧ notes 2 cfg.shared.trace = [] ∧
    ∃ handled : List Message, handled <+: two_messages.messages.map Prod.fst ∧
      notes 1 cfg.shared.trace = [.connected] ++ handled.map Note.message ++ [.disconnected] := by
  obtain ⟨cfg, hfollows, hnext⟩ : ∃ cfg,
      system.Follows (fun cfg l => lively cfg l = true)
        (initial (wss_set_conn_cb (wss_set_rx_cb wss_create true) true))
        (open_run ++ [receive_text ab, receive_text cd, .event (.closed 0)]) cfg ∧
      cfg.shared.next = 1 :=
    System.exists_follows_of_run (by decide)
  obtain ⟨⟨handled, hprefix, _, hnotes⟩, hunissued⟩ :=
    session_notes (w := 0) hfollows rfl two_messages_split
  rw [hnext] at hnotes
  refine ⟨cfg, ⟨_, hfollows.reaches.mono fun _ _ _ => trivial⟩, hunissued 2 fun v hv => ?_, handled,
    hprefix, hnotes⟩
  obtain rfl : v = 0 := Nat.lt_one_iff.mp (hnext ▸ hv)
  decide

end connection

end lws_client.ws_server
