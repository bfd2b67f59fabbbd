import LwsClientDemo.Traffic
import LwsClientDemo.WsPool.System

open interleaving

namespace lws_client.ws_pool

section act

variable (s : Sys) (c d : ClientId) (r : wsp_client × List Act)

@[simp] theorem Sys.act_client : (s.act c r).client d = if d = c then r.1 else s.client d :=
  Function.update_apply _ _ _ _

@[simp] theorem Sys.act_trace :
    (s.act c r).trace d = if d = c then s.trace c ++ r.2 else s.trace d :=
  Function.update_apply _ _ _ _

@[simp] theorem Sys.act_lws : (s.act c r).lws = s.lws.performs r.2 := rfl

@[simp] theorem Sys.act_pool : (s.act c r).pool = s.pool := rfl

@[simp] theorem Sys.act_thread : (s.act c r).thread = s.thread := rfl

@[simp] theorem Sys.act_freed : (s.act c r).freed = s.freed := rfl

@[simp] theorem Sys.setLws_lws (x : lws_context) : (s.setLws x).lws = x := rfl

end act

/-- What a section leaves alone in its client it leaves alone in all. -/
theorem Sys.act_field {γ : Type} (g : wsp_client → γ) {s : Sys} {c : ClientId}
    {r : wsp_client × List Act} (h : g r.1 = g (s.client c)) (d : ClientId) :
    g ((s.act c r).client d) = g (s.client d) := by
  rw [Sys.act_client]
  split
  · next hd => rw [hd, h]
  · rfl

theorem receive_client {c : wsp_client} {chunk : Chunk} {ok : Bool} {o : Out wsp_client}
    (h : receive c chunk ok = some o) : ∃ frag, o.client = { c with frag } := by
  unfold receive at h
  dsimp only at h
  split at h
  · cases h
    exact ⟨c.frag, rfl⟩
  · simp only [Option.map_eq_some_iff] at h
    obtain ⟨⟨ret, f⟩, _, rfl⟩ := h
    dsimp only
    split
    · exact ⟨f, rfl⟩
    · split
      · exact ⟨f.reset, rfl⟩
      · exact ⟨f, rfl⟩

theorem timer_client (c : wsp_client) (w : WsiId) (tick : Int) :
    ∃ send_ping, (timer c w tick).client = { c with send_ping } := by
  unfold timer
  dsimp only
  split
  · exact ⟨c.send_ping, rfl⟩
  · split
    · exact ⟨c.send_ping, rfl⟩
    · exact ⟨true, rfl⟩

theorem schedule_reconnect_client (c : wsp_client) (ret : Int) :
    ∃ delay state sul,
      (schedule_reconnect c ret).1 = { c with reconnect_delay_ms := delay, state, sul } ∧
        state ≠ .STATE_CONNECTED := by
  unfold schedule_reconnect
  dsimp only
  split
  · split
    · exact ⟨c.reconnect_delay_ms, _, c.sul, rfl, by simp⟩
    · exact ⟨_, _, _, rfl, by simp⟩
  · exact ⟨_, _, _, rfl, by simp⟩

/-- The end of a connection signals a stop, or is counted as a failure. -/
theorem connection_error_client (c : wsp_client) (msg : Option String) :
    ∃ n stopped waiting, (connection_error c msg).1 =
      { c with wsi := none, reconnect_fail_count := n, stopped, waiting } ∧
        (c.stopping = true → stopped = true) ∧ (c.stopping = false → stopped = c.stopped) := by
  unfold connection_error
  dsimp only
  split
  · next hstop => exact ⟨_, true, false, rfl, fun _ => rfl, by simp [hstop]⟩
  · next hstop => exact ⟨_, c.stopped, c.waiting, rfl, by simp [hstop], fun _ => rfl⟩

theorem closed_client (c : wsp_client) :
    ∃ n stopped waiting, (closed c).1 =
      { c with wsi := none, state := .STATE_IDLE, reconnect_fail_count := n, stopped, waiting } ∧
        (c.stopping = true → stopped = true) ∧ (c.stopping = false → stopped = c.stopped) := by
  unfold closed
  dsimp only
  split
  · next hstop => exact ⟨_, true, false, rfl, fun _ => rfl, by simp [hstop]⟩
  · next hstop => exact ⟨_, c.stopped, c.waiting, rfl, by simp [hstop], fun _ => rfl⟩

theorem wsi_destroy_client (c : wsp_client) (w : WsiId) :
    ∃ stopped waiting, wsi_destroy c w =
      { c with wsi := if c.wsi = some w then none else c.wsi, stopped, waiting } ∧
        (c.stopping = true → stopped = true) ∧ (c.stopping = false → stopped = c.stopped) := by
  unfold wsi_destroy
  dsimp only
  split
  · next hwsi =>
    split
    · next hstop => exact ⟨true, false, rfl, fun _ => rfl, by simp_all⟩
    · next hstop => exact ⟨c.stopped, c.waiting, rfl, by simp_all, fun _ => rfl⟩
  · next hwsi =>
    split
    · next hstop => exact ⟨true, false, rfl, fun _ => rfl, by simp_all⟩
    · next hstop => exact ⟨c.stopped, c.waiting, rfl, by simp_all, fun _ => rfl⟩

/-- A send is accepted exactly when its message is appended, to a client that is
    not stopping; otherwise the client is unchanged, and a node that was
    allocated is freed. -/
theorem enqueue_locked_spec (c : wsp_client) (data : Data) (is_binary ok : Bool) :
    (∃ n, enqueue_locked c data is_binary ok = (.LWS_OK, { c with q := c.q.append n }, []) ∧
        n.message = (data.bytes, is_binary) ∧ c.stopping = false) ∨
      ∃ ret acts, ret ≠ .LWS_OK ∧ enqueue_locked c data is_binary ok = (ret, c, acts) ∧
        (acts = [] ∨ ∃ n : ws_msg_node_t, acts = [.free_node n.payload n.is_binary]) := by
  unfold enqueue_locked
  split
  · exact .inr ⟨_, _, by simp, rfl, .inl rfl⟩
  · next n hn =>
    dsimp only
    split
    · exact .inr ⟨_, _, by simp, rfl, .inr ⟨n, rfl⟩⟩
    · next hstop =>
      split
      · exact .inr ⟨_, _, by simp, rfl, .inr ⟨n, rfl⟩⟩
      · exact .inl ⟨n, rfl, (ws_msg_new_message hn).1, by simpa using hstop⟩

/-- `enqueue` calls nothing but `free`. -/
theorem enqueue_locked_acts {p : Act → Bool}
    (h : ∀ n : ws_msg_node_t, p (.free_node n.payload n.is_binary) = true) (c : wsp_client)
    (data : Data) (is_binary ok : Bool) : Every p (enqueue_locked c data is_binary ok).2.2 := by
  rcases enqueue_locked_spec c data is_binary ok with ⟨n, heq, _⟩ | ⟨ret, acts, _, heq, hfreed⟩ <;>
    rw [heq]
  · exact Every.nil
  · rcases hfreed with rfl | ⟨n, rfl⟩
    · exact Every.nil
    · exact Every.single (h n)

theorem wsp_pool.add_spec {p p' : wsp_pool} {c : ClientId} (h : p.add c = some p') :
    p' = { p with clients := p.clients ++ [c], pending := p.pending ++ [c] } := by
  unfold wsp_pool.add at h
  split at h
  · cases h
  · cases h
    rfl

section calls

variable {p : Act → Bool}

/-- RECEIVE calls `rx_cb` and `on_message` only. -/
theorem receive_acts (hrx : ∀ data is_binary, p (.rx_cb data is_binary) = true)
    (hmessage : ∀ data is_binary, p (.on_message data is_binary) = true) {c : wsp_client}
    {chunk : Chunk} {ok : Bool} {o : Out wsp_client} (h : receive c chunk ok = some o) :
    Every p o.acts := by
  have hdeliver : ∀ (rx message : Bool) (data : List UInt8),
      Every p (callIf rx (.rx_cb data chunk.frame_is_binary) ++
        callIf message (.on_message data chunk.frame_is_binary)) := fun _ _ _ =>
    (Every.callIf (hrx _ _)).append (Every.callIf (hmessage _ _))
  unfold receive at h
  dsimp only at h
  split at h
  · cases h
    exact hdeliver _ _ _
  · simp only [Option.map_eq_some_iff] at h
    obtain ⟨⟨ret, f⟩, _, rfl⟩ := h
    dsimp only
    split
    · exact Every.nil
    · split
      · exact hdeliver _ _ _
      · exact Every.nil

theorem established_acts (htimer : ∀ w usecs, p (.lws_set_timer_usecs w usecs) = true)
    (hhook : p .on_connected = true) (c : wsp_client) (w : WsiId) : Every p (established c w).2 := by
  have hset : Every p [.lws_set_timer_usecs w (c.ping_interval_ms * 1000)] :=
    Every.single (htimer _ _)
  exact hset.append (Every.callIf hhook)

theorem timer_acts (hhook : p .on_heartbeat_tick = true)
    (hwritable : ∀ w, p (.lws_callback_on_writable w) = true)
    (htimer : ∀ w usecs, p (.lws_set_timer_usecs w usecs) = true) (c : wsp_client) (w : WsiId)
    (tick : Int) : Every p (timer c w tick).acts := by
  have hasked : Every p (callIf (hooked c.hooks (·.on_heartbeat_tick)) .on_heartbeat_tick) :=
    Every.callIf hhook
  unfold timer
  dsimp only
  split
  · apply hasked.append
    split
    · exact Every.onWsi fun w => htimer w _
    · exact Every.nil
  · split
    · exact hasked
    · exact hasked.append (Every.pair (hwritable w) (htimer w _))

theorem schedule_reconnect_acts (hhook : ∀ n ms, p (.on_reconnect_decision n ms) = true)
    (hsul : ∀ usecs, p (.lws_sul_schedule usecs) = true) (c : wsp_client) (ret : Int) :
    Every p (schedule_reconnect c ret).2 := by
  unfold schedule_reconnect
  dsimp only
  split
  · split
    · exact Every.single (hhook _ _)
    · exact Every.pair (hhook _ _) (hsul _)
  · exact Every.single (hsul _)

theorem connection_error_acts (herror : ∀ msg, p (.on_error msg) = true)
    (hhook : p .on_disconnected = true) (c : wsp_client) (msg : Option String) :
    Every p (connection_error c msg).2 := by
  unfold connection_error
  dsimp only
  split
  · exact Every.nil
  · exact (Every.callIf (herror _)).append (Every.callIf hhook)

theorem closed_acts (hhook : p .on_disconnected = true) (c : wsp_client) :
    Every p (closed c).2 := by
  unfold closed
  dsimp only
  split
  · exact Every.nil
  · exact Every.callIf hhook

end calls

/-- The node of client `d` taken off its queue by the WRITEABLE callback that is
    running. -/
def inflight (d : ClientId) (fs : List Frame) : List ws_msg_node_t :=
  fs.filterMap fun
    | .write c _ n _ => if c = d then some n else none
    | _ => none

theorem inflight_append (d : ClientId) (fs gs : List Frame) :
    inflight d (fs ++ gs) = inflight d fs ++ inflight d gs :=
  List.filterMap_append

/-- What a section leaves as it is: the configuration, the queue and the
    reassembly buffer. -/
structure Kept (c c' : wsp_client) : Prop where
  config : c'.towsp_config = c.towsp_config
  q : c'.q = c.q
  frag : c'.frag = c.frag

theorem Kept.refl (c : wsp_client) : Kept c c := ⟨rfl, rfl, rfl⟩

theorem Kept.schedule_reconnect (c : wsp_client) (ret : Int) :
    Kept c (schedule_reconnect c ret).1 := by
  obtain ⟨_, _, _, hc, _⟩ := schedule_reconnect_client c ret
  rw [hc]
  exact ⟨rfl, rfl, rfl⟩

theorem Kept.connection_error (c : wsp_client) (msg : Option String) :
    Kept c (connection_error c msg).1 := by
  obtain ⟨_, _, _, hc, _⟩ := connection_error_client c msg
  rw [hc]
  exact ⟨rfl, rfl, rfl⟩

theorem Kept.closed (c : wsp_client) : Kept c (closed c).1 := by
  obtain ⟨_, _, _, hc, _⟩ := closed_client c
  rw [hc]
  exact ⟨rfl, rfl, rfl⟩

theorem Kept.wsi_destroy (c : wsp_client) (w : WsiId) : Kept c (wsi_destroy c w) := by
  obtain ⟨_, _, hc, _⟩ := wsi_destroy_client c w
  rw [hc]
  exact ⟨rfl, rfl, rfl⟩

/-- For client `d` the section makes calls with property `p` only. -/
def Makes (p : Act → Bool) (s s' : Sys) (d : ClientId) : Prop :=
  Extends (Every p) (s.trace d) (s'.trace d)

section makes

variable {p q : Act → Bool} {s s' : Sys} {c d : ClientId} {r : wsp_client × List Act}

theorem Makes.of_eq (h : s'.trace d = s.trace d) : Makes p s s' d := Extends.of_eq h Every.nil

theorem Makes.act (h : Every p r.2) (d : ClientId) : Makes p s (s.act c r) d := by
  by_cases hd : d = c
  · subst hd
    exact ⟨r.2, by simp, h⟩
  · exact .of_eq (by simp [hd])

theorem Makes.mono (h : Makes p s s' d) (himp : ∀ act, p act = true → q act = true) :
    Makes q s s' d :=
  Extends.mono h fun _ hacts => hacts.mono himp

theorem Makes.trans {s'' : Sys} (h : Makes p s s' d) (h' : Makes p s' s'' d) : Makes p s s'' d :=
  Extends.trans (fun _ _ => Every.append) h h'

/-- What a client's own section does to its fields relates those of every client. -/
theorem Sys.act_related {R : wsp_client → wsp_client → Prop} (hrefl : ∀ c, R c c)
    (h : R (s.client c) r.1) (d : ClientId) : R (s.client d) ((s.act c r).client d) := by
  by_cases hd : d = c
  · subst hd
    simpa using h
  · simpa [hd] using hrefl (s.client d)

end makes

/-- For client `d` the section keeps the queue and makes no call that counts. -/
structure Silent (s s' : Sys) (d : ClientId) : Prop where
  kept : Kept (s.client d) (s'.client d)
  trace : Makes Act.mute s s' d

theorem Silent.of_eq {s s' : Sys} {d : ClientId} (hclient : s'.client d = s.client d)
    (htrace : s'.trace d = s.trace d) : Silent s s' d :=
  ⟨hclient ▸ .refl _, .of_eq htrace⟩

theorem Silent.act {s : Sys} {c : ClientId} {r : wsp_client × List Act}
    (hkept : Kept (s.client c) r.1) (hmute : Mute r.2) (d : ClientId) : Silent s (s.act c r) d :=
  ⟨Sys.act_related Kept.refl hkept d, .act hmute d⟩

/-- What a section of the service thread does to the queue, the reassembly
    buffer and the trace of client `d`: nothing that counts, a connect call, or
    the write of the node in flight. -/
theorem svc_spec {f : Frame} {a : Answer} {s s' : Sys} {fs : List Frame}
    (h : s.svc f a = some (fs, s')) (d : ClientId) :
    inflight d fs = [] ∧ ((Silent s s' d ∧ inflight d [f] = []) ∨
      (f = .do_connect d ∧ Kept (s.client d) (s'.client d) ∧ ∃ info,
        s'.trace d = s.trace d ++ [.lws_client_connect_via_info info]) ∨
      ∃ w n more, f = .write d w n more ∧ s'.client d = s.client d ∧
        s'.trace d = s.trace d ++ writeable_write n w) := by
  cases f with
  | do_connect c =>
    have hfs : inflight d fs = [] := by
      simp only [Sys.svc] at h
      split at h <;> cases h
      · rfl
      · next error destroyed _ => cases error <;> cases destroyed <;> rfl
    have hs' : s'.client d = (if d = c then { s.client c with state := .STATE_CONNECTING }
          else s.client d) ∧
        s'.trace d = if d = c then s.trace c ++
          [.lws_client_connect_via_info (connect_info (s.client c))] else s.trace d := by
      simp only [Sys.svc] at h
      split at h <;> cases h <;> exact ⟨s.act_client c d _, s.act_trace c d _⟩
    refine ⟨hfs, ?_⟩
    by_cases hd : d = c
    · subst hd
      rw [if_pos rfl, if_pos rfl] at hs'
      exact .inr (.inl ⟨rfl, hs'.1 ▸ ⟨rfl, rfl, rfl⟩, _, hs'.2⟩)
    · rw [if_neg hd, if_neg hd] at hs'
      exact .inl ⟨.of_eq hs'.1 hs'.2, rfl⟩
  | connection_error c msg =>
    cases h
    exact ⟨by split <;> rfl,
      .inl ⟨.act (.connection_error _ msg) (connection_error_acts (fun _ => rfl) rfl _ msg) d, rfl⟩⟩
  | wsi_destroy c w =>
    cases h
    exact ⟨rfl, .inl ⟨.act (.wsi_destroy _ w) Every.nil d, rfl⟩⟩
  | connect_return c wsi =>
    cases h
    exact ⟨by split <;> rfl, .inl ⟨.act ⟨rfl, rfl, rfl⟩ Every.nil d, rfl⟩⟩
  | schedule_reconnect c =>
    simp only [Sys.svc, Option.some.injEq, Prod.mk.injEq] at h
    obtain ⟨rfl, rfl⟩ := h
    exact ⟨by split <;> rfl, .inl ⟨.of_eq rfl rfl, rfl⟩⟩
  | schedule_arm c =>
    cases h
    exact ⟨rfl, .inl ⟨.act (.schedule_reconnect _ a.ret)
      (schedule_reconnect_acts (fun _ _ => rfl) (fun _ => rfl) _ a.ret) d, rfl⟩⟩
  | has_data_check c w =>
    simp only [Sys.svc, Option.some.injEq, Prod.mk.injEq] at h
    obtain ⟨rfl, rfl⟩ := h
    exact ⟨by split <;> rfl, .inl ⟨.of_eq rfl rfl, rfl⟩⟩
  | lws_callback_on_writable c w =>
    cases h
    exact ⟨rfl, .inl ⟨.act (.refl _) (Every.single rfl) d, rfl⟩⟩
  | write c w n more =>
    have hframes : inflight d fs = [] := by
      simp only [Sys.svc] at h
      split at h <;> cases h
      · rfl
      · split <;> rfl
    have hs' : s'.client d = s.client d ∧
        s'.trace d = if d = c then s.trace c ++ writeable_write n w else s.trace d := by
      simp only [Sys.svc] at h
      split at h <;> cases h <;> by_cases hd : d = c <;> simp [Sys.setLws, hd]
    refine ⟨hframes, ?_⟩
    by_cases hd : d = c
    · subst hd
      exact .inr (.inr ⟨w, n, more, rfl, hs'.1, by simpa using hs'.2⟩)
    · refine .inl ⟨.of_eq hs'.1 (by simpa [hd] using hs'.2), ?_⟩
      simp [inflight, Ne.symm hd]
  | event_wait_cancelled | wc_snapshot =>
    cases h
    exact ⟨rfl, .inl ⟨.of_eq rfl rfl, rfl⟩⟩
  | wc_connect pend =>
    cases pend <;> cases h
    · exact ⟨rfl, .inl ⟨.of_eq rfl rfl, rfl⟩⟩
    · exact ⟨rfl, .inl ⟨.act ⟨rfl, rfl, rfl⟩ Every.nil d, rfl⟩⟩
  | wc_visit snap =>
    cases snap with
    | nil =>
      cases h
      exact ⟨rfl, .inl ⟨.of_eq rfl rfl, rfl⟩⟩
    | cons c snap =>
      simp only [Sys.svc] at h
      split at h
      · cases h
        exact ⟨rfl, .inl ⟨.of_eq rfl rfl, rfl⟩⟩
      · split at h
        · cases h
          exact ⟨rfl, .inl ⟨.act (.refl _) (Every.pair rfl rfl) d, rfl⟩⟩
        · split at h <;> cases h <;> exact ⟨rfl, .inl ⟨.of_eq rfl rfl, rfl⟩⟩

/-- The chunk an event carries for client `d`. -/
def Event.receives (d : ClientId) : Event → Option Chunk
  | .callback c _ (.CLIENT_RECEIVE chunk) _ => if c = d then some chunk else none
  | _ => none

/-- What an event does to the queue, the reassembly buffer and the trace of
    client `d`. -/
inductive Effect (d : ClientId) (s s' : Sys) : Event → List Frame → Prop where
  | silent {e : Event} {fs : List Frame} : e.receives d = none → Silent s s' d →
      inflight d fs = [] → Effect d s s' e fs
  | receive {w : WsiId} {chunk : Chunk} {a : Answer} {o : Out wsp_client} :
      receive (s.client d) chunk a.ok = some o → s'.client d = o.client →
      s'.trace d = s.trace d ++ o.acts →
      Effect d s s' (.callback d w (.CLIENT_RECEIVE chunk) a) []
  | ping {w : WsiId} {a : Answer} : Kept (s.client d) (s'.client d) →
      s'.trace d = s.trace d ++ (writeable_ping (s.client d) w).2 →
      Effect d s s' (.callback d w .CLIENT_WRITEABLE a) [.has_data_check d w]
  | dequeue {w : WsiId} {a : Answer} {n : ws_msg_node_t} {q : SendQueue} :
      (s.client d).q.dequeue = (some n, q) → s'.client d = { s.client d with q } →
      s'.trace d = s.trace d →
      Effect d s s' (.callback d w .CLIENT_WRITEABLE a) [.write d w n q.has_data]

theorem callback_spec {c : ClientId} {w : WsiId} {a : Answer} {r : Reason} {s s' : Sys}
    {fs : List Frame} (h : s.callback c w a r = some (fs, s')) (d : ClientId) :
    Effect d s s' (.callback c w r a) fs := by
  cases r with
  | CLIENT_ESTABLISHED =>
    cases h
    have hsilent := Silent.act (s := s.setLws (s.lws.setPhase w .established)) (c := c)
      (r := established (s.client c) w) ⟨rfl, rfl, rfl⟩ (established_acts (fun _ _ => rfl) rfl _ w) d
    exact .silent rfl ⟨hsilent.kept, hsilent.trace⟩ rfl
  | CLIENT_RECEIVE chunk =>
    simp only [Sys.callback, Option.map_eq_some_iff, Prod.mk.injEq] at h
    obtain ⟨o, ho, rfl, rfl⟩ := h
    by_cases hd : c = d
    · subst hd
      exact .receive ho (by split <;> simp [Sys.setLws]) (by split <;> simp [Sys.setLws])
    · refine .silent (if_neg hd) (.of_eq ?_ ?_) rfl <;> split <;> simp [Sys.setLws, Ne.symm hd]
  | CLIENT_WRITEABLE =>
    simp only [Sys.callback] at h
    split at h
    · cases h
      by_cases hd : c = d
      · subst hd
        exact .ping (by simpa [Sys.setLws] using ⟨rfl, rfl, rfl⟩) (by simp [Sys.setLws])
      · exact .silent rfl
          (.of_eq (by simp [Sys.setLws, Ne.symm hd]) (by simp [Sys.setLws, Ne.symm hd])) rfl
    · split at h
      · cases h
        exact .silent rfl (.of_eq rfl rfl) rfl
      · next n q hdequeue =>
        cases h
        by_cases hd : c = d
        · subst hd
          exact .dequeue hdequeue (by simp [Sys.setLws]) (by simp [Sys.setLws])
        · refine .silent rfl (.of_eq ?_ ?_) (by simp [inflight, hd])
          · simp [Sys.setLws, Ne.symm hd]
          · simp [Sys.setLws, Ne.symm hd]
  | TIMER =>
    obtain ⟨send_ping, hc⟩ := timer_client (s.client c) w a.ret
    have hsilent := Silent.act (s := s.setLws (s.lws.modify w fun i => { i with timer := none }))
      (c := c) (r := ((timer (s.client c) w a.ret).client, (timer (s.client c) w a.ret).acts))
      (by rw [hc]; exact ⟨rfl, rfl, rfl⟩) (timer_acts rfl (fun _ => rfl) (fun _ _ => rfl) _ w a.ret) d
    simp only [Sys.callback, Option.some.injEq, Prod.mk.injEq] at h
    obtain ⟨rfl, rfl⟩ := h
    refine .silent rfl ?_ rfl
    split <;> exact ⟨hsilent.kept, hsilent.trace⟩
  | CLIENT_RECEIVE_PONG =>
    cases h
    exact .silent rfl (.act ⟨rfl, rfl, rfl⟩ (Every.single rfl) d) rfl
  | CLIENT_CONNECTION_ERROR msg =>
    simp only [Sys.callback, Option.some.injEq, Prod.mk.injEq] at h
    obtain ⟨rfl, rfl⟩ := h
    have hsilent := Silent.act (s := s.setLws (s.lws.setPhase w .closed)) (c := c)
      (.connection_error (s.client c) msg) (connection_error_acts (fun _ => rfl) rfl _ msg) d
    exact .silent rfl ⟨hsilent.kept, hsilent.trace⟩ (by split <;> rfl)
  | CLIENT_CLOSED =>
    simp only [Sys.callback, Option.some.injEq, Prod.mk.injEq] at h
    obtain ⟨rfl, rfl⟩ := h
    have hsilent := Silent.act (s := s.setLws (s.lws.setPhase w .closed)) (c := c)
      (.closed (s.client c)) (closed_acts rfl _) d
    exact .silent rfl ⟨hsilent.kept, hsilent.trace⟩ (by split <;> rfl)
  | WSI_DESTROY =>
    cases h
    have hsilent := Silent.act (s := s.setLws (s.lws.remove w)) (c := c)
      (r := (wsi_destroy (s.client c) w, [])) (.wsi_destroy _ w) Every.nil d
    exact .silent rfl ⟨hsilent.kept, hsilent.trace⟩ rfl
  | CLIENT_APPEND_HANDSHAKE_HEADER =>
    cases h
    exact .silent rfl (.act (.refl _) (Every.callIf rfl) d) rfl

theorem deliver_spec {e : Event} {s s' : Sys} {fs : List Frame}
    (h : s.deliver e = some (fs, s')) (d : ClientId) : Effect d s s' e fs := by
  cases e with
  | callback c w r a =>
    simp only [Sys.deliver, Option.ite_none_right_eq_some] at h
    exact callback_spec h.2 d
  | sul_reconnect_cb c =>
    simp only [Sys.deliver, Option.ite_none_right_eq_some, Option.some.injEq, Prod.mk.injEq] at h
    obtain ⟨_, rfl, rfl⟩ := h
    exact .silent rfl (.act ⟨rfl, rfl, rfl⟩ Every.nil d) (by split <;> rfl)
  | event_wait_cancelled wsi =>
    simp only [Sys.deliver, Option.ite_none_right_eq_some, Option.some.injEq, Prod.mk.injEq] at h
    obtain ⟨_, rfl, rfl⟩ := h
    exact .silent rfl (.of_eq rfl rfl) (by split <;> rfl)
  | service_thread | exit =>
    simp only [Sys.deliver, Option.ite_none_right_eq_some, Option.some.injEq, Prod.mk.injEq] at h
    obtain ⟨_, rfl, rfl⟩ := h
    exact .silent rfl (.of_eq rfl rfl) rfl
  | context_destroyed =>
    simp only [Sys.deliver, Option.ite_none_right_eq_some, Option.some.injEq, Prod.mk.injEq] at h
    obtain ⟨_, rfl, rfl⟩ := h
    exact .silent rfl ⟨⟨rfl, rfl, rfl⟩, [], (List.append_nil _).symm, Every.nil⟩ rfl

section makes

variable {s s' : Sys} {d : ClientId}

/-- What the callbacks other than RECEIVE call. -/
def Act.of_callback : Act → Bool
  | .lws_write _ _ _ .LWS_WRITE_PING | .lws_callback_on_writable _ | .lws_set_timer_usecs _ _ => true
  | .on_connected | .on_disconnected | .on_error _ | .on_heartbeat_tick => true
  | .on_handshake_header _ => true
  | _ => false

/-- What the service thread calls outside the callbacks' own code. -/
def Act.of_svc : Act → Bool
  | .lws_client_connect_via_info _ | .lws_sul_schedule _ | .on_reconnect_decision _ _ => true
  | .lws_write _ _ _ _ | .free_node _ _ | .lws_callback_on_writable _ | .lws_close_reason _ => true
  | .on_disconnected | .on_error _ => true
  | _ => false

theorem callback_makes {c : ClientId} {w : WsiId} {a : Answer} {r : Reason} {fs : List Frame}
    (h : s.callback c w a r = some (fs, s')) (hnone : (Event.callback c w r a).receives d = none) :
    Makes Act.of_callback s s' d := by
  cases r with
  | CLIENT_ESTABLISHED =>
    cases h
    exact Makes.act (s := s.setLws _) (established_acts (fun _ _ => rfl) rfl _ w) d
  | CLIENT_RECEIVE chunk =>
    have hd : d ≠ c := by
      rintro rfl
      simp [Event.receives] at hnone
    simp only [Sys.callback, Option.map_eq_some_iff, Prod.mk.injEq] at h
    obtain ⟨o, _, _, rfl⟩ := h
    refine .of_eq ?_
    split <;> simp [Sys.setLws, hd]
  | CLIENT_WRITEABLE =>
    simp only [Sys.callback] at h
    split at h
    · cases h
      exact Makes.act (s := s.setLws _) (Every.single rfl) d
    · split at h <;> cases h
      · exact .of_eq rfl
      · exact Makes.act (s := s.setLws _) Every.nil d
  | TIMER =>
    have hacts := Makes.act (s := s.setLws (s.lws.modify w fun i => { i with timer := none }))
      (c := c) (r := ((timer (s.client c) w a.ret).client, (timer (s.client c) w a.ret).acts))
      (timer_acts (p := Act.of_callback) rfl (fun _ => rfl) (fun _ _ => rfl) _ w a.ret) d
    simp only [Sys.callback, Option.some.injEq, Prod.mk.injEq] at h
    obtain ⟨_, rfl⟩ := h
    split <;> exact hacts
  | CLIENT_RECEIVE_PONG =>
    cases h
    exact .act (Every.single rfl) d
  | CLIENT_CONNECTION_ERROR msg =>
    cases h
    exact Makes.act (s := s.setLws _) (connection_error_acts (fun _ => rfl) rfl _ msg) d
  | CLIENT_CLOSED =>
    cases h
    exact Makes.act (s := s.setLws _) (closed_acts rfl _) d
  | WSI_DESTROY =>
    cases h
    exact Makes.act (s := s.setLws _) Every.nil d
  | CLIENT_APPEND_HANDSHAKE_HEADER =>
    cases h
    exact .act (Every.callIf rfl) d

theorem deliver_makes {e : Event} {fs : List Frame} (h : s.deliver e = some (fs, s'))
    (hnone : e.receives d = none) : Makes Act.of_callback s s' d := by
  cases e with
  | callback c w r a =>
    simp only [Sys.deliver, Option.ite_none_right_eq_some] at h
    exact callback_makes h.2 hnone
  | sul_reconnect_cb c =>
    simp only [Sys.deliver, Option.ite_none_right_eq_some, Option.some.injEq, Prod.mk.injEq] at h
    obtain ⟨_, _, rfl⟩ := h
    exact .act Every.nil d
  | service_thread | event_wait_cancelled _ | exit | context_destroyed =>
    simp only [Sys.deliver, Option.ite_none_right_eq_some, Option.some.injEq, Prod.mk.injEq] at h
    obtain ⟨_, _, rfl⟩ := h
    exact .of_eq rfl

theorem svc_makes {f : Frame} {a : Answer} {fs : List Frame} (h : s.svc f a = some (fs, s'))
    (d : ClientId) : Makes Act.of_svc s s' d := by
  cases f with
  | do_connect c =>
    have hconnect := Makes.act (s := s) (c := c) (r := ({ s.client c with state := .STATE_CONNECTING },
      [.lws_client_connect_via_info (connect_info (s.client c))])) (p := Act.of_svc) (Every.single rfl) d
    simp only [Sys.svc] at h
    split at h <;> cases h <;> exact hconnect
  | connection_error c msg =>
    cases h
    exact .act (connection_error_acts (fun _ => rfl) rfl _ msg) d
  | wsi_destroy c w =>
    cases h
    exact .act Every.nil d
  | connect_return c wsi =>
    cases h
    exact .act Every.nil d
  | schedule_arm c =>
    cases h
    exact .act (schedule_reconnect_acts (fun _ _ => rfl) (fun _ => rfl) _ a.ret) d
  | lws_callback_on_writable c w =>
    cases h
    exact .act (Every.single rfl) d
  | write c w n more =>
    have hwrite := Makes.act (s := s) (c := c) (r := (s.client c, writeable_write n w))
      (p := Act.of_svc) (Every.pair rfl rfl) d
    simp only [Sys.svc] at h
    split at h <;> cases h <;> exact hwrite
  | wc_connect pend =>
    cases pend <;> cases h
    · exact .of_eq rfl
    · exact .act Every.nil d
  | wc_visit snap =>
    cases snap with
    | nil =>
      cases h
      exact .of_eq rfl
    | cons c snap =>
      simp only [Sys.svc] at h
      split at h
      · cases h
        exact .of_eq rfl
      · split at h
        · cases h
          exact .act (Every.pair rfl rfl) d
        · split at h <;> cases h <;> exact .of_eq rfl
  | schedule_reconnect _ | has_data_check _ _ | event_wait_cancelled | wc_snapshot =>
    cases h
    exact .of_eq rfl

end makes

theorem Sys.destroy_client_eq {s s' : Sys} {c : ClientId} (h : s.destroy_client c = some s') :
    ∃ freed : List ws_msg_node_t, s' = s.act c (s.client c,
      freed.map (fun n => .free_node n.payload n.is_binary) ++ [.client_destroy]) := by
  simp only [Sys.destroy_client, Option.map_eq_some_iff] at h
  obtain ⟨⟨freed, q⟩, _, rfl⟩ := h
  exact ⟨freed, rfl⟩

theorem destroy_client_silent {s s' : Sys} {c : ClientId} (h : s.destroy_client c = some s')
    (d : ClientId) : Silent s s' d := by
  obtain ⟨freed, rfl⟩ := Sys.destroy_client_eq h
  exact .act (.refl _) ((Every.map (fun _ => rfl) freed).append (Every.single rfl)) d

theorem Silent.trans {s s' s'' : Sys} {d : ClientId} (h₁ : Silent s s' d) (h₂ : Silent s' s'' d) :
    Silent s s'' d := by
  obtain ⟨⟨hconfig, hq, hfrag⟩, acts, htrace, hmute⟩ := h₁
  obtain ⟨⟨hconfig', hq', hfrag'⟩, acts', htrace', hmute'⟩ := h₂
  exact ⟨⟨hconfig'.trans hconfig, hq'.trans hq, hfrag'.trans hfrag⟩, acts ++ acts',
    by rw [htrace', htrace, List.append_assoc], hmute.append hmute'⟩

/-- The last loop of `wsp_pool_destroy` does what each of its releases does. -/
theorem destroy_all_rule {R : Sys → Sys → Prop} (hrefl : ∀ s, R s s)
    (htrans : ∀ {s t u}, R s t → R t u → R s u)
    (hone : ∀ {s t c}, s.destroy_client c = some t → R s t) {s s' : Sys} {cs : List ClientId}
    (h : s.destroy_all cs = some s') : R s s' := by
  induction cs generalizing s with
  | nil =>
    cases h
    exact hrefl _
  | cons c cs ih =>
    simp only [Sys.destroy_all, Option.bind_eq_some_iff] at h
    obtain ⟨mid, hmid, hrest⟩ := h
    exact htrans (hone hmid) (ih hrest)

theorem destroy_all_silent {s s' : Sys} {cs : List ClientId} (h : s.destroy_all cs = some s')
    (d : ClientId) : Silent s s' d :=
  destroy_all_rule (R := fun s t => Silent s t d) (fun _ => .of_eq rfl rfl) Silent.trans
    (fun hone => destroy_client_silent hone d) h

/-- Calls of an API function that only ends: frees, and what it returns unless a
    send or an add succeeds. -/
def Act.minor : Act → Bool
  | .free_node _ _ => true
  | .send_returns _ _ ret | .add_returns ret => ret != .LWS_OK
  | _ => false

/-- What a section of an API call can do to client `d`, with its calls. -/
inductive Touches (d : ClientId) (s s' : Sys) : AppFrame → List AppFrame → Prop where
  | none {f : AppFrame} {fs : List AppFrame} {acts : List Act} :
      s'.client d = s.client d → s'.trace d = s.trace d ++ acts → Every Act.minor acts →
      Touches d s s' f fs
  | send {data : Data} {is_binary : Bool} {n : ws_msg_node_t} :
      n.message = (data.bytes, is_binary) → (s.client d).stopping = false →
      s'.client d = { s.client d with q := (s.client d).q.append n } →
      s'.trace d = s.trace d ++ [.send_returns data.bytes is_binary .LWS_OK] →
      Touches d s s' (.enqueue_locked d data is_binary) [.enqueue_wake d]
  | add {fs : List AppFrame} :
      s'.client d = { s.client d with pool := true } →
      s'.trace d = s.trace d ++ [.add_returns .LWS_OK] → Touches d s s' (.pool_add_locked d) fs
  | stop {fs : List AppFrame} :
      (s.client d).stopping = false → s'.client d = { s.client d with stopping := true } →
      s'.trace d = s.trace d → Touches d s s' (.wsp_client_stop d) fs
  | sul_cancel {fs : List AppFrame} :
      s'.client d = { s.client d with sul := none } → s'.trace d = s.trace d ++ [.lws_sul_cancel] →
      Touches d s s' (.stop_sul_cancel d) fs
  | lock {fs : List AppFrame} (stopped waiting : Bool) :
      s'.client d = { s.client d with stopped, waiting } →
      ((s.client d).stopped = true → stopped = true) → s'.trace d = s.trace d →
      Touches d s s' (.stop_locked d) fs
  | wait {fs : List AppFrame} (waiting : Bool) :
      s'.client d = { s.client d with waiting } →
      s'.trace d = s.trace d ∨ s'.trace d = s.trace d ++ [.stop_times_out] →
      Touches d s s' (.stop_wait d) fs
  | flush {fs : List AppFrame} {freed : List ws_msg_node_t} {q : SendQueue} :
      ws_flush_queue (s.client d).q = some (freed, q) → s'.client d = { s.client d with q } →
      s'.trace d = s.trace d ++
        (freed.map (fun n => .flush_node n.payload n.is_binary) ++ [.stop_returns]) →
      Touches d s s' (.stop_flush d) fs
  | destroy {fs : List AppFrame} :
      s.destroy_client d = some s' → Touches d s s' (.wsp_client_destroy d) fs
  | destroy_all {fs : List AppFrame} {snap : List ClientId} {mid : Sys} :
      s.destroy_all s.pool.pending = some mid → s'.client d = mid.client d →
      s'.trace d = mid.trace d → Touches d s s' (.destroy_pending snap) fs

theorem Touches.same {d : ClientId} {s s' : Sys} {f : AppFrame} {fs : List AppFrame}
    (hclient : s'.client d = s.client d) (htrace : s'.trace d = s.trace d) : Touches d s s' f fs :=
  .none hclient (by rw [htrace, List.append_nil]) Every.nil

/-- Calls that change nothing of the client they are made for. -/
theorem Touches.calls {s : Sys} {c : ClientId} {acts : List Act} {f : AppFrame} {fs : List AppFrame}
    (hacts : Every Act.minor acts) (d : ClientId) : Touches d s (s.act c (s.client c, acts)) f fs := by
  by_cases hd : d = c
  · subst hd
    exact .none (by simp) (by simp) hacts
  · exact .same (by simp [hd]) (by simp [hd])

/-- A section for client `c`, seen from client `d`. -/
theorem Touches.act {s : Sys} {c : ClientId} {r : wsp_client × List Act} {f : AppFrame}
    {fs : List AppFrame} (d : ClientId) (h : d = c → Touches d s (s.act c r) f fs) :
    Touches d s (s.act c r) f fs := by
  by_cases hd : d = c
  · exact h hd
  · exact .same (by simp [hd]) (by simp [hd])

/-- Every section of an API call touches a client as its frame says. -/
theorem app_touches {f : AppFrame} {a : Answer} {s s' : Sys} {fs : List AppFrame}
    (h : s.app f a = some (fs, s')) (d : ClientId) : Touches d s s' f fs := by
  cases f with
  | enqueue c data is_binary =>
    cases data <;> cases h
    · exact .calls (Every.single rfl) d
    · exact .same rfl rfl
  | enqueue_locked c data is_binary =>
    simp only [Sys.app, Option.some.injEq, Prod.mk.injEq] at h
    obtain ⟨rfl, rfl⟩ := h
    rcases enqueue_locked_spec (s.client c) data is_binary a.ok with
      ⟨n, heq, hmessage, hstop⟩ | ⟨ret, acts, hret, heq, _⟩
    · rw [heq]
      refine .act d ?_
      rintro rfl
      exact .send hmessage hstop (by simp) (by simp)
    · have hfrees : Every Act.minor (enqueue_locked (s.client c) data is_binary a.ok).2.2 :=
        enqueue_locked_acts (fun _ => rfl) _ data is_binary a.ok
      have hreturns : Every Act.minor [.send_returns data.bytes is_binary ret] :=
        Every.single (bne_iff_ne.mpr hret)
      rw [heq] at hfrees ⊢
      exact .calls (hfrees.append hreturns) d
  | wsp_pool_add c =>
    simp only [Sys.app] at h
    split at h <;> cases h
    · exact .calls (Every.single rfl) d
    · exact .same rfl rfl
  | pool_add_locked c =>
    simp only [Sys.app] at h
    split at h
    · cases h
    · split at h <;> cases h
      · exact .calls (Every.single rfl) d
      · by_cases hd : d = c
        · subst hd
          exact .add (by simp [Sys.setPool]) (by simp [Sys.setPool])
        · exact .same (by simp [hd, Sys.setPool]) (by simp [hd, Sys.setPool])
  | wsp_client_stop c =>
    simp only [Sys.app] at h
    split at h
    · cases h
      exact .same rfl rfl
    · next hgoing =>
      cases h
      refine .act d ?_
      rintro rfl
      simp only [Bool.or_eq_true, not_or, Bool.not_eq_true] at hgoing
      exact .stop hgoing.1 (by simp) (by simp)
  | stop_sul_cancel c =>
    simp only [Sys.app, Option.some.injEq, Prod.mk.injEq] at h
    obtain ⟨_, rfl⟩ := h
    split
    · refine .act d ?_
      rintro rfl
      exact .sul_cancel (by simp) (by simp)
    · exact .same rfl rfl
  | stop_locked c =>
    simp only [Sys.app] at h
    split at h
    · split at h <;> cases h
      · exact .same rfl rfl
      · by_cases hd : d = c
        · subst hd
          exact .lock (s.client d).stopped true (by simp [Sys.cancel]) id (by simp [Sys.cancel])
        · exact .same (by simp [hd, Sys.cancel]) (by simp [hd, Sys.cancel])
    · cases h
      refine .act d ?_
      rintro rfl
      exact .lock true (s.client d).waiting (by simp) (fun _ => rfl) (by simp)
  | stop_wait c =>
    simp only [Sys.app] at h
    split at h
    · cases h
      refine .act d ?_
      rintro rfl
      exact .wait false (by simp) (.inr (by simp))
    · split at h
      · cases h
      · split at h <;> cases h
        · exact .same rfl rfl
        · refine .act d ?_
          rintro rfl
          exact .wait true (by simp) (.inl (by simp))
  | stop_flush c =>
    simp only [Sys.app, Option.map_eq_some_iff, Prod.mk.injEq] at h
    obtain ⟨⟨freed, q⟩, hflush, _, rfl⟩ := h
    refine .act d ?_
    rintro rfl
    exact .flush hflush (by simp) (by simp)
  | wsp_client_destroy c =>
    simp only [Sys.app, Option.map_eq_some_iff, Prod.mk.injEq] at h
    obtain ⟨_, hdestroy, _, rfl⟩ := h
    by_cases hd : d = c
    · subst hd
      exact .destroy hdestroy
    · obtain ⟨freed, rfl⟩ := Sys.destroy_client_eq hdestroy
      exact .same (by simp [hd]) (by simp [hd])
  | destroy_pending snap =>
    simp only [Sys.app, Option.map_eq_some_iff, Prod.mk.injEq] at h
    obtain ⟨_, hdestroy, _, rfl⟩ := h
    exact .destroy_all hdestroy rfl rfl
  | wsp_pool_start | start_thread | destroy_thread | destroy_context =>
    simp only [Sys.app] at h
    split at h <;> cases h <;> exact .same rfl rfl
  | destroy_cancel =>
    simp only [Sys.app, Option.some.injEq, Prod.mk.injEq] at h
    obtain ⟨_, rfl⟩ := h
    split <;> exact .same rfl rfl
  | destroy_join | destroy_context_return =>
    simp only [Sys.app, Option.ite_none_right_eq_some, Option.some.injEq, Prod.mk.injEq] at h
    obtain ⟨_, _, rfl⟩ := h
    exact .same rfl rfl
  | destroy_stop snap | destroy_clients snap => cases snap <;> cases h <;> exact .same rfl rfl
  | enqueue_wake _ | lws_cancel_service _ | pool_add_wake | start_return | start_pending |
    start_cancel | wsp_pool_destroy =>
    cases h
    exact .same rfl rfl

theorem every_of_minor {p : Act → Bool} {acts : List Act} (hacts : Every Act.minor acts)
    (hfree : ∀ data is_binary, p (.free_node data is_binary) = true)
    (hsend : ∀ data is_binary ret, p (.send_returns data is_binary ret) = true)
    (hadd : ∀ ret, p (.add_returns ret) = true) : Every p acts := by
  refine hacts.mono fun act hact => ?_
  cases act with
  | free_node data is_binary => exact hfree data is_binary
  | send_returns data is_binary ret => exact hsend data is_binary ret
  | add_returns ret => exact hadd ret
  | _ => cases hact

theorem Act.mute_of_minor (act : Act) (h : Act.minor act = true) : Act.mute act = true := by
  cases act with
  | send_returns data is_binary ret | add_returns ret => cases ret <;> first | rfl | cases h
  | _ => first | rfl | cases h

/-- What a section of an API call does to the queue and the trace of client `d`. -/
theorem app_spec {f : AppFrame} {a : Answer} {s s' : Sys} {fs : List AppFrame}
    (h : s.app f a = some (fs, s')) (d : ClientId) :
    Silent s s' d ∨
      (∃ freed q, f = .stop_flush d ∧ ws_flush_queue (s.client d).q = some (freed, q) ∧
        s'.client d = { s.client d with q } ∧
        s'.trace d = s.trace d ++
          (freed.map (fun n => .flush_node n.payload n.is_binary) ++ [.stop_returns])) ∨
      ∃ n data is_binary, (s.client d).stopping = false ∧
        s'.client d = { s.client d with q := (s.client d).q.append n } ∧
        n.message = (data, is_binary) ∧
        s'.trace d = s.trace d ++ [.send_returns data is_binary .LWS_OK] ∧
        fs = [.enqueue_wake d] := by
  cases app_touches h d with
  | none hclient htrace hacts =>
    exact .inl ⟨hclient ▸ .refl _, _, htrace, hacts.mono Act.mute_of_minor⟩
  | @send data is_binary n hmessage hstop hclient htrace =>
    exact .inr (.inr ⟨n, data.bytes, is_binary, hstop, hclient, hmessage, htrace, rfl⟩)
  | add hclient htrace | sul_cancel hclient htrace =>
    exact .inl ⟨hclient ▸ ⟨rfl, rfl, rfl⟩, _, htrace, Every.single rfl⟩
  | stop _ hclient htrace | lock _ _ hclient _ htrace =>
    exact .inl ⟨hclient ▸ ⟨rfl, rfl, rfl⟩, [], by rw [htrace, List.append_nil], Every.nil⟩
  | wait _ hclient htrace =>
    rcases htrace with htrace | htrace
    · exact .inl ⟨hclient ▸ ⟨rfl, rfl, rfl⟩, [], by rw [htrace, List.append_nil], Every.nil⟩
    · exact .inl ⟨hclient ▸ ⟨rfl, rfl, rfl⟩, _, htrace, Every.single rfl⟩
  | flush hflush hclient htrace => exact .inr (.inl ⟨_, _, rfl, hflush, hclient, htrace⟩)
  | destroy hdestroy => exact .inl (destroy_client_silent hdestroy d)
  | destroy_all hdestroy hclient htrace =>
    obtain ⟨hkept, acts, hacts⟩ := destroy_all_silent hdestroy d
    exact .inl ⟨hclient ▸ hkept, acts, htrace ▸ hacts⟩

/-- The calls of client `d` in a step. -/
def calls (d : ClientId) (cfg : Config) (l : Label) : List Act :=
  ((system.step cfg l).map fun next =>
    (next.shared.trace d).drop (cfg.shared.trace d).length).getD []

theorem calls_eq {d : ClientId} {cfg next : Config} {l : Label} {acts : List Act}
    (hstep : system.step cfg l = some next)
    (htrace : next.shared.trace d = cfg.shared.trace d ++ acts) : calls d cfg l = acts := by
  simp [calls, hstep, htrace]

end lws_client.ws_pool
