import LwsClientDemo.TwoRuns
import LwsClientDemo.Alike
import LwsClientDemo.WsClientV2.Headroom
import LwsClientDemo.WsClientV2.Decisions

open interleaving

namespace lws_client.ws_client_v2

/-- What a step is for the client with connection `w`, whatever the connection:
    a callback, a section of one with its answer, and the locked section of a
    send. Other steps do not touch the client. -/
inductive Input where
  | callback (reason : Reason) (a : Answer)
  | event_wait_cancelled
  | section (a : Answer)
  | send (data : Data) (is_binary ok : Bool)

def input (w : WsiId) (cfg : Config) : Label → Option Input
  | .event (.callback v r a) => if v = w then some (.callback r a) else none
  | .event (.event_wait_cancelled _) => some .event_wait_cancelled
  | .svc a => some (.section a)
  | .app t a =>
    match (cfg.app t).head? with
    | some (.enqueue_msg_locked data is_binary) => some (.send data is_binary a.ok)
    | _ => none
  | _ => none

/-- Callbacks of an open connection. -/
def opened : Reason → Bool
  | .CLIENT_RECEIVE _ | .CLIENT_WRITEABLE | .TIMER | .CLIENT_RECEIVE_PONG => true
  | _ => false

/-- The steps between ESTABLISHED and the end of connection `w`: its callbacks, sends
    of any threads, and the end of an older connection or of the start. -/
def session (w : WsiId) (cfg : Config) : Label → Bool
  | .event (.callback v r _) => if v = w then opened r else (r matches .WSI_DESTROY)
  | .event (.event_wait_cancelled _) | .svc _ => true
  | .call _ f => f.sends
  | .app t _ => (cfg.app t).head?.all fun f => f.sends || (f matches .start_return)
  | _ => false

/-- What TIMER returns, and WRITEABLE after its `lws_write`. A WRITEABLE that
    writes no message returns 0. -/
def returned (cfg : Config) : Label → List Seen
  | .event (.callback _ .TIMER a) => [.returned (timer cfg.shared.c a.ret).ret]
  | .svc a =>
    if cfg.svc.head?.any (fun f => f matches .write _ _) then [.returned (if a.ret < 0 then -1 else 0)]
    else []
  | _ => []

/-- The frames and the timers of a step, and what it returns. -/
def outgoing (cfg : Config) (l : Label) : List Seen :=
  seen ((calls cfg l).filter Act.outgoing) ++ returned cfg l

/-- The clients agree on what the outgoing traffic depends on. -/
structure Same (w w' : WsiId) (c c' : wsl_client) : Prop where
  config : c.SameConfig c'
  wsi : c.wsi = some w
  wsi' : c'.wsi = some w'
  stopping : c'.stopping = c.stopping
  send_ping : c'.send_ping = c.send_ping
  ping_pending : c'.ping_pending = c.ping_pending
  q : c.q.Alike c'.q

/-- The same section, on either connection. -/
inductive Frame.Alike (w w' : WsiId) : Frame → Frame → Prop where
  | q_head_check : Frame.Alike w w' .q_head_check .q_head_check
  | lws_callback_on_writable : Frame.Alike w w' .lws_callback_on_writable .lws_callback_on_writable
  | event_wait_cancelled : Frame.Alike w w' .event_wait_cancelled .event_wait_cancelled
  | write {n n' : ws_msg_node_t} : n.message = n'.message → Frame.Alike w w' (.write w n) (.write w' n')

structure Alike (w w' : WsiId) (cfg cfg' : Config) : Prop where
  client : Same w w' cfg.shared.c cfg'.shared.c
  stack : List.Forall₂ (Frame.Alike w w') cfg.svc cfg'.svc

variable {w w' : WsiId} {c c' : wsl_client}

theorem wsl_client.SameConfig.symm (h : c.SameConfig c') : c'.SameConfig c := by
  obtain ⟨_, _, _, _, _, _, _, _, _, _, _, _, rfl⟩ := h
  exact ⟨_, _, _, _, _, _, _, _, _, _, _, _, rfl⟩

/-- Sections that change nothing the traffic depends on. -/
theorem Same.congr {d d' : wsl_client} (h : Same w w' c c') (hconfig : c.SameConfig d)
    (hconfig' : c'.SameConfig d') (hwsi : d.wsi = c.wsi) (hwsi' : d'.wsi = c'.wsi)
    (hstopping : d'.stopping = d.stopping) (hsend : d'.send_ping = d.send_ping)
    (hpending : d'.ping_pending = d.ping_pending) (hq : d.q.Alike d'.q) : Same w w' d d' :=
  ⟨(hconfig.symm.trans h.config).trans hconfig', hwsi.trans h.wsi, hwsi'.trans h.wsi', hstopping,
    hsend, hpending, hq⟩

/-- The outgoing part of the calls. -/
def sent (acts : List Act) : List Seen := seen (acts.filter Act.outgoing)

@[simp] theorem sent_append (xs ys : List Act) : sent (xs ++ ys) = sent xs ++ sent ys := by
  simp [sent]

theorem sent_callIf {set : Bool} {act : Act} (h : act.outgoing = false) : sent (callIf set act) = [] := by
  cases set <;> simp [sent, callIf, seen, h]

theorem receive_sent {chunk : Chunk} {ok : Bool} {o : Out wsl_client}
    (h : receive c chunk ok = some o) : sent o.acts = [] := by
  unfold receive at h
  dsimp only at h
  split at h
  · cases h
    rw [sent_append, sent_callIf rfl, sent_callIf rfl]
    rfl
  · simp only [Option.map_eq_some_iff] at h
    obtain ⟨⟨ret, f⟩, _, rfl⟩ := h
    dsimp only
    split
    · rfl
    · split
      · rw [sent_append, sent_callIf rfl, sent_callIf rfl]
        rfl
      · rfl

theorem timer_set_sent (h : Same w w' c c') :
    sent (if c.ping_interval_ms > 0 then
        onWsi c.wsi fun v => .lws_set_timer_usecs v (c.ping_interval_ms * 1000) else []) =
      sent (if c'.ping_interval_ms > 0 then
        onWsi c'.wsi fun v => .lws_set_timer_usecs v (c'.ping_interval_ms * 1000) else []) := by
  obtain ⟨⟨_, _, _, _, _, _, _, _, _, _, _, _, rfl⟩, hwsi, rfl, _, _, _, _⟩ := h
  rw [hwsi]
  dsimp only
  split <;> rfl

/-- ESTABLISHED makes the clients agree when `send_ping` does. -/
theorem Same.established (hconfig : c.SameConfig c') (hwsi : c.wsi = some w) (hwsi' : c'.wsi = some w')
    (hstopping : c'.stopping = c.stopping) (hsend : c'.send_ping = c.send_ping) (hq : c.q.Alike c'.q) :
    Same w w' (established c).1 (established c').1 ∧
      sent (ws_client_v2.established c).2 = sent (ws_client_v2.established c').2 := by
  have hsame : Same w w' (ws_client_v2.established c).1 (ws_client_v2.established c').1 := by
    obtain ⟨_, _, _, _, _, _, _, _, _, _, _, _, rfl⟩ := hconfig
    exact ⟨⟨_, _, _, _, _, _, _, _, _, _, _, _, rfl⟩, hwsi, hwsi', hstopping, hsend, rfl, hq⟩
  refine ⟨hsame, ?_⟩
  have hset := timer_set_sent hsame
  unfold ws_client_v2.established at hset ⊢
  dsimp only at hset ⊢
  rw [sent_append, sent_append, sent_callIf rfl, sent_callIf rfl, sent_append, sent_append,
    sent_callIf rfl, sent_callIf rfl, hset]

theorem Same.timer (h : Same w w' c c') (tick : Int) :
    Same w w' (timer c tick).client (timer c' tick).client ∧
      sent (ws_client_v2.timer c tick).acts = sent (ws_client_v2.timer c' tick).acts ∧
      (ws_client_v2.timer c tick).ret = (ws_client_v2.timer c' tick).ret := by
  have hset := timer_set_sent h
  obtain ⟨⟨_, _, _, _, _, _, _, _, _, _, _, _, rfl⟩, hwsi, hwsi', hstopping, hsend, hpending, hq⟩ := h
  dsimp only at hwsi' hstopping hsend hpending hq
  subst hpending
  unfold ws_client_v2.timer
  dsimp only at hset ⊢
  split
  · exact ⟨⟨⟨_, _, _, _, _, _, _, _, _, _, _, _, rfl⟩, hwsi, hwsi', hstopping, hsend, rfl, hq⟩,
      by rw [sent_append, sent_append, hset], rfl⟩
  · split
    · exact ⟨⟨⟨_, _, _, _, _, _, _, _, _, _, _, _, rfl⟩, hwsi, hwsi', hstopping, hsend, rfl, hq⟩, rfl, rfl⟩
    · refine ⟨⟨⟨_, _, _, _, _, _, _, _, _, _, _, _, rfl⟩, hwsi, hwsi', hstopping, rfl, rfl, hq⟩, ?_, rfl⟩
      rw [sent_append, sent_append, request_writable, request_writable, hwsi, hwsi']
      rfl

theorem Same.receive_pong (h : Same w w' c c') :
    Same w w' (receive_pong c).1 (receive_pong c').1 ∧
      sent (ws_client_v2.receive_pong c).2 = sent (ws_client_v2.receive_pong c').2 :=
  ⟨h.congr ⟨_, _, _, _, _, _, _, _, _, _, _, _, rfl⟩ ⟨_, _, _, _, _, _, _, _, _, _, _, _, rfl⟩ rfl rfl
    h.stopping h.send_ping rfl h.q, timer_set_sent h⟩

theorem Same.receive (h : Same w w' c c') {chunk : Chunk} {ok : Bool} {o o' : Out wsl_client}
    (ho : receive c chunk ok = some o) (ho' : ws_client_v2.receive c' chunk ok = some o') :
    Same w w' o.client o'.client := by
  obtain ⟨frag, hc⟩ := receive_client ho
  obtain ⟨frag', hc'⟩ := receive_client ho'
  rw [hc, hc']
  exact h.congr ⟨_, _, _, _, _, _, _, _, _, _, _, _, rfl⟩ ⟨_, _, _, _, _, _, _, _, _, _, _, _, rfl⟩ rfl rfl
    h.stopping h.send_ping h.ping_pending h.q

theorem Same.writeable_ping (h : Same w w' c c') :
    Same w w' (writeable_ping c w).1 (writeable_ping c' w').1 :=
  h.congr ⟨_, _, _, _, _, _, _, _, _, _, _, _, rfl⟩ ⟨_, _, _, _, _, _, _, _, _, _, _, _, rfl⟩ rfl rfl
    h.stopping rfl rfl h.q

theorem Same.queue (h : Same w w' c c') {q q' : SendQueue} (hq : q.Alike q') :
    Same w w' { c with q } { c' with q := q' } :=
  h.congr ⟨_, _, _, _, _, _, _, _, _, _, _, _, rfl⟩ ⟨_, _, _, _, _, _, _, _, _, _, _, _, rfl⟩ rfl rfl
    h.stopping h.send_ping h.ping_pending hq

/-- A send is accepted, or not, alike. -/
theorem Same.send (h : Same w w' c c') (data : Data) (is_binary ok : Bool) :
    Same w w' (enqueue_msg_locked c data is_binary ok).2 (enqueue_msg_locked c' data is_binary ok).2 := by
  obtain ⟨hmsgs, hbytes⟩ := h.q.counters
  have hqueue : ∀ n, Same w w' { c with q := c.q.append n } { c' with q := c'.q.append n } :=
    fun n => h.queue (h.q.append n)
  have hlimits : c'.max_queue_msgs = c.max_queue_msgs ∧ c'.max_queue_bytes = c.max_queue_bytes := by
    obtain ⟨⟨_, _, _, _, _, _, _, _, _, _, _, _, rfl⟩, _⟩ := h
    exact ⟨rfl, rfl⟩
  have hfull : (c'.max_queue_msgs > 0 ∧ int_of_size c'.q.q_msgs ≥ c'.max_queue_msgs) ↔
      (c.max_queue_msgs > 0 ∧ int_of_size c.q.q_msgs ≥ c.max_queue_msgs) := by
    rw [hlimits.1, hmsgs]
  have hlong : (c'.max_queue_bytes > 0 ∧
        int_of_size (size_add c'.q.q_bytes data.bytes.length) > c'.max_queue_bytes) ↔
      (c.max_queue_bytes > 0 ∧
        int_of_size (size_add c.q.q_bytes data.bytes.length) > c.max_queue_bytes) := by
    rw [hlimits.2, hbytes]
  unfold enqueue_msg_locked
  by_cases hmax : c.max_queue_msgs > 0 ∧ int_of_size c.q.q_msgs ≥ c.max_queue_msgs
  · rw [if_pos hmax, if_pos (hfull.mpr hmax)]
    exact h
  · rw [if_neg hmax, if_neg fun hmax' => hmax (hfull.mp hmax')]
    by_cases hlen : c.max_queue_bytes > 0 ∧
        int_of_size (size_add c.q.q_bytes data.bytes.length) > c.max_queue_bytes
    · rw [if_pos hlen, if_pos (hlong.mpr hlen)]
      exact h
    · rw [if_neg hlen, if_neg fun hlen' => hlen (hlong.mp hlen')]
      cases ws_msg_new data is_binary ok with
      | none => exact h
      | some n => exact hqueue n

variable {s t s' t' : Sys} {cfg cfg' next next' : Config} {l l' : Label}

/-- Two sections show the same, and leave clients that agree and frames alike. -/
structure Matches (w w' : WsiId) (s t s' t' : Sys) (fs fs' : List Frame) : Prop where
  client : Same w w' t.c t'.c
  frames : List.Forall₂ (Frame.Alike w w') fs fs'
  calls : ∃ acts acts', t.trace = s.trace ++ acts ∧ t'.trace = s'.trace ++ acts' ∧
    sent acts = sent acts'

theorem callback_matches {a : Answer} {r : Reason} {fs fs' : List Frame} (h : Same w w' s.c s'.c)
    (hr : opened r = true) (hc : s.callback w a r = some (fs, t))
    (hc' : s'.callback w' a r = some (fs', t')) : Matches w w' s t s' t' fs fs' := by
  cases r with
  | CLIENT_RECEIVE chunk =>
    simp only [Sys.callback, Option.map_eq_some_iff, Prod.mk.injEq] at hc hc'
    obtain ⟨o, ho, rfl, rfl⟩ := hc
    obtain ⟨o', ho', rfl, rfl⟩ := hc'
    have hsame := h.receive ho ho'
    refine ⟨?_, .nil, o.acts, o'.acts, ?_, ?_, (receive_sent ho).trans (receive_sent ho').symm⟩
    · split <;> split <;> exact hsame
    · split <;> rfl
    · split <;> rfl
  | CLIENT_WRITEABLE =>
    have hsends := h.send_ping
    cases hsend : s.c.send_ping with
    | true =>
      rw [hsend] at hsends
      simp only [Sys.callback, Sys.setLws_c, hsend, if_true] at hc
      simp only [Sys.callback, Sys.setLws_c, hsends, if_true] at hc'
      cases hc
      cases hc'
      exact ⟨h.writeable_ping, .cons .q_head_check .nil, _, _, rfl, rfl, rfl⟩
    | false =>
      rw [hsend] at hsends
      rcases h.q.dequeue with ⟨hnone, hnone'⟩ | ⟨n, n', hn, hn', hmessage, hrest⟩
      · have hpop : s.c.q.dequeue = (none, s.c.q.dequeue.2) := Prod.ext hnone rfl
        have hpop' : s'.c.q.dequeue = (none, s'.c.q.dequeue.2) := Prod.ext hnone' rfl
        simp only [Sys.callback, Sys.setLws_c, hsend, Bool.false_eq_true, if_false] at hc
        simp only [Sys.callback, Sys.setLws_c, hsends, Bool.false_eq_true, if_false] at hc'
        rw [hpop] at hc
        rw [hpop'] at hc'
        cases hc
        cases hc'
        exact ⟨h, .nil, [], [], (List.append_nil _).symm, (List.append_nil _).symm, rfl⟩
      · have hpop : s.c.q.dequeue = (some n, s.c.q.dequeue.2) := Prod.ext hn rfl
        have hpop' : s'.c.q.dequeue = (some n', s'.c.q.dequeue.2) := Prod.ext hn' rfl
        simp only [Sys.callback, Sys.setLws_c, hsend, Bool.false_eq_true, if_false] at hc
        simp only [Sys.callback, Sys.setLws_c, hsends, Bool.false_eq_true, if_false] at hc'
        rw [hpop] at hc
        rw [hpop'] at hc'
        cases hc
        cases hc'
        have hsame := h.queue hrest
        simp only [hsend, hsends] at hsame
        exact ⟨hsame, .cons (.write hmessage) .nil, [], [], (List.append_nil _).symm,
          (List.append_nil _).symm, rfl⟩
  | TIMER =>
    simp only [Sys.callback, Option.some.injEq, Prod.mk.injEq] at hc hc'
    obtain ⟨rfl, rfl⟩ := hc
    obtain ⟨rfl, rfl⟩ := hc'
    obtain ⟨hsame, hsent, _⟩ := h.timer a.ret
    refine ⟨?_, .nil, (timer s.c a.ret).acts, (timer s'.c a.ret).acts, ?_, ?_, hsent⟩
    · split <;> split <;> exact hsame
    · split <;> rfl
    · split <;> rfl
  | CLIENT_RECEIVE_PONG =>
    cases hc
    cases hc'
    obtain ⟨hsame, hsent⟩ := h.receive_pong
    exact ⟨hsame, .nil, _, _, rfl, rfl, hsent⟩
  | _ => cases hr

theorem svc_matches {f f' : Frame} {a : Answer} {fs fs' : List Frame} (h : Same w w' s.c s'.c)
    (hf : Frame.Alike w w' f f') (hc : s.svc f a = some (fs, t)) (hc' : s'.svc f' a = some (fs', t')) :
    Matches w w' s t s' t' fs fs' := by
  have hrequest : sent (request_writable s.c) = sent (request_writable s'.c) := by
    rw [request_writable, request_writable, h.wsi, h.wsi']
    rfl
  cases hf with
  | q_head_check =>
    cases hc
    cases hc'
    refine ⟨h, ?_, [], [], (List.append_nil _).symm, (List.append_nil _).symm, rfl⟩
    rw [h.q.has_data]
    split
    · exact .cons .lws_callback_on_writable .nil
    · exact .nil
  | lws_callback_on_writable =>
    cases hc
    cases hc'
    exact ⟨h, .nil, _, _, rfl, rfl, hrequest⟩
  | event_wait_cancelled =>
    cases hc
    cases hc'
    refine ⟨h, .nil, _, _, rfl, rfl, ?_⟩
    simp only [event_wait_cancelled, h.stopping]
    split
    · rfl
    · exact hrequest
  | @write n n' hmessage =>
    have hsent : sent (writeable_write n w) = sent (writeable_write n' w') := by
      have hseen := seen_write hmessage w w' fun b => if b then .LWS_WRITE_BINARY else .LWS_WRITE_TEXT
      simp only [seen, List.map_cons, List.cons.injEq] at hseen
      exact congrArg (fun x => [x]) hseen.1
    simp only [Sys.svc] at hc hc'
    split at hc
    · next hret =>
      rw [if_pos hret] at hc'
      cases hc
      cases hc'
      exact ⟨h, .nil, _, _, rfl, rfl, hsent⟩
    · next hret =>
      rw [if_neg hret] at hc'
      cases hc
      cases hc'
      exact ⟨h, .cons .q_head_check .nil, _, _, rfl, rfl, hsent⟩

/-- Sections that match, of a callback or behind one. -/
theorem Matches.alike {fs fs' rest rest' : List Frame}
    (h : Matches w w' cfg.shared next.shared cfg'.shared next'.shared fs fs')
    (hstep : system.step cfg l = some next) (hstep' : system.step cfg' l' = some next')
    (hsvc : next.svc = fs ++ rest) (hsvc' : next'.svc = fs' ++ rest')
    (hrest : List.Forall₂ (Frame.Alike w w') rest rest') (hret : returned cfg l = returned cfg' l') :
    Alike w w' next next' ∧ outgoing cfg l = outgoing cfg' l' := by
  obtain ⟨hclient, hframes, acts, acts', htrace, htrace', hsent⟩ := h
  refine ⟨⟨hclient, hsvc ▸ hsvc' ▸ List.rel_append hframes hrest⟩, ?_⟩
  rw [outgoing, outgoing, calls_eq hstep htrace, calls_eq hstep' htrace', hret]
  exact congrArg (· ++ _) hsent

theorem Frame.Alike.symm {f f' : Frame} (h : Frame.Alike w w' f f') : Frame.Alike w' w f' f := by
  cases h with
  | q_head_check => exact .q_head_check
  | lws_callback_on_writable => exact .lws_callback_on_writable
  | event_wait_cancelled => exact .event_wait_cancelled
  | write hmessage => exact .write hmessage.symm

theorem Alike.symm (h : Alike w w' cfg cfg') : Alike w' w cfg' cfg :=
  ⟨⟨h.client.config.symm, h.client.wsi', h.client.wsi, h.client.stopping.symm,
    h.client.send_ping.symm, h.client.ping_pending.symm, h.client.q.symm⟩,
    (h.stack.imp fun _ _ => Frame.Alike.symm).flip⟩

/-- A step that is nothing for the client of `w`, nor for the traffic. -/
theorem step_silent (hsession : session w cfg l = true) (hinput : input w cfg l = none)
    (hstep : system.step cfg l = some next) (h : Alike w w' cfg cfg') :
    Alike w w' next cfg' ∧ outgoing cfg l = [] := by
  have hnothing : ∀ acts, next.shared.trace = cfg.shared.trace ++ acts → sent acts = [] →
      returned cfg l = [] → outgoing cfg l = [] := by
    intro acts htrace hsent hret
    rw [outgoing, calls_eq hstep htrace, hret, List.append_nil]
    exact hsent
  obtain ⟨hclient, hstack⟩ := h
  have hwsi := hclient.wsi
  cases System.step_moves hstep with
  | @event e s t app fs hdeliver =>
    cases e with
    | callback v r a =>
      have hv : v ≠ w := by
        rintro rfl
        simp [input] at hinput
      cases r with
      | WSI_DESTROY =>
        simp only [system, Sys.deliver, Option.ite_none_right_eq_some] at hdeliver
        obtain ⟨_, hdeliver⟩ := hdeliver
        cases hdeliver
        have hkeep : wsi_destroy s.c v = s.c := by
          rw [wsi_destroy, if_neg]
          rw [hwsi, Option.some.injEq]
          exact hv.symm
        refine ⟨⟨?_, hstack⟩, hnothing [] rfl rfl rfl⟩
        simp only [Sys.act_c, hkeep]
        exact hclient
      | _ => simp [session, hv] at hsession
    | event_wait_cancelled wsi => cases hinput
    | _ => cases hsession
  | svc hsvc => cases hinput
  | call _ _ => exact ⟨⟨hclient, hstack⟩, hnothing [] (List.append_nil _).symm rfl rfl⟩
  | @app u f a s t svc app rest fs htop happ =>
    simp only [session, htop, List.head?_cons, Option.all_some, Bool.or_eq_true] at hsession
    cases f with
    | enqueue_msg data is_binary =>
      cases data with
      | none =>
        cases happ
        exact ⟨⟨hclient, hstack⟩, hnothing _ rfl rfl rfl⟩
      | some data =>
        cases happ
        exact ⟨⟨hclient, hstack⟩, hnothing [] (List.append_nil _).symm rfl rfl⟩
    | enqueue_msg_locked data is_binary => simp [input, htop] at hinput
    | enqueue_msg_wake =>
      cases happ
      exact ⟨⟨hclient, hstack⟩, hnothing [] (List.append_nil _).symm rfl rfl⟩
    | lws_cancel_service =>
      cases happ
      exact ⟨⟨hclient, hstack⟩, hnothing _ rfl rfl rfl⟩
    | start_return =>
      cases happ
      refine ⟨⟨hclient.congr ?_ (.refl _) rfl rfl hclient.stopping hclient.send_ping
        hclient.ping_pending hclient.q, hstack⟩, hnothing [] rfl rfl rfl⟩
      exact ⟨_, _, _, _, _, _, _, _, _, _, _, _, rfl⟩
    | _ => simp [AppFrame.sends] at hsession

/-- The step that an input is given in. -/
inductive Given (w : WsiId) (cfg : Config) : Label → Input → Prop where
  | callback (r : Reason) (a : Answer) : Given w cfg (.event (.callback w r a)) (.callback r a)
  | event_wait_cancelled (wsi : Bool) :
      Given w cfg (.event (.event_wait_cancelled wsi)) .event_wait_cancelled
  | section (a : Answer) : Given w cfg (.svc a) (.section a)
  | send {t : Nat} {a : Answer} {data : Data} {is_binary ok : Bool} :
      (cfg.app t).head? = some (.enqueue_msg_locked data is_binary) → a.ok = ok →
      Given w cfg (.app t a) (.send data is_binary ok)

theorem given_of_input {i : Input} (h : input w cfg l = some i) : Given w cfg l i := by
  cases l with
  | event e =>
    cases e with
    | callback v r a =>
      simp only [input, Option.ite_none_right_eq_some, Option.some.injEq] at h
      obtain ⟨rfl, rfl⟩ := h
      exact .callback r a
    | event_wait_cancelled wsi =>
      cases h
      exact .event_wait_cancelled wsi
    | _ => cases h
  | svc a =>
    cases h
    exact .section a
  | call t f => cases h
  | app t a =>
    simp only [input] at h
    split at h
    · next htop =>
      cases h
      exact .send htop rfl
    · cases h

/-- The same callback, section or send keeps the clients alike, and shows the
    same of either. -/
theorem step_alike {i : Input} (h : Alike w w' cfg cfg') (hsession : session w cfg l = true)
    (hstep : system.step cfg l = some next) (hstep' : system.step cfg' l' = some next')
    (hi : input w cfg l = some i) (hi' : input w' cfg' l' = some i) :
    Alike w w' next next' ∧ outgoing cfg l = outgoing cfg' l' := by
  obtain ⟨hclient, hstack⟩ := h
  have hmove := System.step_moves hstep
  have hmove' := System.step_moves hstep'
  cases given_of_input hi with
  | callback r a =>
    cases given_of_input hi' with
    | callback _ _ =>
      have hopened : opened r = true := by simpa [session] using hsession
      cases hmove with
      | event hdeliver =>
        cases hmove' with
        | event hdeliver' =>
          simp only [system, Sys.deliver, Option.ite_none_right_eq_some] at hdeliver hdeliver'
          refine (callback_matches hclient hopened hdeliver.2 hdeliver'.2).alike hstep hstep'
            (List.append_nil _).symm (List.append_nil _).symm .nil ?_
          cases r with
          | TIMER => simp only [returned, (hclient.timer a.ret).2.2]
          | _ => rfl
  | event_wait_cancelled wsi =>
    cases given_of_input hi' with
    | event_wait_cancelled wsi' =>
      cases hmove with
      | event hdeliver =>
        cases hmove' with
        | event hdeliver' =>
          simp only [system, Sys.deliver, Option.ite_none_right_eq_some, Option.some.injEq,
            Prod.mk.injEq] at hdeliver hdeliver'
          obtain ⟨_, rfl, rfl⟩ := hdeliver
          obtain ⟨_, rfl, rfl⟩ := hdeliver'
          exact Matches.alike ⟨hclient, .cons .event_wait_cancelled .nil, [], [],
            (List.append_nil _).symm, (List.append_nil _).symm, rfl⟩ hstep hstep' rfl rfl .nil rfl
  | «section» a =>
    cases given_of_input hi' with
    | «section» _ =>
      cases hmove with
      | @svc f _ _ _ _ rest fs hsvc =>
        cases hmove' with
        | @svc f' _ _ _ _ rest' fs' hsvc' =>
          cases hstack with
          | cons hframe hrest =>
            refine (svc_matches hclient hframe hsvc hsvc').alike hstep hstep' rfl rfl hrest ?_
            cases hframe <;> rfl
  | @send t a data is_binary ok htop hok =>
    cases given_of_input hi' with
    | @send t' a' _ _ _ htop' hok' =>
      cases hmove with
      | @app _ f _ s _ _ _ _ _ happs happ =>
        cases hmove' with
        | @app _ f' _ s' _ _ _ _ _ happs' happ' =>
          simp only [happs, List.head?_cons, Option.some.injEq] at htop
          simp only [happs', List.head?_cons, Option.some.injEq] at htop'
          subst htop htop' hok
          have hsame := hclient.send data is_binary a.ok
          simp only [system, Sys.app, Option.some.injEq, Prod.mk.injEq] at happ happ'
          obtain ⟨_, rfl⟩ := happ
          obtain ⟨_, rfl⟩ := happ'
          have hnothing : ∀ ret, sent [.send_returns data.bytes is_binary ret] = [] := fun _ => rfl
          rw [outgoing, outgoing, calls_eq hstep rfl, calls_eq hstep' rfl]
          refine ⟨⟨?_, hstack⟩, ?_⟩
          · rw [hok']
            exact hsame
          · exact congrArg₂ (· ++ ·) ((hnothing _).trans (hnothing _).symm) rfl

/-- ESTABLISHED of `w`, and a run of its session. -/
structure Session (w : WsiId) (cfg mid : Config) (ls : List Label) (last : Config) : Prop where
  established : system.step cfg (.event (.callback w .CLIENT_ESTABLISHED {})) = some mid
  follows : system.Follows (fun cfg l => session w cfg l = true) mid ls last

/-- The outgoing traffic of a session. -/
def traffic (w : WsiId) (cfg mid : Config) (ls : List Label) : List Seen :=
  outgoing cfg (.event (.callback w .CLIENT_ESTABLISHED {})) ++ system.observe outgoing mid ls

/-- A running client whose connection `w` can get ESTABLISHED. -/
structure Opening (w : WsiId) (cfg : Config) : Prop where
  reachable : Reachable cfg
  idle : cfg.svc = []
  running : cfg.shared.thread = .running
  stopping : cfg.shared.c.stopping = false
  connecting : cfg.shared.lws.phase w = some .connecting

/-- The sessions of both clients have the same traffic when they are given the same,
    and their callbacks leave the same sections to run. -/
def SameTraffic (w w' : WsiId) (cfg cfg' : Config) : Prop :=
  ∀ ls ls' mid mid' last last', Session w cfg mid ls last → Session w' cfg' mid' ls' last' →
    system.inputs (input w) mid ls = system.inputs (input w') mid' ls' →
    traffic w cfg mid ls = traffic w' cfg' mid' ls' ∧
      List.Forall₂ (Frame.Alike w w') last.svc last'.svc

def pings (trace : List Act) : Nat :=
  (writes trace).countP fun x => x.2.2 matches .LWS_WRITE_PING

/-- A TIMER callback of `w`. -/
def ticks (w : WsiId) : Label → Bool
  | .event (.callback v .TIMER _) => v == w
  | _ => false

/-- No PING is written on `w` before a TIMER of it. -/
def TimerFirst (w : WsiId) (cfg : Config) : Prop :=
  ∀ ls mid last, Session w cfg mid ls last → (∀ l ∈ ls, ticks w l = false) →
    pings last.shared.trace = pings cfg.shared.trace

theorem Opening.up (h : Opening w cfg) : Up cfg.shared w := by
  have hpos := h.reachable.conn.running h.running
  rw [h.idle] at hpos
  exact hpos.up_of_live (.inl h.connecting)

theorem established_alike {mid mid' : Config} (h : Opening w cfg) (h' : Opening w' cfg')
    (hconfig : cfg.shared.c.SameConfig cfg'.shared.c) (hq : cfg.shared.c.q.Alike cfg'.shared.c.q)
    (hsend : cfg'.shared.c.send_ping = cfg.shared.c.send_ping)
    (hstep : system.step cfg (.event (.callback w .CLIENT_ESTABLISHED {})) = some mid)
    (hstep' : system.step cfg' (.event (.callback w' .CLIENT_ESTABLISHED {})) = some mid') :
    Alike w w' mid mid' ∧ outgoing cfg (.event (.callback w .CLIENT_ESTABLISHED {})) =
      outgoing cfg' (.event (.callback w' .CLIENT_ESTABLISHED {})) := by
  obtain ⟨hsame, hsent⟩ := Same.established hconfig h.up.wsi h'.up.wsi
    (h'.stopping.trans h.stopping.symm) hsend hq
  cases System.step_moves hstep with
  | event hdeliver =>
    cases System.step_moves hstep' with
    | event hdeliver' =>
      simp only [system, Sys.deliver, Option.ite_none_right_eq_some] at hdeliver hdeliver'
      obtain ⟨_, hdeliver⟩ := hdeliver
      obtain ⟨_, hdeliver'⟩ := hdeliver'
      cases hdeliver
      cases hdeliver'
      exact Matches.alike ⟨hsame, .cons .q_head_check .nil, _, _, rfl, rfl, hsent⟩ hstep hstep'
        rfl rfl .nil rfl

theorem same_traffic (h : Opening w cfg) (h' : Opening w' cfg')
    (hconfig : cfg.shared.c.SameConfig cfg'.shared.c) (hq : cfg.shared.c.q.Alike cfg'.shared.c.q)
    (hsend : cfg'.shared.c.send_ping = cfg.shared.c.send_ping) : SameTraffic w w' cfg cfg' := by
  rintro ls ls' mid mid' last last' ⟨hstep, hrun⟩ ⟨hstep', hrun'⟩ hinputs
  obtain ⟨halike, hfirst⟩ := established_alike h h' hconfig hq hsend hstep hstep'
  have hsilent : ∀ cfg', system.Silent (fun cfg l => session w cfg l = true) (input w) outgoing
      fun cfg => Alike w w' cfg cfg' :=
    fun _ _ _ _ hrel hok hstep hnone => step_silent hok hnone hstep hrel
  have hsilent' : ∀ cfg, system.Silent (fun cfg l => session w' cfg l = true) (input w') outgoing
      fun cfg' => Alike w w' cfg cfg' := fun _ _ _ _ hrel hok hstep hnone =>
    (step_silent hok hnone hstep hrel.symm).imp_left Alike.symm
  have hruns := System.Follows.two_runs hsilent hsilent'
    (fun _ _ _ _ _ _ _ hrel hok _ hstep hstep' hi hi' => step_alike hrel hok hstep hstep' hi hi')
    hrun hrun' halike hinputs
  exact ⟨by rw [traffic, traffic, hfirst, hruns.2], hruns.1.stack⟩

theorem pings_append (xs ys : List Act) : pings (xs ++ ys) = pings xs + pings ys := by
  simp [pings]

theorem svc_send_ping {f : Frame} {a : Answer} {fs : List Frame} (h : s.svc f a = some (fs, t)) :
    t.c.send_ping = s.c.send_ping := by
  cases f with
  | do_connect | connect_return _ | write _ _ =>
    simp only [Sys.svc] at h
    split at h <;> cases h <;> rfl
  | connection_error msg =>
    obtain ⟨_, hc⟩ := connection_error_client s.c msg
    cases h
    rw [Sys.act_c, hc]
  | wsi_destroy v =>
    obtain ⟨_, hc⟩ := wsi_destroy_client s.c v
    cases h
    rw [Sys.act_c, hc]
  | schedule_reconnect =>
    obtain ⟨_, _, _, hc, _⟩ := schedule_reconnect_client s.c a.ret
    cases h
    rw [Sys.act_c, hc]
  | q_head_check | lws_callback_on_writable | event_wait_cancelled =>
    cases h
    rfl

/-- No step of a session but a TIMER sets `send_ping`. -/
theorem send_ping_clear (hsession : session w cfg l = true) (htick : ticks w l = false)
    (hmove : system.Moves cfg l next) (h : cfg.shared.c.send_ping = false) :
    next.shared.c.send_ping = false := by
  cases hmove with
  | @event e s t app fs hdeliver =>
    cases e with
    | callback v r a =>
      simp only [system, Sys.deliver, Option.ite_none_right_eq_some] at hdeliver
      obtain ⟨_, hdeliver⟩ := hdeliver
      cases r with
      | CLIENT_RECEIVE chunk =>
        simp only [Sys.callback, Option.map_eq_some_iff, Prod.mk.injEq] at hdeliver
        obtain ⟨o, ho, _, rfl⟩ := hdeliver
        obtain ⟨frag, hc⟩ := receive_client ho
        split <;> simpa [hc] using h
      | CLIENT_WRITEABLE =>
        simp only [Sys.callback] at hdeliver
        split at hdeliver
        · cases hdeliver
          rfl
        · split at hdeliver <;> cases hdeliver <;> exact h
      | TIMER =>
        by_cases hv : v = w
        · simp [ticks, hv] at htick
        · simp [session, hv] at hsession
      | CLIENT_RECEIVE_PONG =>
        cases hdeliver
        exact h
      | WSI_DESTROY =>
        obtain ⟨wsi, hc⟩ := wsi_destroy_client s.c v
        cases hdeliver
        simpa [hc] using h
      | _ => simp [session, opened] at hsession
    | event_wait_cancelled wsi =>
      simp only [system, Sys.deliver, Option.ite_none_right_eq_some, Option.some.injEq,
        Prod.mk.injEq] at hdeliver
      obtain ⟨_, _, rfl⟩ := hdeliver
      exact h
    | _ => cases hsession
  | svc hsvc => exact (svc_send_ping hsvc).trans h
  | call _ _ => exact h
  | @app u f a s t svc app rest fs htop happ =>
    simp only [session, htop, List.head?_cons, Option.all_some, Bool.or_eq_true] at hsession
    cases f with
    | enqueue_msg data is_binary => cases data <;> cases happ <;> exact h
    | enqueue_msg_locked data is_binary =>
      simp only [system, Sys.app, Option.some.injEq, Prod.mk.injEq] at happ
      obtain ⟨_, rfl⟩ := happ
      rcases enqueue_msg_locked_spec s.c data is_binary a.ok with ⟨n, hc, _⟩ | hc
      · rw [Sys.act_c, hc]
        exact h
      · rw [Sys.act_c, hc]
        exact h
    | enqueue_msg_wake | lws_cancel_service | start_return =>
      cases happ
      exact h
    | _ => simp [AppFrame.sends] at hsession

/-- ESTABLISHED, and a WRITEABLE as soon as lws may deliver one. -/
theorem stale_ping_written (h : Opening w cfg) (hsend : cfg.shared.c.send_ping = true) :
    ¬ TimerFirst w cfg := by
  intro hfirst
  obtain ⟨s, svc, app⟩ := cfg
  obtain rfl : svc = [] := h.idle
  have hrunning : s.thread = .running := h.running
  have hconnecting : s.lws.phase w = some .connecting := h.connecting
  -- The client as ESTABLISHED leaves it, its writable request made or not.
  have hwrites : ∀ (t : Sys) (mid : Config) (ls : List Label), t.thread = .running →
      t.lws.phase w = some .established → t.c.send_ping = true → pings t.trace = pings s.trace →
      system.step ⟨s, [], app⟩ (.event (.callback w .CLIENT_ESTABLISHED {})) = some mid →
      system.Follows (fun cfg l => session w cfg l = true) mid ls ⟨t, [], app⟩ →
      (∀ l ∈ ls, ticks w l = false) → False := by
    intro t mid ls hthread hphase hping hpings hmid hrun hls
    have henabled : t.callback_enabled w .CLIENT_WRITEABLE = true := by
      simp [Sys.callback_enabled, lws_context.enables, hthread, hphase]
    have hstep : system.step ⟨t, [], app⟩ (.event (.callback w .CLIENT_WRITEABLE {})) =
        some ⟨(t.setLws (t.lws.modify w fun i => { i with writable := false })).act
          (writeable_ping t.c w), [.q_head_check], app⟩ := by
      simp [System.step, system, Sys.deliver, henabled, Sys.callback, hping]
    have hcount := hfirst _ mid _ ⟨hmid, hrun.snoc (by simp [session, opened]) hstep⟩ (by
      intro l hl
      rcases List.mem_append.mp hl with hl | hl
      · exact hls l hl
      · rw [List.mem_singleton.mp hl]
        rfl)
    rw [Sys.act_trace, Sys.setLws_trace, pings_append, hpings] at hcount
    exact absurd hcount (Nat.succ_ne_self _)
  have henabled : s.callback_enabled w .CLIENT_ESTABLISHED = true := by
    simp [Sys.callback_enabled, lws_context.enables, hrunning, hconnecting]
  have hmid : system.step ⟨s, [], app⟩ (.event (.callback w .CLIENT_ESTABLISHED {})) =
      some ⟨(s.setLws (s.lws.setPhase w .established)).act (established s.c), [.q_head_check], app⟩ := by
    simp [System.step, system, Sys.deliver, henabled, Sys.callback]
  have hopen : (s.lws.setPhase w .established).phase w = some .established := by simp [hconnecting]
  have hplain : ∀ {acts : List Act}, Plain acts → pings (s.trace ++ acts) = pings s.trace := by
    intro acts hacts
    rw [pings, pings, writes_append, hacts.writes, List.append_nil]
  have hestablished := (established_mild s.c).plain
  generalize hs₁ : (s.setLws (s.lws.setPhase w .established)).act (established s.c) = s₁ at hmid
  have hthread : s₁.thread = .running := by rw [← hs₁]; exact hrunning
  have hphase : s₁.lws.phase w = some .established := by
    rw [← hs₁, Sys.act_lws, lws_context.phase_performs]
    exact hopen
  have hping : s₁.c.send_ping = true := by rw [← hs₁]; exact hsend
  have htrace : pings s₁.trace = pings s.trace := by rw [← hs₁]; exact hplain hestablished
  have hcheck : system.step ⟨s₁, [.q_head_check], app⟩ (.svc {}) =
      some ⟨s₁, if s₁.c.q.has_data then [.lws_callback_on_writable] else [], app⟩ := by
    simp [System.step, system, Sys.svc]
  have hone : system.Follows (fun cfg l => session w cfg l = true) ⟨s₁, [.q_head_check], app⟩
      ([] ++ [.svc {}]) ⟨s₁, if s₁.c.q.has_data then [.lws_callback_on_writable] else [], app⟩ :=
    System.Follows.nil.snoc rfl hcheck
  cases hdata : s₁.c.q.has_data with
  | false =>
    rw [hdata, if_neg (by simp)] at hone
    exact hwrites s₁ _ _ hthread hphase hping htrace hmid hone (by simp [ticks])
  | true =>
    rw [hdata, if_pos rfl] at hone
    have hrequest : system.step ⟨s₁, [.lws_callback_on_writable], app⟩ (.svc {}) =
        some ⟨s₁.act (s₁.c, request_writable s₁.c), [], app⟩ := rfl
    refine hwrites (s₁.act (s₁.c, request_writable s₁.c)) _ _ hthread ?_ hping ?_ hmid
      (hone.snoc rfl hrequest) (by simp [ticks])
    · rw [Sys.act_lws, lws_context.phase_performs]
      exact hphase
    · rw [Sys.act_trace, pings, writes_append, (request_writable_mild s₁.c).plain.writes, List.append_nil]
      exact htrace

theorem timer_first (h : cfg.shared.c.send_ping = false) : TimerFirst w cfg := by
  rintro ls mid last ⟨hstep, hrun⟩ hticks
  have hcalm : ∀ (cfg next : Config) (l : Label), cfg.shared.c.send_ping = false →
      system.Moves cfg l next → pings next.shared.trace = pings cfg.shared.trace := by
    intro cfg next l hsend hmove
    rcases writes_step hmove with hsame | ⟨n, wp, hwp, hdata⟩ | ⟨hping, _⟩
    · rw [pings, pings, hsame]
    · cases wp <;> simp [pings, hdata] at hwp ⊢
    · exfalso
      unfold writes_ping at hping
      split at hping
      · rw [hsend] at hping
        cases hping
      · cases hping
  have hfirst : mid.shared.c.send_ping = false := by
    cases System.step_moves hstep with
    | event hdeliver =>
      simp only [system, Sys.deliver, Option.ite_none_right_eq_some] at hdeliver
      obtain ⟨_, hdeliver⟩ := hdeliver
      cases hdeliver
      exact h
  refine Eq.trans ?_ (hcalm cfg mid _ h (System.step_moves hstep))
  suffices hsuf : last.shared.c.send_ping = false ∧
      pings last.shared.trace = pings mid.shared.trace from hsuf.2
  induction hrun with
  | nil => exact ⟨hfirst, rfl⟩
  | @snoc ls mid' last l _ hok hlast ih =>
    obtain ⟨hclear, hpings⟩ := ih fun m hm => hticks m (by simp [hm])
    have hmove := System.step_moves hlast
    exact ⟨send_ping_clear hok (hticks l (by simp)) hmove hclear,
      (hcalm mid' last l hclear hmove).trans hpings⟩

/-- TIMER has requested a ping that no WRITEABLE wrote when connection 0 ends, and
    connection 1 is made. -/
def lost_ping : List Label :=
  connected_run ++
    [.event (.callback 0 .TIMER {}), .event (.callback 0 .CLIENT_CLOSED {}), .svc {},
      .event (.callback 0 .WSI_DESTROY {}), .event .sul_reconnect_cb,
      .svc { connect := .accepted }, .svc {}]

/-- The first connection of a client. -/
def first_connection : List Label := connected_run.take 7

/-- The session of a WRITEABLE that comes first. -/
def early_writeable (w : WsiId) : List Label := [.svc {}, .event (.callback w .CLIENT_WRITEABLE {})]

theorem early_inputs {mid last : Config} (h : Session w cfg mid (early_writeable w) last) :
    system.inputs (input w) mid (early_writeable w) = [.section {}, .callback .CLIENT_WRITEABLE {}] := by
  have hsplit : early_writeable w =
      ([] ++ [.svc {}]) ++ [.event (.callback w .CLIENT_WRITEABLE {})] := rfl
  rw [hsplit]
  have hrun := h.follows
  rw [hsplit] at hrun
  obtain ⟨mid₁, hrun₁, _⟩ := hrun.of_snoc
  obtain ⟨mid₂, hrun₂, _⟩ := hrun₁.of_snoc
  rw [hrun₁.inputs_snoc, hrun₂.inputs_snoc]
  simp [input, System.inputs, System.observe]

/-- Connection `w` of `cfg` can get ESTABLISHED, and a WRITEABLE that comes first
    then makes the traffic `n` calls long. -/
def shows (w : WsiId) (n : Nat) (cfg : Config) : Bool :=
  cfg.svc.isEmpty && (cfg.shared.thread == .running) && !cfg.shared.c.stopping &&
    (cfg.shared.lws.phase w == some .connecting) &&
    (system.step cfg (.event (.callback w .CLIENT_ESTABLISHED {}))).any fun mid =>
      (system.run (fun cfg l => session w cfg l = true) mid (early_writeable w)).isSome &&
        (traffic w cfg mid (early_writeable w)).length == n

theorem opening_of_shows {n : Nat} (h : Reachable cfg) (hshows : shows w n cfg = true) :
    Opening w cfg ∧ ∃ mid last, Session w cfg mid (early_writeable w) last ∧
      (traffic w cfg mid (early_writeable w)).length = n := by
  simp only [shows, Bool.and_eq_true, beq_iff_eq, Bool.not_eq_true', List.isEmpty_iff] at hshows
  obtain ⟨⟨⟨⟨hidle, hrunning⟩, hstopping⟩, hconnecting⟩, hrun⟩ := hshows
  refine ⟨⟨h, hidle, hrunning, hstopping, hconnecting⟩, ?_⟩
  cases hmid : system.step cfg (.event (.callback w .CLIENT_ESTABLISHED {})) with
  | none => simp [hmid] at hrun
  | some mid =>
    rw [hmid] at hrun
    simp only [Option.any_some, Bool.and_eq_true, beq_iff_eq] at hrun
    obtain ⟨last, hlast⟩ := Option.isSome_iff_exists.mp hrun.1
    exact ⟨mid, last, ⟨hmid, .of_run hlast⟩, hrun.2⟩

theorem alike_of_empty (h : Reachable cfg) (h' : Reachable cfg')
    (hq : cfg.shared.c.q.has_data = false) (hq' : cfg'.shared.c.q.has_data = false) :
    cfg.shared.c.q.Alike cfg'.shared.c.q := by
  obtain ⟨ns, hns, _⟩ := h.fifo
  obtain ⟨ns', hns', _⟩ := h'.fifo
  exact .of_empty hns hns' hq hq'

/-- Connection 0 ends after an unanswered PING, and connection 1 is made. -/
def answerless : List Label :=
  connected_run ++
    [.event (.callback 0 .TIMER {}), .event (.callback 0 .CLIENT_WRITEABLE {}), .svc {},
      .event (.callback 0 .CLIENT_CLOSED {}), .svc {}, .event (.callback 0 .WSI_DESTROY {}),
      .event .sul_reconnect_cb, .svc { connect := .accepted }, .svc {}]

end lws_client.ws_client_v2
