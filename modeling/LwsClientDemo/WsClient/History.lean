import LwsClientDemo.History
import LwsClientDemo.WsClient.Receive
import LwsClientDemo.WsClient.Heartbeat

open interleaving

namespace lws_client.ws_client

/-- What a step is for the client with connection `w`. Other steps do not touch
    what the client does on it. -/
def stimulus (w : WsiId) (cfg : Config) : Label → Option Stimulus
  | .event (.callback v r a) => if v = w then some (.callback r a) else none
  | .event (.event_wait_cancelled wsi) => some (.event_wait_cancelled wsi)
  | .svc a => some (.section a)
  | .app t a =>
    match (cfg.app t).head? with
    | some (.enqueue_locked data is_binary) => some (.send data is_binary a.ok)
    | _ => none
  | _ => none

/-- The steps from ESTABLISHED of connection `w` to the reconnect that follows its
    end: its callbacks, sends of any threads, the end of an older connection, and
    of a start or a stop that was already under way. -/
def session (w : WsiId) (cfg : Config) : Label → Bool
  | .event (.callback v r _) => if v = w then opened r else (r matches .WSI_DESTROY)
  | .event (.event_wait_cancelled _) | .svc _ | .call _ _ => true
  | .app t _ => (cfg.app t).head?.all fun
    | .enqueue _ _ | .enqueue_locked _ _ | .enqueue_wake | .lws_cancel_service => true
    | .start_return | .stop_cancel => true
    | .wsld_stop => cfg.shared.c.stopping
    | _ => false
  | _ => false

/-- What RECEIVE and TIMER return, and WRITEABLE after its `lws_write`. The other
    callbacks return 0. -/
def returned (cfg : Config) : Label → List Seen
  | .event (.callback _ (.CLIENT_RECEIVE chunk) a) =>
    (receive cfg.shared.c chunk a.ok).toList.map fun o => .returned o.ret
  | .event (.callback v .TIMER _) => [.returned (timer cfg.shared.c v).ret]
  | .svc a =>
    if cfg.svc.head?.any (fun f => f matches .write _ _ _) then
      [.returned (if a.ret < 0 then -1 else 0)]
    else []
  | _ => []

/-- The reconnect that CLOSED schedules. -/
def scheduled (cfg : Config) : Label → List Shown
  | .event (.callback _ .CLIENT_CLOSED a) =>
    if cfg.shared.c.stopping then []
    else [.reconnect (reconnect_due (closed cfg.shared.c a.now) - a.now)]
  | _ => []

/-- Everything a step shows. -/
def shows (cfg : Config) (l : Label) : List Shown :=
  shown (calls cfg l) ++ (returned cfg l).map .seen ++ scheduled cfg l

/-- The clients agree on all that the session depends on, given so much of it. -/
structure Same (w w' : WsiId) (given : List Stimulus) (c c' : wsld_client) : Prop where
  config : c'.towsld_config = c.towsld_config
  wsi : (c.wsi = some w ∧ c'.wsi = some w') ∨ (c.wsi = none ∧ c'.wsi = none)
  stopping : c'.stopping = c.stopping
  state : c'.state = c.state
  delay : c'.reconnect_delay_ms = c.reconnect_delay_ms
  send_ping : c'.send_ping = c.send_ping
  ping_pending : c'.ping_pending = c.ping_pending
  q : c.q.Alike c'.q
  frag : SameBuffer given c.frag c'.frag

/-- The same section, on either connection. -/
inductive Frame.Alike (w w' : WsiId) : Frame → Frame → Prop where
  | has_data_check : Frame.Alike w w' (.has_data_check w) (.has_data_check w')
  | lws_callback_on_writable :
      Frame.Alike w w' (.lws_callback_on_writable w) (.lws_callback_on_writable w')
  | event_wait_cancelled : Frame.Alike w w' .event_wait_cancelled .event_wait_cancelled
  | write {n n' : ws_msg_node_t} {more : Bool} :
      n.message = n'.message → Frame.Alike w w' (.write w n more) (.write w' n' more)

structure Alike (w w' : WsiId) (given : List Stimulus) (cfg cfg' : Config) : Prop where
  client : Same w w' given cfg.shared.c cfg'.shared.c
  stack : List.Forall₂ (Frame.Alike w w') cfg.svc cfg'.svc

variable {w w' : WsiId} {given : List Stimulus} {x : Stimulus} {c c' : wsld_client} {chunk : Chunk}
  {a : Answer} {o o' : Out wsld_client}

theorem Same.symm (h : Same w w' given c c') : Same w' w given c' c :=
  ⟨h.config.symm, h.wsi.imp And.symm And.symm, h.stopping.symm, h.state.symm, h.delay.symm,
    h.send_ping.symm, h.ping_pending.symm, h.q.symm, h.frag.symm⟩

/-- A stimulus that is no chunk for the buffer. -/
theorem Same.pass (h : Same w w' given c c') (hx : ∀ k ∈ chunks [x], k.whole = true) :
    Same w w' (given ++ [x]) c c' :=
  { h with frag := h.frag.pass hx }

/-- ESTABLISHED sets all that depends on the connections before, but for the
    buffer. -/
theorem Same.established (hconfig : c'.towsld_config = c.towsld_config)
    (hstopping : c'.stopping = c.stopping) (hq : c.q.Alike c'.q) :
    Same w w' [] (established c w).1 (established c' w').1 ∧
      shown (ws_client.established c w).2 = shown (ws_client.established c' w').2 := by
  refine ⟨⟨hconfig, .inl ⟨rfl, rfl⟩, hstopping, rfl, ?_, rfl, rfl, hq, .inl fun _ hk => by cases hk⟩, ?_⟩
  · simp only [ws_client.established, hconfig]
  · simp only [ws_client.established, hconfig]
    rfl

/-- A chunk is taken alike. -/
theorem Same.receive {ok : Bool} (h : Same w w' given c c')
    (hfirst : BeginsFirst (given ++ [.callback (.CLIENT_RECEIVE chunk) a]))
    (ho : receive c chunk ok = some o) (ho' : ws_client.receive c' chunk ok = some o')
    (hret : o.ret = 0) (hret' : o'.ret = 0) :
    Same w w' (given ++ [.callback (.CLIENT_RECEIVE chunk) a]) o.client o'.client ∧
      shown o.acts = shown o'.acts := by
  cases hwhole : chunk.whole with
  | true =>
    rw [ws_client.receive, ← chunk.whole_eq, if_pos hwhole, Option.some.injEq] at ho ho'
    subst ho ho'
    dsimp only
    rw [h.config]
    exact ⟨h.pass (by simp [chunks, hwhole]), rfl⟩
  | false =>
    obtain ⟨g, hg, hclient, hacts⟩ := receive_appends ho hwhole hret
    obtain ⟨g', hg', hclient', hacts'⟩ := receive_appends ho' hwhole hret'
    have hsame := h.frag.append hfirst hwhole hg hg'
    rw [hclient, hclient', hacts, hacts', hsame, h.config]
    refine ⟨{ h with config := rfl, frag := .inr ?_ }, rfl⟩
    split
    · rfl
    · exact hsame

theorem Same.timer (h : Same w w' given c c') :
    Same w w' given (timer c w).client (timer c' w').client ∧
      shown (ws_client.timer c w).acts = shown (ws_client.timer c' w').acts ∧
      (ws_client.timer c w).ret = (ws_client.timer c' w').ret := by
  unfold ws_client.timer
  rw [h.ping_pending, h.config]
  split
  · exact ⟨h, rfl, rfl⟩
  · exact ⟨{ h with config := rfl, send_ping := rfl, ping_pending := rfl }, rfl, rfl⟩

theorem Same.receive_pong (h : Same w w' given c c') :
    Same w w' given (receive_pong c w).1 (receive_pong c' w').1 ∧
      shown (ws_client.receive_pong c w).2 = shown (ws_client.receive_pong c' w').2 := by
  refine ⟨{ h with ping_pending := rfl }, ?_⟩
  simp only [ws_client.receive_pong, h.config]
  rfl

/-- CLOSED drops the connection, and schedules the same reconnect. -/
theorem Same.closed (h : Same w w' given c c') (now : Int) :
    Same w w' given (closed c now) (closed c' now) ∧
      (c.stopping = false → reconnect_due (ws_client.closed c' now) = reconnect_due (ws_client.closed c now)) := by
  unfold ws_client.closed
  dsimp only
  rw [h.stopping]
  split
  · next hstopping =>
    exact ⟨{ h with wsi := .inr ⟨rfl, rfl⟩, stopping := rfl }, fun hnot => by simp [hnot] at hstopping⟩
  · refine ⟨{ h with wsi := .inr ⟨rfl, rfl⟩, stopping := rfl, state := rfl, delay := ?_ }, fun _ => ?_⟩
    · simp only [schedule_reconnect, h.delay, h.config]
    · simp only [schedule_reconnect, h.delay]
      rfl

/-- The reconnect scheduled is as long away. -/
theorem Same.scheduled (h : Same w w' given c c') (now : Int) :
    (if c.stopping then [] else [Shown.reconnect (reconnect_due (ws_client.closed c now) - now)]) =
      if c'.stopping then [] else [.reconnect (reconnect_due (ws_client.closed c' now) - now)] := by
  cases hstopping : c.stopping with
  | true => rw [h.stopping, hstopping, if_pos rfl, if_pos rfl]
  | false => rw [h.stopping, hstopping, (h.closed now).2 hstopping]

theorem Same.wsi_destroy (h : Same w w' given c c') :
    Same w w' given (wsi_destroy c w) (wsi_destroy c' w') := by
  unfold ws_client.wsi_destroy
  rcases h.wsi with ⟨hwsi, hwsi'⟩ | ⟨hwsi, hwsi'⟩
  · rw [if_pos hwsi, if_pos hwsi']
    exact { h with wsi := .inr ⟨rfl, rfl⟩ }
  · rw [if_neg (by simp [hwsi]), if_neg (by simp [hwsi'])]
    exact h

/-- The end of another connection. -/
theorem Same.wsi_destroy_other (h : Same w w' given c c') {v : WsiId} (hv : v ≠ w) :
    ws_client.wsi_destroy c v = c := by
  rw [ws_client.wsi_destroy, if_neg]
  rcases h.wsi with ⟨hwsi, _⟩ | ⟨hwsi, _⟩
  · rw [hwsi, Option.some.injEq]
    exact hv.symm
  · simp [hwsi]

/-- A send is accepted, or not, alike. -/
theorem Same.send (h : Same w w' given c c') (data : Data) (is_binary ok : Bool) :
    Same w w' given (enqueue_locked c data is_binary ok).2 (enqueue_locked c' data is_binary ok).2 := by
  obtain ⟨hmsgs, hbytes⟩ := h.q.counters
  unfold enqueue_locked
  cases msg_node_new data is_binary ok with
  | none => exact h
  | some n =>
    dsimp only
    rw [h.config, ← hmsgs, ← hbytes]
    split
    · exact h
    · exact { h with config := rfl, q := h.q.append n }

variable {s t s' t' : Sys} {cfg cfg' next next' : Config} {l l' : Label}

/-- Two sections show the same, and leave clients that agree and frames alike. -/
structure Matches (w w' : WsiId) (given : List Stimulus) (s t s' t' : Sys) (fs fs' : List Frame) :
    Prop where
  client : Same w w' given t.c t'.c
  frames : List.Forall₂ (Frame.Alike w w') fs fs'
  calls : ∃ acts acts', t.trace = s.trace ++ acts ∧ t'.trace = s'.trace ++ acts' ∧
    shown acts = shown acts'

/-- A section that makes no calls. -/
theorem Matches.mute {fs fs' : List Frame} (hclient : Same w w' given t.c t'.c)
    (hframes : List.Forall₂ (Frame.Alike w w') fs fs') (htrace : t.trace = s.trace)
    (htrace' : t'.trace = s'.trace) : Matches w w' given s t s' t' fs fs' :=
  ⟨hclient, hframes, [], [], by rw [htrace, List.append_nil], by rw [htrace', List.append_nil], rfl⟩

theorem receive_matches {fs fs' : List Frame} {app app' : Nat → List AppFrame}
    (h : Same w w' given s.c s'.c)
    (hfirst : BeginsFirst (given ++ [.callback (.CLIENT_RECEIVE chunk) a]))
    (hok : granted ⟨s, [], app⟩ (.event (.callback w (.CLIENT_RECEIVE chunk) a)))
    (hok' : granted ⟨s', [], app'⟩ (.event (.callback w' (.CLIENT_RECEIVE chunk) a)))
    (hc : s.callback w a (.CLIENT_RECEIVE chunk) = some (fs, t))
    (hc' : s'.callback w' a (.CLIENT_RECEIVE chunk) = some (fs', t')) :
    Matches w w' (given ++ [.callback (.CLIENT_RECEIVE chunk) a]) s t s' t' fs fs' := by
  simp only [Sys.callback, Option.map_eq_some_iff, Prod.mk.injEq] at hc hc'
  obtain ⟨o, ho, rfl, rfl⟩ := hc
  obtain ⟨o', ho', rfl, rfl⟩ := hc'
  have hret : o.ret = 0 := by simpa [granted, ho] using hok
  have hret' : o'.ret = 0 := by simpa [granted, ho'] using hok'
  obtain ⟨hsame, hshown⟩ := h.receive hfirst ho ho' hret hret'
  rw [if_neg (by simp [hret]), if_neg (by simp [hret'])]
  exact ⟨hsame, .nil, o.acts, o'.acts, rfl, rfl, hshown⟩

theorem writeable_matches {fs fs' : List Frame} (h : Same w w' given s.c s'.c)
    (hc : s.callback w a .CLIENT_WRITEABLE = some (fs, t))
    (hc' : s'.callback w' a .CLIENT_WRITEABLE = some (fs', t')) :
    Matches w w' given s t s' t' fs fs' := by
  have hsends := h.send_ping
  cases hsend : s.c.send_ping with
  | true =>
    rw [hsend] at hsends
    simp only [Sys.callback, Sys.setLws_c, hsend, if_true] at hc
    simp only [Sys.callback, Sys.setLws_c, hsends, if_true] at hc'
    cases hc
    cases hc'
    exact ⟨{ h with send_ping := rfl, ping_pending := rfl }, .cons .has_data_check .nil, _, _, rfl, rfl,
      rfl⟩
  | false =>
    rw [hsend] at hsends
    rcases h.q.dequeue with ⟨hnone, hnone'⟩ | ⟨n, n', hn, hn', hmessage, hrest⟩
    · have hpop : s.c.q.dequeue = (none, s.c.q.dequeue.2) := Prod.ext hnone rfl
      have hpop' : s'.c.q.dequeue = (none, s'.c.q.dequeue.2) := Prod.ext hnone' rfl
      simp only [Sys.callback, Sys.setLws_c, hsend, Bool.false_eq_true, if_false] at hc
      simp only [Sys.callback, Sys.setLws_c, hsends, Bool.false_eq_true, if_false] at hc'
      rw [hpop] at hc
      rw [hpop'] at hc'
      cases hc
      cases hc'
      exact .mute h .nil rfl rfl
    · have hpop : s.c.q.dequeue = (some n, s.c.q.dequeue.2) := Prod.ext hn rfl
      have hpop' : s'.c.q.dequeue = (some n', s'.c.q.dequeue.2) := Prod.ext hn' rfl
      simp only [Sys.callback, Sys.setLws_c, hsend, Bool.false_eq_true, if_false] at hc
      simp only [Sys.callback, Sys.setLws_c, hsends, Bool.false_eq_true, if_false] at hc'
      rw [hpop] at hc
      rw [hpop'] at hc'
      cases hc
      cases hc'
      refine .mute { h with send_ping := rfl, q := hrest } ?_ rfl rfl
      rw [hrest.has_data]
      exact .cons (.write hmessage) .nil

/-- A callback of the open connection. -/
theorem callback_matches {r : Reason} {fs fs' : List Frame} {app app' : Nat → List AppFrame}
    (h : Same w w' given s.c s'.c) (hr : opened r = true)
    (hfirst : BeginsFirst (given ++ [.callback r a]))
    (hok : granted ⟨s, [], app⟩ (.event (.callback w r a)))
    (hok' : granted ⟨s', [], app'⟩ (.event (.callback w' r a)))
    (hc : s.callback w a r = some (fs, t)) (hc' : s'.callback w' a r = some (fs', t')) :
    Matches w w' (given ++ [.callback r a]) s t s' t' fs fs' := by
  cases r with
  | CLIENT_RECEIVE chunk => exact receive_matches h hfirst hok hok' hc hc'
  | CLIENT_WRITEABLE => exact writeable_matches (h.pass (by simp [chunks])) hc hc'
  | TIMER =>
    have hpass := h.pass (x := .callback .TIMER a) (by simp [chunks])
    obtain ⟨hsame, hshown, hret⟩ := hpass.timer
    simp only [Sys.callback, Option.some.injEq, Prod.mk.injEq] at hc hc'
    obtain ⟨rfl, rfl⟩ := hc
    obtain ⟨rfl, rfl⟩ := hc'
    refine ⟨?_, .nil, (timer s.c w).acts, (timer s'.c w').acts, ?_, ?_, hshown⟩
    · split <;> split <;> exact hsame
    · split <;> rfl
    · split <;> rfl
  | CLIENT_RECEIVE_PONG =>
    cases hc
    cases hc'
    obtain ⟨hsame, hshown⟩ := (h.pass (x := .callback .CLIENT_RECEIVE_PONG a) (by simp [chunks])).receive_pong
    exact ⟨hsame, .nil, _, _, rfl, rfl, hshown⟩
  | CLIENT_CLOSED =>
    cases hc
    cases hc'
    have hpass := h.pass (x := .callback .CLIENT_CLOSED a) (by simp [chunks])
    exact .mute (hpass.closed a.now).1 .nil (by simp) (by simp)
  | WSI_DESTROY =>
    cases hc
    cases hc'
    have hpass := h.pass (x := .callback .WSI_DESTROY a) (by simp [chunks])
    exact .mute hpass.wsi_destroy .nil (by simp) (by simp)
  | _ => cases hr

theorem svc_matches {f f' : Frame} {fs fs' : List Frame} (h : Same w w' given s.c s'.c)
    (hf : Frame.Alike w w' f f') (hc : s.svc f a = some (fs, t)) (hc' : s'.svc f' a = some (fs', t')) :
    Matches w w' given s t s' t' fs fs' := by
  cases hf with
  | has_data_check =>
    cases hc
    cases hc'
    refine .mute h ?_ rfl rfl
    rw [h.q.has_data]
    split
    · exact .cons .lws_callback_on_writable .nil
    · exact .nil
  | lws_callback_on_writable =>
    cases hc
    cases hc'
    exact ⟨h, .nil, _, _, rfl, rfl, rfl⟩
  | event_wait_cancelled =>
    cases hc
    cases hc'
    refine .mute h ?_ rfl rfl
    simp only [event_wait_cancelled, h.state, h.q.has_data]
    rcases h.wsi with ⟨hwsi, hwsi'⟩ | ⟨hwsi, hwsi'⟩
    · rw [hwsi, hwsi']
      split
      · exact .cons .lws_callback_on_writable .nil
      · exact .nil
    · rw [hwsi, hwsi']
      split <;> exact .nil
  | @write n n' more hmessage =>
    have hshown : shown (writeable_write n w) = shown (writeable_write n' w') := by
      exact shown_write hmessage w w' fun b => if b then .LWS_WRITE_BINARY else .LWS_WRITE_TEXT
    simp only [Sys.svc] at hc hc'
    split at hc
    · next hret =>
      rw [if_pos hret] at hc'
      cases hc
      cases hc'
      exact ⟨h, .nil, _, _, rfl, rfl, hshown⟩
    · next hret =>
      rw [if_neg hret] at hc'
      cases hc
      cases hc'
      refine ⟨h, ?_, _, _, rfl, rfl, hshown⟩
      split
      · exact .cons .lws_callback_on_writable .nil
      · exact .nil

/-- Sections that match, of a callback or behind one. -/
theorem Matches.alike {fs fs' rest rest' : List Frame}
    (h : Matches w w' given cfg.shared next.shared cfg'.shared next'.shared fs fs')
    (hstep : system.step cfg l = some next) (hstep' : system.step cfg' l' = some next')
    (hsvc : next.svc = fs ++ rest) (hsvc' : next'.svc = fs' ++ rest')
    (hrest : List.Forall₂ (Frame.Alike w w') rest rest') (hret : returned cfg l = returned cfg' l')
    (hscheduled : scheduled cfg l = scheduled cfg' l') :
    Alike w w' given next next' ∧ shows cfg l = shows cfg' l' := by
  obtain ⟨hclient, hframes, acts, acts', htrace, htrace', hshown⟩ := h
  refine ⟨⟨hclient, hsvc ▸ hsvc' ▸ List.rel_append hframes hrest⟩, ?_⟩
  rw [shows, shows, calls_eq hstep htrace, calls_eq hstep' htrace', hshown, hret, hscheduled]

theorem Frame.Alike.symm {f f' : Frame} (h : Frame.Alike w w' f f') : Frame.Alike w' w f' f := by
  cases h with
  | has_data_check => exact .has_data_check
  | lws_callback_on_writable => exact .lws_callback_on_writable
  | event_wait_cancelled => exact .event_wait_cancelled
  | write hmessage => exact .write hmessage.symm

theorem Alike.symm (h : Alike w w' given cfg cfg') : Alike w' w given cfg' cfg :=
  ⟨h.client.symm, (h.stack.imp fun _ _ => Frame.Alike.symm).flip⟩

/-- A step of the session that is nothing for the connection. -/
theorem step_silent (hsession : session w cfg l = true) (hstimulus : stimulus w cfg l = none)
    (hstep : system.step cfg l = some next) (h : Alike w w' given cfg cfg') :
    Alike w w' given next cfg' ∧ shows cfg l = [] := by
  have hnothing : ∀ acts, next.shared.trace = cfg.shared.trace ++ acts → shown acts = [] →
      returned cfg l = [] → scheduled cfg l = [] → shows cfg l = [] := by
    intro acts htrace hshown hret hscheduled
    rw [shows, calls_eq hstep htrace, hshown, hret, hscheduled]
    rfl
  obtain ⟨hclient, hstack⟩ := h
  cases System.step_moves hstep with
  | @event e s t app fs hdeliver =>
    cases e with
    | callback v r a =>
      have hv : v ≠ w := by
        rintro rfl
        simp [stimulus] at hstimulus
      cases r with
      | WSI_DESTROY =>
        simp only [system, Sys.deliver, Option.ite_none_right_eq_some] at hdeliver
        obtain ⟨_, hdeliver⟩ := hdeliver
        cases hdeliver
        refine ⟨⟨?_, hstack⟩, hnothing [] (by simp) rfl rfl rfl⟩
        simp only [Sys.act_c, hclient.wsi_destroy_other hv]
        exact hclient
      | _ => simp [session, hv] at hsession
    | event_wait_cancelled wsi => cases hstimulus
    | _ => cases hsession
  | svc hsvc => cases hstimulus
  | call _ _ => exact ⟨⟨hclient, hstack⟩, hnothing [] (List.append_nil _).symm rfl rfl rfl⟩
  | @app u f a s t svc app rest fs htop happ =>
    simp only [session, htop, List.head?_cons, Option.all_some] at hsession
    cases f with
    | enqueue data is_binary =>
      cases data with
      | none =>
        cases happ
        exact ⟨⟨hclient, hstack⟩, hnothing _ rfl rfl rfl rfl⟩
      | some data =>
        cases happ
        exact ⟨⟨hclient, hstack⟩, hnothing [] (List.append_nil _).symm rfl rfl rfl⟩
    | enqueue_locked data is_binary => simp [stimulus, htop] at hstimulus
    | enqueue_wake =>
      cases happ
      exact ⟨⟨hclient, hstack⟩, hnothing [] (List.append_nil _).symm rfl rfl rfl⟩
    | lws_cancel_service =>
      cases happ
      exact ⟨⟨hclient, hstack⟩, hnothing _ rfl rfl rfl rfl⟩
    | start_return =>
      cases happ
      exact ⟨⟨{ hclient with config := hclient.config }, hstack⟩, hnothing [] rfl rfl rfl rfl⟩
    | stop_cancel =>
      cases happ
      refine ⟨⟨hclient, hstack⟩, hnothing _ rfl ?_ rfl rfl⟩
      split <;> rfl
    | wsld_stop =>
      simp only [system, Sys.app, hsession, Bool.not_true, Bool.and_false, Bool.false_eq_true, if_false,
        Option.some.injEq, Prod.mk.injEq] at happ
      obtain ⟨_, rfl⟩ := happ
      exact ⟨⟨hclient, hstack⟩, hnothing [] (List.append_nil _).symm rfl rfl rfl⟩
    | _ => cases hsession

/-- The step that a stimulus is given in. -/
inductive Given (w : WsiId) (cfg : Config) : Label → Stimulus → Prop where
  | callback (r : Reason) (a : Answer) : Given w cfg (.event (.callback w r a)) (.callback r a)
  | event_wait_cancelled (wsi : Bool) :
      Given w cfg (.event (.event_wait_cancelled wsi)) (.event_wait_cancelled wsi)
  | section (a : Answer) : Given w cfg (.svc a) (.section a)
  | send {t : Nat} {a : Answer} {data : Data} {is_binary ok : Bool} :
      (cfg.app t).head? = some (.enqueue_locked data is_binary) → a.ok = ok →
      Given w cfg (.app t a) (.send data is_binary ok)

theorem given_of_stimulus (h : stimulus w cfg l = some x) : Given w cfg l x := by
  cases l with
  | event e =>
    cases e with
    | callback v r a =>
      simp only [stimulus, Option.ite_none_right_eq_some, Option.some.injEq] at h
      obtain ⟨rfl, rfl⟩ := h
      exact .callback r a
    | event_wait_cancelled wsi =>
      cases h
      exact .event_wait_cancelled wsi
    | _ => cases h
  | svc a =>
    cases h
    exact .section a
  | call t f => cases h
  | app t a =>
    simp only [stimulus] at h
    split at h
    · next htop =>
      cases h
      exact .send htop rfl
    · cases h

/-- The session, with its appends granted. -/
def InSession (w : WsiId) (cfg : Config) (l : Label) : Prop := session w cfg l = true ∧ granted cfg l

/-- What callbacks of clients that agree return. -/
theorem returned_callback {r : Reason} {app app' : Nat → List AppFrame}
    (h : Same w w' given s.c s'.c) (hok : granted ⟨s, [], app⟩ (.event (.callback w r a)))
    (hok' : granted ⟨s', [], app'⟩ (.event (.callback w' r a))) :
    returned ⟨s, [], app⟩ (.event (.callback w r a)) =
      returned ⟨s', [], app'⟩ (.event (.callback w' r a)) := by
  cases r with
  | TIMER => simp only [returned, h.timer.2.2]
  | CLIENT_RECEIVE chunk => simp only [returned, returned_zero hok, returned_zero hok']
  | _ => rfl

/-- The same stimulus keeps the clients alike, and shows the same of either. -/
theorem step_alike (h : Alike w w' given cfg cfg') (hfirst : BeginsFirst (given ++ [x]))
    (hin : InSession w cfg l) (hin' : InSession w' cfg' l') (hstep : system.step cfg l = some next)
    (hstep' : system.step cfg' l' = some next') (hx : stimulus w cfg l = some x)
    (hx' : stimulus w' cfg' l' = some x) :
    Alike w w' (given ++ [x]) next next' ∧ shows cfg l = shows cfg' l' := by
  obtain ⟨hclient, hstack⟩ := h
  have hmove := System.step_moves hstep
  have hmove' := System.step_moves hstep'
  cases given_of_stimulus hx with
  | callback r a =>
    cases given_of_stimulus hx' with
    | callback _ _ =>
      have hopened : opened r = true := by simpa [session] using hin.1
      cases hmove with
      | event hdeliver =>
        cases hmove' with
        | event hdeliver' =>
          simp only [system, Sys.deliver, Option.ite_none_right_eq_some] at hdeliver hdeliver'
          refine (callback_matches hclient hopened hfirst hin.2 hin'.2 hdeliver.2
            hdeliver'.2).alike hstep hstep' (List.append_nil _).symm (List.append_nil _).symm .nil ?_ ?_
          · exact returned_callback hclient hin.2 hin'.2
          · cases r with
            | CLIENT_CLOSED => exact hclient.scheduled a.now
            | _ => rfl
  | event_wait_cancelled wsi =>
    cases given_of_stimulus hx' with
    | event_wait_cancelled _ =>
      cases hmove with
      | event hdeliver =>
        cases hmove' with
        | event hdeliver' =>
          simp only [system, Sys.deliver, Option.ite_none_right_eq_some, Option.some.injEq,
            Prod.mk.injEq] at hdeliver hdeliver'
          obtain ⟨_, rfl, rfl⟩ := hdeliver
          obtain ⟨_, rfl, rfl⟩ := hdeliver'
          refine Matches.alike (.mute (hclient.pass (by simp [chunks])) ?_ rfl rfl) hstep hstep'
            (List.append_nil _).symm (List.append_nil _).symm .nil rfl rfl
          split
          · exact .cons .event_wait_cancelled .nil
          · exact .nil
  | «section» a =>
    cases given_of_stimulus hx' with
    | «section» _ =>
      cases hmove with
      | @svc f _ _ _ _ rest fs hsvc =>
        cases hmove' with
        | @svc f' _ _ _ _ rest' fs' hsvc' =>
          cases hstack with
          | cons hframe hrest =>
            refine (svc_matches (hclient.pass (by simp [chunks])) hframe hsvc hsvc').alike hstep hstep'
              rfl rfl hrest ?_ rfl
            cases hframe <;> rfl
  | @send t a data is_binary ok htop hok =>
    cases given_of_stimulus hx' with
    | @send t' a' _ _ _ htop' hok' =>
      cases hmove with
      | @app _ f _ s _ _ _ _ _ happs happ =>
        cases hmove' with
        | @app _ f' _ s' _ _ _ _ _ happs' happ' =>
          simp only [happs, List.head?_cons, Option.some.injEq] at htop
          simp only [happs', List.head?_cons, Option.some.injEq] at htop'
          subst htop htop' hok
          have hpass := hclient.pass (x := .send data is_binary a.ok) (by simp [chunks])
          have hsame := hpass.send data is_binary a.ok
          simp only [system, Sys.app, Option.some.injEq, Prod.mk.injEq] at happ happ'
          obtain ⟨_, rfl⟩ := happ
          obtain ⟨_, rfl⟩ := happ'
          refine ⟨⟨?_, hstack⟩, ?_⟩
          · rw [hok']
            exact hsame
          · rw [shows, shows, calls_eq hstep rfl, calls_eq hstep' rfl]
            rfl

/-- ESTABLISHED of `w`, and a run of its session. -/
structure Session (w : WsiId) (cfg mid : Config) (ls : List Label) (last : Config) : Prop where
  established : ∃ a, system.step cfg (.event (.callback w .CLIENT_ESTABLISHED a)) = some mid
  follows : system.Follows (InSession w) mid ls last

/-- Everything a session shows. -/
def showing (w : WsiId) (cfg mid : Config) (ls : List Label) : List Shown :=
  shows cfg (.event (.callback w .CLIENT_ESTABLISHED {})) ++ system.observe shows mid ls

/-- The sessions of both clients show the same when they are given the same, and
    their callbacks leave the same sections to run. -/
def SameSessions (w w' : WsiId) (cfg cfg' : Config) : Prop :=
  ∀ ls ls' mid mid' last last', Session w cfg mid ls last → Session w' cfg' mid' ls' last' →
    system.inputs (stimulus w) mid ls = system.inputs (stimulus w') mid' ls' →
    BeginsFirst (system.inputs (stimulus w) mid ls) →
    showing w cfg mid ls = showing w' cfg' mid' ls' ∧
      List.Forall₂ (Frame.Alike w w') last.svc last'.svc

/-- Clients of one configuration, with the same messages queued, show the same
    from ESTABLISHED on, whatever was before. -/
theorem same_sessions (hconfig : cfg'.shared.c.towsld_config = cfg.shared.c.towsld_config)
    (hstopping : cfg'.shared.c.stopping = cfg.shared.c.stopping)
    (hq : cfg.shared.c.q.Alike cfg'.shared.c.q) : SameSessions w w' cfg cfg' := by
  rintro ls ls' mid mid' last last' ⟨⟨a, hmid⟩, hrun⟩ ⟨⟨a', hmid'⟩, hrun'⟩ hsame hfirst
  obtain ⟨hclient, hshown⟩ : Same w w' [] (established cfg.shared.c w).1 (established cfg'.shared.c w').1 ∧
      shown (established cfg.shared.c w).2 = shown (established cfg'.shared.c w').2 :=
    Same.established hconfig hstopping hq
  have hopen : Alike w w' [] mid mid' ∧ shows cfg (.event (.callback w .CLIENT_ESTABLISHED {})) =
      shows cfg' (.event (.callback w' .CLIENT_ESTABLISHED {})) := by
    cases System.step_moves hmid with
    | event hdeliver =>
      cases System.step_moves hmid' with
      | event hdeliver' =>
        simp only [system, Sys.deliver, Option.ite_none_right_eq_some] at hdeliver hdeliver'
        obtain ⟨_, hdeliver⟩ := hdeliver
        obtain ⟨_, hdeliver'⟩ := hdeliver'
        cases hdeliver
        cases hdeliver'
        exact Matches.alike ⟨hclient, .nil, _, _, rfl, rfl, hshown⟩ hmid hmid' rfl rfl .nil rfl rfl
  obtain ⟨halike, hshows⟩ := hopen
  have hruns := hrun.two_runs_given (S := Alike w w') (G := BeginsFirst)
    (fun _ _ _ _ _ halike hin hstep hnone => step_silent hin.1 hnone hstep halike)
    (fun _ _ _ _ _ halike hin hstep hnone =>
      (step_silent hin.1 hnone hstep halike.symm).imp Alike.symm id)
    (fun _ _ => BeginsFirst.init)
    (fun _ _ _ _ _ _ _ _ halike hfirst hin hin' hstep hstep' hx hx' =>
      step_alike halike hfirst hin hin' hstep hstep' hx hx') hrun' halike hsame hfirst
  exact ⟨by rw [showing, showing, hshows, hruns.2], hruns.1.stack⟩

end lws_client.ws_client
