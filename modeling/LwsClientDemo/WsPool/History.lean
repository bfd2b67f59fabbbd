import LwsClientDemo.History
import LwsClientDemo.WsPool.Receive
import LwsClientDemo.WsPool.Heartbeat

open interleaving

namespace lws_client.ws_pool

/-- Sections for client `d`. -/
def Frame.of (d : ClientId) : Frame → Bool
  | .has_data_check c _ | .lws_callback_on_writable c _ | .write c _ _ _ => c == d
  | .schedule_reconnect c | .schedule_arm c => c == d
  | .do_connect c | .connection_error c _ | .wsi_destroy c _ | .connect_return c _ => c == d
  | _ => false

/-- Sections of a connect call for client `d`. -/
def Frame.connects (d : ClientId) : Frame → Bool
  | .do_connect c | .connection_error c _ | .wsi_destroy c _ | .connect_return c _ => c == d
  | .wc_connect (c :: _) => c == d
  | _ => false

/-- Code that neither stops client `d`, unless it is stopping, nor drops its
    messages. -/
def AppFrame.spares (d : ClientId) (stopping : Bool) : AppFrame → Bool
  | .wsp_client_stop c => c != d || stopping
  | .stop_flush c | .wsp_client_destroy c => c != d
  | _ => true

/-- What a step is for client `d` with connection `w`. Other steps do not touch
    what the client does on it. -/
def stimulus (d : ClientId) (w : WsiId) (cfg : Config) : Label → Option Stimulus
  | .event (.callback c v r a) => if c = d ∧ v = w then some (.callback r a) else none
  | .svc a =>
    match cfg.svc.head? with
    | some (.wc_visit (c :: _)) => if c = d then some .visit else none
    | some f => if f.of d then some (.section a) else none
    | none => none
  | .app t a =>
    match (cfg.app t).head? with
    | some (.enqueue_locked c data is_binary) =>
      if c = d then some (.send data is_binary a.ok) else none
    | _ => none
  | _ => none

/-- The steps from ESTABLISHED of connection `w` of client `d` to the reconnect
    that follows its end: its callbacks, sends of any threads, the end of an older
    connection, and whatever the other clients and the pool do. The client is not
    stopped in between. -/
def session (d : ClientId) (w : WsiId) (cfg : Config) : Label → Bool
  | .event (.callback c v r _) => c != d || (if v = w then opened r else (r matches .WSI_DESTROY))
  | .event (.sul_reconnect_cb c) => c != d
  | .svc _ => cfg.svc.head?.all fun f => !f.connects d
  | .app t _ => (cfg.app t).head?.all (AppFrame.spares d (cfg.shared.client d).stopping)
  | _ => true

/-- What RECEIVE and TIMER return, and WRITEABLE after its `lws_write`. The other
    callbacks return 0. -/
def returned (d : ClientId) (cfg : Config) : Label → List Seen
  | .event (.callback c _ (.CLIENT_RECEIVE chunk) a) =>
    if c = d then (receive (cfg.shared.client c) chunk a.ok).toList.map fun o => .returned o.ret
    else []
  | .event (.callback c v .TIMER a) =>
    if c = d then [.returned (timer (cfg.shared.client c) v a.ret).ret] else []
  | .svc a =>
    if cfg.svc.head?.any (fun f => f.of d && (f matches .write _ _ _ _)) then
      [.returned (if a.ret < 0 then -1 else 0)]
    else []
  | _ => []

/-- Everything a step shows of client `d`. -/
def shows (d : ClientId) (cfg : Config) (l : Label) : List Shown :=
  shown (calls d cfg l) ++ (returned d cfg l).map .seen

/-- The clients agree on all that the session depends on, given so much of it. -/
structure Same (w w' : WsiId) (given : List Stimulus) (c c' : wsp_client) : Prop where
  config : c'.towsp_config = c.towsp_config
  delay : c'.reconnect_delay_ms = c.reconnect_delay_ms
  fail_count : c'.reconnect_fail_count = c.reconnect_fail_count
  wsi : (c.wsi = some w ∧ c'.wsi = some w') ∨ (c.wsi = none ∧ c'.wsi = none)
  state : c'.state = c.state
  send_ping : c'.send_ping = c.send_ping
  ping_pending : c'.ping_pending = c.ping_pending
  q : c.q.Alike c'.q
  frag : SameBuffer given c.frag c'.frag
  stopping : c'.stopping = c.stopping

/-- The same section, of either client. -/
inductive Frame.Alike (d d' : ClientId) : Frame → Frame → Prop where
  | has_data_check {v v' : WsiId} : Frame.Alike d d' (.has_data_check d v) (.has_data_check d' v')
  | lws_callback_on_writable {v v' : WsiId} :
      Frame.Alike d d' (.lws_callback_on_writable d v) (.lws_callback_on_writable d' v')
  | write {v v' : WsiId} {n n' : ws_msg_node_t} {more : Bool} :
      n.message = n'.message → Frame.Alike d d' (.write d v n more) (.write d' v' n' more)
  | schedule_reconnect : Frame.Alike d d' (.schedule_reconnect d) (.schedule_reconnect d')
  | schedule_arm : Frame.Alike d d' (.schedule_arm d) (.schedule_arm d')

structure Alike (d d' : ClientId) (w w' : WsiId) (given : List Stimulus) (cfg cfg' : Config) : Prop where
  client : Same w w' given (cfg.shared.client d) (cfg'.shared.client d')
  stack : List.Forall₂ (Frame.Alike d d') (cfg.svc.filter (Frame.of d)) (cfg'.svc.filter (Frame.of d'))

variable {w w' : WsiId} {given : List Stimulus} {x : Stimulus} {c c' : wsp_client} {chunk : Chunk}
  {a : Answer} {o o' : Out wsp_client}

theorem Same.symm (h : Same w w' given c c') : Same w' w given c' c :=
  ⟨h.config.symm, h.delay.symm, h.fail_count.symm, h.wsi.imp And.symm And.symm, h.state.symm,
    h.send_ping.symm, h.ping_pending.symm, h.q.symm, h.frag.symm, h.stopping.symm⟩

/-- A stimulus that is no chunk for the buffer. -/
theorem Same.pass (h : Same w w' given c c') (hx : ∀ k ∈ chunks [x], k.whole = true) :
    Same w w' (given ++ [x]) c c' :=
  { h with frag := h.frag.pass hx }

/-- ESTABLISHED sets all that depends on the connections before, but for the
    buffer. -/
theorem Same.established (hconfig : c'.towsp_config = c.towsp_config) (hwsi : c.wsi = some w)
    (hwsi' : c'.wsi = some w') (hstopping : c'.stopping = c.stopping) (hq : c.q.Alike c'.q) :
    Same w w' [] (established c w).1 (established c' w').1 ∧
      shown (ws_pool.established c w).2 = shown (ws_pool.established c' w').2 := by
  refine ⟨⟨hconfig, ?_, rfl, .inl ⟨hwsi, hwsi'⟩, rfl, rfl, rfl, hq, .inl (fun _ hk => by cases hk),
    hstopping⟩, ?_⟩
  · simp only [ws_pool.established, hconfig]
  · simp only [ws_pool.established, hconfig]
    rfl

/-- A chunk is taken alike. -/
theorem Same.receive {ok : Bool} (h : Same w w' given c c')
    (hfirst : BeginsFirst (given ++ [.callback (.CLIENT_RECEIVE chunk) a]))
    (ho : receive c chunk ok = some o) (ho' : ws_pool.receive c' chunk ok = some o')
    (hret : o.ret = 0) (hret' : o'.ret = 0) :
    Same w w' (given ++ [.callback (.CLIENT_RECEIVE chunk) a]) o.client o'.client ∧
      shown o.acts = shown o'.acts := by
  cases hwhole : chunk.whole with
  | true =>
    rw [ws_pool.receive, ← chunk.whole_eq, if_pos hwhole, Option.some.injEq] at ho ho'
    subst ho ho'
    dsimp only
    rw [h.config]
    exact ⟨h.pass (by simp [chunks, hwhole]), rfl⟩
  | false =>
    obtain ⟨g, hg, hclient, hacts⟩ := receive_appends ho hwhole hret
    obtain ⟨g', hg', hclient', hacts'⟩ := receive_appends ho' hwhole hret'
    have hsame := h.frag.append hfirst hwhole hg hg'
    rw [hclient, hclient', hacts, hacts', hsame, h.config]
    refine ⟨{ h with config := rfl, frag := .inr ?_ }, rfl⟩
    split
    · rfl
    · exact hsame

theorem Same.timer (h : Same w w' given c c') (tick : Int) :
    Same w w' given (timer c w tick).client (timer c' w' tick).client ∧
      shown (ws_pool.timer c w tick).acts = shown (ws_pool.timer c' w' tick).acts ∧
      (ws_pool.timer c w tick).ret = (ws_pool.timer c' w' tick).ret := by
  have hset : shown (onWsi c'.wsi fun v => .lws_set_timer_usecs v (c.ping_interval_ms * 1000)) =
      shown (onWsi c.wsi fun v => .lws_set_timer_usecs v (c.ping_interval_ms * 1000)) := by
    rcases h.wsi with ⟨hwsi, hwsi'⟩ | ⟨hwsi, hwsi'⟩
    · rw [hwsi, hwsi']
      rfl
    · rw [hwsi, hwsi']
  unfold ws_pool.timer
  dsimp only
  rw [h.ping_pending, h.config]
  split
  · refine ⟨h, ?_, rfl⟩
    rw [shown_append, shown_append]
    split
    · rw [hset]
    · rfl
  · split
    · exact ⟨h, rfl, rfl⟩
    · refine ⟨{ h with config := rfl, send_ping := rfl, ping_pending := rfl }, ?_, rfl⟩
      rw [shown_append, shown_append]
      rfl

theorem Same.receive_pong (h : Same w w' given c c') :
    Same w w' given (receive_pong c w).1 (receive_pong c' w').1 ∧
      shown (ws_pool.receive_pong c w).2 = shown (ws_pool.receive_pong c' w').2 := by
  refine ⟨{ h with ping_pending := rfl }, ?_⟩
  simp only [ws_pool.receive_pong, h.config]
  rfl

/-- CLOSED drops the connection, and counts the failure alike. -/
theorem Same.closed (h : Same w w' given c c') :
    Same w w' given (closed c).1 (closed c').1 ∧
      (ws_pool.closed c).2 = (ws_pool.closed c').2 := by
  unfold ws_pool.closed
  dsimp only
  rw [h.stopping]
  split
  · exact ⟨{ h with wsi := .inr ⟨rfl, rfl⟩, state := rfl, stopping := rfl }, rfl⟩
  · refine ⟨{ h with wsi := .inr ⟨rfl, rfl⟩, state := rfl, stopping := rfl, fail_count := ?_ }, ?_⟩
    · simp only [h.fail_count]
    · simp only [h.config]

theorem Same.wsi_destroy (h : Same w w' given c c') :
    Same w w' given (wsi_destroy c w) (wsi_destroy c' w') := by
  obtain ⟨stopped, waiting, hc, _⟩ := wsi_destroy_client c w
  obtain ⟨stopped', waiting', hc', _⟩ := wsi_destroy_client c' w'
  rw [hc, hc']
  refine { h with wsi := .inr ?_ }
  rcases h.wsi with ⟨hwsi, hwsi'⟩ | ⟨hwsi, hwsi'⟩ <;> simp [hwsi, hwsi']

/-- The reconnect is armed alike, or refused. -/
theorem Same.schedule_reconnect (h : Same w w' given c c') (ret : Int) :
    Same w w' given (schedule_reconnect c ret).1 (schedule_reconnect c' ret).1 ∧
      (ws_pool.schedule_reconnect c ret).2 = (ws_pool.schedule_reconnect c' ret).2 := by
  unfold ws_pool.schedule_reconnect
  dsimp only
  rw [h.delay, h.fail_count, h.config]
  split
  · split
    · exact ⟨{ h with config := rfl, delay := rfl, fail_count := rfl, state := rfl }, rfl⟩
    · exact ⟨{ h with config := rfl, delay := rfl, fail_count := rfl, state := rfl }, rfl⟩
  · exact ⟨{ h with config := rfl, delay := rfl, fail_count := rfl, state := rfl }, rfl⟩

/-- A send is accepted, or not, alike. -/
theorem Same.send (h : Same w w' given c c') (data : Data) (is_binary ok : Bool) :
    Same w w' given (enqueue_locked c data is_binary ok).2.1 (enqueue_locked c' data is_binary ok).2.1 := by
  obtain ⟨hmsgs, hbytes⟩ := h.q.counters
  unfold enqueue_locked
  cases ws_msg_new data is_binary ok with
  | none => exact h
  | some n =>
    dsimp only
    rw [h.stopping, h.config, ← hmsgs, ← hbytes]
    split
    · exact h
    · split
      · exact h
      · exact { h with config := rfl, stopping := rfl, q := h.q.append n }

/-- What other code changes of a client: its timer, its stop and its place in the
    pool. -/
def Untouched (c c' : wsp_client) : Prop :=
  ∃ sul stopped waiting pool, c' = { c with sul, stopped, waiting, pool }

theorem Untouched.refl (c : wsp_client) : Untouched c c := ⟨_, _, _, _, rfl⟩

theorem Untouched.trans {c'' : wsp_client} (h : Untouched c c') (h' : Untouched c' c'') :
    Untouched c c'' := by
  obtain ⟨_, _, _, _, rfl⟩ := h
  obtain ⟨_, _, _, _, rfl⟩ := h'
  exact ⟨_, _, _, _, rfl⟩

theorem Same.untouched {c'' : wsp_client} (h : Same w w' given c c') (hc : Untouched c c'') :
    Same w w' given c'' c' := by
  obtain ⟨_, _, _, _, rfl⟩ := hc
  exact { h with config := h.config }

/-- Calls that are not observed. -/
abbrev Unobserved (acts : List Act) : Prop := Every (fun act => !act.observed) acts

theorem shown_unobserved {acts : List Act} (h : Unobserved acts) : shown acts = [] := by
  have hnone : acts.filter Act.observed = [] :=
    List.filter_eq_nil_iff.mpr fun act hact => by simpa using h act hact
  rw [shown, hnone]
  rfl

variable {d d' : ClientId} {s t s' t' : Sys} {cfg cfg' next next' : Config} {l l' : Label}

/-- A section that has nothing to do with what client `d` does on its connection. -/
structure Idle (d : ClientId) (s t : Sys) : Prop where
  client : Untouched (s.client d) (t.client d)
  trace : Makes (fun act => !act.observed) s t d

theorem Idle.of_eq (hclient : t.client d = s.client d) (htrace : t.trace d = s.trace d) : Idle d s t :=
  ⟨hclient ▸ .refl _, .of_eq htrace⟩

theorem Idle.refl (d : ClientId) (s : Sys) : Idle d s s := .of_eq rfl rfl

theorem Idle.trans {u : Sys} (h : Idle d s t) (h' : Idle d t u) : Idle d s u :=
  ⟨h.client.trans h'.client, h.trace.trans h'.trace⟩

theorem Idle.act (s : Sys) {c : ClientId} {r : wsp_client × List Act}
    (hclient : Untouched (s.client c) r.1) (hacts : Unobserved r.2) (d : ClientId) :
    Idle d s (s.act c r) :=
  ⟨Sys.act_related Untouched.refl hclient d, .act hacts d⟩

/-- Whatever another client does. -/
theorem Idle.other (s : Sys) {c : ClientId} (r : wsp_client × List Act) (hd : d ≠ c) :
    Idle d s (s.act c r) :=
  .of_eq (by simp [hd]) (by simp [hd])

/-- A callback pushes frames of its client. -/
theorem callback_pushes {c : ClientId} {v : WsiId} {r : Reason} {fs : List Frame}
    (h : s.callback c v a r = some (fs, t)) (hd : d ≠ c) : fs.filter (Frame.of d) = [] := by
  have hc : (c == d) = false := beq_eq_false_iff_ne.mpr hd.symm
  cases r with
  | CLIENT_RECEIVE chunk =>
    simp only [Sys.callback, Option.map_eq_some_iff, Prod.mk.injEq] at h
    obtain ⟨o, _, rfl, _⟩ := h
    rfl
  | CLIENT_WRITEABLE =>
    simp only [Sys.callback] at h
    split at h
    · cases h
      simp [Frame.of, hc]
    · split at h <;> cases h
      · rfl
      · simp [Frame.of, hc]
  | CLIENT_CONNECTION_ERROR msg | CLIENT_CLOSED =>
    cases h
    split <;> simp [Frame.of, hc]
  | _ =>
    cases h
    rfl

/-- The end of another connection. -/
theorem Same.wsi_destroy_other (h : Same w w' given c c') {v : WsiId} (hv : v ≠ w) :
    Untouched c (ws_pool.wsi_destroy c v) := by
  obtain ⟨stopped, waiting, hc, _⟩ := wsi_destroy_client c v
  have hkeep : (if c.wsi = some v then none else c.wsi) = c.wsi := by
    rw [if_neg]
    rcases h.wsi with ⟨hwsi, _⟩ | ⟨hwsi, _⟩
    · rw [hwsi, Option.some.injEq]
      exact hv.symm
    · simp [hwsi]
  rw [hc, hkeep]
  exact ⟨_, _, _, _, rfl⟩

/-- A section of the service thread that is not one of the client's. -/
theorem svc_idle {f : Frame} {fs : List Frame} (h : s.svc f a = some (fs, t)) (hof : f.of d = false)
    (hconnects : f.connects d = false) (hvisit : ∀ snap, f ≠ .wc_visit (d :: snap)) :
    Idle d s t ∧ fs.filter (Frame.of d) = [] := by
  have hother : ∀ {c : ClientId} (r : wsp_client × List Act), (c == d) = false → Idle d s (s.act c r) :=
    fun r hc => .other s r (beq_eq_false_iff_ne.mp hc).symm
  cases f with
  | do_connect c =>
    have hc : (c == d) = false := hconnects
    have hidle := hother (c := c) ({ s.client c with state := .STATE_CONNECTING },
      [.lws_client_connect_via_info (connect_info (s.client c))]) hc
    simp only [Sys.svc] at h
    split at h
    · cases h
      exact ⟨⟨hidle.1, hidle.2⟩, by simp [Frame.of, hc]⟩
    · next error destroyed _ =>
      cases h
      refine ⟨⟨hidle.1, hidle.2⟩, ?_⟩
      cases error <;> cases destroyed <;> simp [Frame.of, hc]
  | connection_error c msg =>
    cases h
    refine ⟨hother _ hconnects, ?_⟩
    split
    · rfl
    · exact List.filter_cons_of_neg (by simpa [Frame.of, Frame.connects] using hconnects)
  | wsi_destroy c v =>
    cases h
    exact ⟨hother _ hconnects, rfl⟩
  | connect_return c wsi =>
    cases h
    refine ⟨hother _ hconnects, ?_⟩
    split
    · rfl
    · exact List.filter_cons_of_neg (by simpa [Frame.of, Frame.connects] using hconnects)
  | schedule_reconnect c =>
    cases h
    refine ⟨.refl d s, ?_⟩
    split
    · rfl
    · exact List.filter_cons_of_neg (by simpa [Frame.of] using hof)
  | schedule_arm c =>
    cases h
    exact ⟨hother _ hof, rfl⟩
  | has_data_check c v =>
    cases h
    refine ⟨.refl d s, ?_⟩
    split
    · exact List.filter_cons_of_neg (by simpa [Frame.of] using hof)
    · rfl
  | lws_callback_on_writable c v =>
    cases h
    exact ⟨hother _ hof, rfl⟩
  | write c v n more =>
    have hidle := hother (c := c) (s.client c, writeable_write n v) hof
    simp only [Sys.svc] at h
    split at h <;> cases h
    · exact ⟨⟨hidle.1, hidle.2⟩, rfl⟩
    · refine ⟨hidle, ?_⟩
      split
      · exact List.filter_cons_of_neg (by simpa [Frame.of] using hof)
      · rfl
  | wc_connect pend =>
    cases pend with
    | nil =>
      cases h
      exact ⟨.refl d s, rfl⟩
    | cons c pend =>
      have hc : (c == d) = false := hconnects
      cases h
      exact ⟨hother _ hc, by simp [Frame.of, hc]⟩
  | wc_visit snap =>
    cases snap with
    | nil =>
      cases h
      exact ⟨.refl d s, rfl⟩
    | cons c snap =>
      have hc : (c == d) = false := beq_eq_false_iff_ne.mpr fun heq => hvisit snap (by rw [heq])
      simp only [Sys.svc] at h
      split at h
      · cases h
        exact ⟨.refl d s, rfl⟩
      · split at h
        · cases h
          exact ⟨hother _ hc, rfl⟩
        · split at h <;> cases h
          · exact ⟨.refl d s, by simp [Frame.of, hc]⟩
          · exact ⟨.refl d s, rfl⟩
  | event_wait_cancelled | wc_snapshot =>
    cases h
    exact ⟨.of_eq rfl rfl, rfl⟩

theorem destroy_client_idle {c : ClientId} (h : s.destroy_client c = some t) (d : ClientId) :
    Idle d s t := by
  obtain ⟨freed, rfl⟩ := Sys.destroy_client_eq h
  exact .act s (.refl _) ((Every.map (fun _ => rfl) freed).append (Every.single rfl)) d

theorem destroy_all_idle {cs : List ClientId} (h : s.destroy_all cs = some t) (d : ClientId) :
    Idle d s t :=
  destroy_all_rule (R := Idle d) (Idle.refl d) Idle.trans (fun hone => destroy_client_idle hone d) h

/-- API calls other than a send on the client. -/
theorem app_idle {f : AppFrame} {fs : List AppFrame} (h : s.app f a = some (fs, t))
    (hspares : f.spares d (s.client d).stopping = true)
    (hsend : ∀ data is_binary, f ≠ .enqueue_locked d data is_binary) : Idle d s t := by
  cases app_touches h d with
  | none hclient htrace hacts =>
    exact ⟨hclient ▸ .refl _, _, htrace, every_of_minor hacts (fun _ _ => rfl) (fun _ _ _ => rfl) fun _ => rfl⟩
  | send => exact absurd rfl (hsend _ _)
  | add hclient htrace | sul_cancel hclient htrace =>
    exact ⟨hclient ▸ ⟨_, _, _, _, rfl⟩, _, htrace, Every.single rfl⟩
  | stop hgoing =>
    -- A stop that begins is no call the client is spared.
    simp [AppFrame.spares, hgoing] at hspares
  | lock _ _ hclient _ htrace =>
    exact ⟨hclient ▸ ⟨_, _, _, _, rfl⟩, .of_eq htrace⟩
  | wait _ hclient htrace =>
    rcases htrace with htrace | htrace
    · exact ⟨hclient ▸ ⟨_, _, _, _, rfl⟩, .of_eq htrace⟩
    · exact ⟨hclient ▸ ⟨_, _, _, _, rfl⟩, _, htrace, Every.single rfl⟩
  | flush => simp [AppFrame.spares] at hspares
  | destroy hdestroy => exact destroy_client_idle hdestroy d
  | destroy_all hdestroy hclient htrace =>
    have hall := destroy_all_idle hdestroy d
    exact ⟨hclient ▸ hall.client, hall.trace.trans (.of_eq htrace)⟩

/-- Two sections show the same, and leave clients that agree and frames alike. -/
structure Matches (d d' : ClientId) (w w' : WsiId) (given : List Stimulus) (s t s' t' : Sys)
    (fs fs' : List Frame) : Prop where
  client : Same w w' given (t.client d) (t'.client d')
  frames : List.Forall₂ (Frame.Alike d d') (fs.filter (Frame.of d)) (fs'.filter (Frame.of d'))
  calls : ∃ acts acts', t.trace d = s.trace d ++ acts ∧ t'.trace d' = s'.trace d' ++ acts' ∧
    shown acts = shown acts'

/-- A section that makes no calls. -/
theorem Matches.mute {fs fs' : List Frame} (hclient : Same w w' given (t.client d) (t'.client d'))
    (hframes : List.Forall₂ (Frame.Alike d d') (fs.filter (Frame.of d)) (fs'.filter (Frame.of d')))
    (htrace : t.trace d = s.trace d) (htrace' : t'.trace d' = s'.trace d') :
    Matches d d' w w' given s t s' t' fs fs' :=
  ⟨hclient, hframes, [], [], by rw [htrace, List.append_nil], by rw [htrace', List.append_nil], rfl⟩

/-- The client changes and its calls are made, on both sides. -/
theorem Matches.act {r r' : wsp_client × List Act} {fs fs' : List Frame} (x x' : lws_context)
    (hclient : Same w w' given r.1 r'.1)
    (hframes : List.Forall₂ (Frame.Alike d d') (fs.filter (Frame.of d)) (fs'.filter (Frame.of d')))
    (hshown : shown r.2 = shown r'.2) :
    Matches d d' w w' given s ((s.setLws x).act d r) s' ((s'.setLws x').act d' r') fs fs' :=
  ⟨by simpa using hclient, hframes, r.2, r'.2, by simp, by simp, hshown⟩

theorem Frame.filter_single {f : Frame} (h : f.of d = true) : [f].filter (Frame.of d) = [f] :=
  List.filter_cons_of_pos h

/-- A single frame of each client. -/
theorem frames_single {f f' : Frame} (h : Frame.Alike d d' f f') :
    List.Forall₂ (Frame.Alike d d') ([f].filter (Frame.of d)) ([f'].filter (Frame.of d')) := by
  have hof : f.of d = true ∧ f'.of d' = true := by cases h <;> simp [Frame.of]
  rw [Frame.filter_single hof.1, Frame.filter_single hof.2]
  exact .cons h .nil

theorem receive_matches {fs fs' : List Frame} {app app' : Nat → List AppFrame}
    (h : Same w w' given (s.client d) (s'.client d'))
    (hfirst : BeginsFirst (given ++ [.callback (.CLIENT_RECEIVE chunk) a]))
    (hok : granted d ⟨s, [], app⟩ (.event (.callback d w (.CLIENT_RECEIVE chunk) a)))
    (hok' : granted d' ⟨s', [], app'⟩ (.event (.callback d' w' (.CLIENT_RECEIVE chunk) a)))
    (hc : s.callback d w a (.CLIENT_RECEIVE chunk) = some (fs, t))
    (hc' : s'.callback d' w' a (.CLIENT_RECEIVE chunk) = some (fs', t')) :
    Matches d d' w w' (given ++ [.callback (.CLIENT_RECEIVE chunk) a]) s t s' t' fs fs' := by
  simp only [Sys.callback, Option.map_eq_some_iff, Prod.mk.injEq] at hc hc'
  obtain ⟨o, ho, rfl, rfl⟩ := hc
  obtain ⟨o', ho', rfl, rfl⟩ := hc'
  have hret : o.ret = 0 := by simpa [granted, ho] using hok
  have hret' : o'.ret = 0 := by simpa [granted, ho'] using hok'
  obtain ⟨hsame, hshown⟩ := h.receive hfirst ho ho' hret hret'
  rw [if_neg (by simp [hret]), if_neg (by simp [hret'])]
  exact .act s.lws s'.lws hsame .nil hshown

theorem writeable_matches {fs fs' : List Frame} (h : Same w w' given (s.client d) (s'.client d'))
    (hc : s.callback d w a .CLIENT_WRITEABLE = some (fs, t))
    (hc' : s'.callback d' w' a .CLIENT_WRITEABLE = some (fs', t')) :
    Matches d d' w w' given s t s' t' fs fs' := by
  have hsends := h.send_ping
  cases hsend : (s.client d).send_ping with
  | true =>
    rw [hsend] at hsends
    simp only [Sys.callback, Sys.setLws_client, hsend, if_true] at hc
    simp only [Sys.callback, Sys.setLws_client, hsends, if_true] at hc'
    cases hc
    cases hc'
    exact .act _ _ { h with send_ping := rfl, ping_pending := rfl } (frames_single .has_data_check) rfl
  | false =>
    rw [hsend] at hsends
    rcases h.q.dequeue with ⟨hnone, hnone'⟩ | ⟨n, n', hn, hn', hmessage, hrest⟩
    · have hpop : (s.client d).q.dequeue = (none, (s.client d).q.dequeue.2) := Prod.ext hnone rfl
      have hpop' : (s'.client d').q.dequeue = (none, (s'.client d').q.dequeue.2) := Prod.ext hnone' rfl
      simp only [Sys.callback, Sys.setLws_client, hsend, Bool.false_eq_true, if_false] at hc
      simp only [Sys.callback, Sys.setLws_client, hsends, Bool.false_eq_true, if_false] at hc'
      rw [hpop] at hc
      rw [hpop'] at hc'
      cases hc
      cases hc'
      exact .mute h .nil rfl rfl
    · have hpop : (s.client d).q.dequeue = (some n, (s.client d).q.dequeue.2) := Prod.ext hn rfl
      have hpop' : (s'.client d').q.dequeue = (some n', (s'.client d').q.dequeue.2) := Prod.ext hn' rfl
      simp only [Sys.callback, Sys.setLws_client, hsend, Bool.false_eq_true, if_false] at hc
      simp only [Sys.callback, Sys.setLws_client, hsends, Bool.false_eq_true, if_false] at hc'
      rw [hpop] at hc
      rw [hpop'] at hc'
      cases hc
      cases hc'
      refine .act _ _ { h with send_ping := rfl, q := hrest } (frames_single ?_) rfl
      rw [hrest.has_data]
      exact .write hmessage

theorem timer_matches {fs fs' : List Frame} (h : Same w w' given (s.client d) (s'.client d'))
    (hc : s.callback d w a .TIMER = some (fs, t)) (hc' : s'.callback d' w' a .TIMER = some (fs', t')) :
    Matches d d' w w' given s t s' t' fs fs' := by
  obtain ⟨hsame, hshown, hret⟩ := h.timer a.ret
  simp only [Sys.callback, Option.some.injEq, Prod.mk.injEq] at hc hc'
  obtain ⟨rfl, rfl⟩ := hc
  obtain ⟨rfl, rfl⟩ := hc'
  have hmatch : ∀ x x', Matches d d' w w' given s
      ((s.setLws x).act d ((timer (s.client d) w a.ret).client, (timer (s.client d) w a.ret).acts)) s'
      ((s'.setLws x').act d' ((timer (s'.client d') w' a.ret).client, (timer (s'.client d') w' a.ret).acts))
      [] [] := fun x x' => .act x x' hsame .nil hshown
  have hfired := hmatch (s.lws.modify w fun i => { i with timer := none })
    (s'.lws.modify w' fun i => { i with timer := none })
  split <;> split <;> exact ⟨hfired.1, hfired.2, hfired.3⟩

/-- A callback of the open connection. -/
theorem callback_matches {r : Reason} {fs fs' : List Frame} {app app' : Nat → List AppFrame}
    (h : Same w w' given (s.client d) (s'.client d')) (hr : opened r = true)
    (hfirst : BeginsFirst (given ++ [.callback r a]))
    (hok : granted d ⟨s, [], app⟩ (.event (.callback d w r a)))
    (hok' : granted d' ⟨s', [], app'⟩ (.event (.callback d' w' r a)))
    (hc : s.callback d w a r = some (fs, t)) (hc' : s'.callback d' w' a r = some (fs', t')) :
    Matches d d' w w' (given ++ [.callback r a]) s t s' t' fs fs' := by
  cases r with
  | CLIENT_RECEIVE chunk => exact receive_matches h hfirst hok hok' hc hc'
  | CLIENT_WRITEABLE => exact writeable_matches (h.pass (by simp [chunks])) hc hc'
  | TIMER => exact timer_matches (h.pass (by simp [chunks])) hc hc'
  | CLIENT_RECEIVE_PONG =>
    cases hc
    cases hc'
    obtain ⟨hsame, hshown⟩ := (h.pass (x := .callback .CLIENT_RECEIVE_PONG a) (by simp [chunks])).receive_pong
    exact .act s.lws s'.lws hsame .nil hshown
  | CLIENT_CLOSED =>
    cases hc
    cases hc'
    obtain ⟨hsame, hacts⟩ := (h.pass (x := .callback .CLIENT_CLOSED a) (by simp [chunks])).closed
    refine .act _ _ hsame ?_ (by rw [hacts])
    rw [h.stopping]
    split
    · exact .nil
    · exact frames_single .schedule_reconnect
  | WSI_DESTROY =>
    cases hc
    cases hc'
    have hpass := h.pass (x := .callback .WSI_DESTROY a) (by simp [chunks])
    exact .act _ _ hpass.wsi_destroy .nil rfl
  | _ => cases hr

theorem svc_matches {f f' : Frame} {fs fs' : List Frame} (h : Same w w' given (s.client d) (s'.client d'))
    (hf : Frame.Alike d d' f f') (hc : s.svc f a = some (fs, t)) (hc' : s'.svc f' a = some (fs', t')) :
    Matches d d' w w' given s t s' t' fs fs' := by
  cases hf with
  | has_data_check =>
    cases hc
    cases hc'
    refine .mute h ?_ rfl rfl
    rw [h.q.has_data]
    split
    · exact frames_single .lws_callback_on_writable
    · exact .nil
  | lws_callback_on_writable =>
    cases hc
    cases hc'
    exact .act s.lws s'.lws h .nil rfl
  | @write v v' n n' more hmessage =>
    have hshown : shown (writeable_write n v) = shown (writeable_write n' v') := by
      exact shown_write hmessage v v' fun b => if b then .LWS_WRITE_BINARY else .LWS_WRITE_TEXT
    have hmatch : ∀ fs fs', List.Forall₂ (Frame.Alike d d') (fs.filter (Frame.of d))
        (fs'.filter (Frame.of d')) → Matches d d' w w' given s (s.act d (s.client d, writeable_write n v))
          s' (s'.act d' (s'.client d', writeable_write n' v')) fs fs' :=
      fun _ _ hframes => .act s.lws s'.lws h hframes hshown
    simp only [Sys.svc] at hc hc'
    split at hc
    · next hret =>
      rw [if_pos hret] at hc'
      cases hc
      cases hc'
      have hmute := hmatch [] [] .nil
      exact ⟨hmute.1, hmute.2, hmute.3⟩
    · next hret =>
      rw [if_neg hret] at hc'
      cases hc
      cases hc'
      refine hmatch _ _ ?_
      split
      · exact frames_single .lws_callback_on_writable
      · exact .nil
  | schedule_reconnect =>
    cases hc
    cases hc'
    refine .mute h ?_ rfl rfl
    rw [h.stopping]
    split
    · exact .nil
    · exact frames_single .schedule_arm
  | schedule_arm =>
    cases hc
    cases hc'
    obtain ⟨hsame, hacts⟩ := h.schedule_reconnect a.ret
    exact .act s.lws s'.lws hsame .nil (by rw [hacts])

theorem filter_visit (d : ClientId) (v : WsiId) (snap : List ClientId) :
    [Frame.has_data_check d v, .wc_visit snap].filter (Frame.of d) = [.has_data_check d v] := by
  simp [Frame.of]

/-- The visits of the loop of EVENT_WAIT_CANCELLED. -/
theorem visit_matches {snap snap' : List ClientId} {fs fs' : List Frame} (a a' : Answer)
    (h : Same w w' given (s.client d) (s'.client d'))
    (hc : s.svc (.wc_visit (d :: snap)) a = some (fs, t))
    (hc' : s'.svc (.wc_visit (d' :: snap')) a' = some (fs', t')) :
    Matches d d' w w' given s t s' t' fs fs' := by
  rcases h.wsi with ⟨hwsi, hwsi'⟩ | ⟨hwsi, hwsi'⟩
  · simp only [Sys.svc, hwsi] at hc
    simp only [Sys.svc, hwsi', h.stopping, h.state] at hc'
    split at hc
    · next hstopping =>
      rw [if_pos hstopping] at hc'
      cases hc
      cases hc'
      exact .act s.lws s'.lws h .nil rfl
    · next hstopping =>
      rw [if_neg hstopping] at hc'
      split at hc
      · next hstate =>
        rw [if_pos hstate] at hc'
        cases hc
        cases hc'
        refine .mute h ?_ rfl rfl
        rw [filter_visit, filter_visit]
        exact .cons .has_data_check .nil
      · next hstate =>
        rw [if_neg hstate] at hc'
        cases hc
        cases hc'
        exact .mute h .nil rfl rfl
  · simp only [Sys.svc, hwsi] at hc
    simp only [Sys.svc, hwsi'] at hc'
    cases hc
    cases hc'
    exact .mute h .nil rfl rfl

/-- Sections that match, of a callback or behind one. -/
theorem Matches.alike {fs fs' rest rest' : List Frame}
    (h : Matches d d' w w' given cfg.shared next.shared cfg'.shared next'.shared fs fs')
    (hstep : system.step cfg l = some next) (hstep' : system.step cfg' l' = some next')
    (hsvc : next.svc = fs ++ rest) (hsvc' : next'.svc = fs' ++ rest')
    (hrest : List.Forall₂ (Frame.Alike d d') (rest.filter (Frame.of d)) (rest'.filter (Frame.of d')))
    (hret : returned d cfg l = returned d' cfg' l') :
    Alike d d' w w' given next next' ∧ shows d cfg l = shows d' cfg' l' := by
  obtain ⟨hclient, hframes, acts, acts', htrace, htrace', hshown⟩ := h
  refine ⟨⟨hclient, ?_⟩, ?_⟩
  · rw [hsvc, hsvc', List.filter_append, List.filter_append]
    exact List.rel_append hframes hrest
  · rw [shows, shows, calls_eq hstep htrace, calls_eq hstep' htrace', hshown, hret]

theorem Frame.Alike.symm {f f' : Frame} (h : Frame.Alike d d' f f') : Frame.Alike d' d f' f := by
  cases h with
  | has_data_check => exact .has_data_check
  | lws_callback_on_writable => exact .lws_callback_on_writable
  | write hmessage => exact .write hmessage.symm
  | schedule_reconnect => exact .schedule_reconnect
  | schedule_arm => exact .schedule_arm

theorem Alike.symm (h : Alike d d' w w' given cfg cfg') : Alike d' d w' w given cfg' cfg :=
  ⟨h.client.symm, (h.stack.imp fun _ _ => Frame.Alike.symm).flip⟩

/-- A step that is idle for the client shows nothing of it. -/
theorem Alike.idle (h : Alike d d' w w' given cfg cfg') (hstep : system.step cfg l = some next)
    (hidle : Idle d cfg.shared next.shared)
    (hsvc : next.svc.filter (Frame.of d) = cfg.svc.filter (Frame.of d)) (hret : returned d cfg l = []) :
    Alike d d' w w' given next cfg' ∧ shows d cfg l = [] := by
  obtain ⟨acts, htrace, hacts⟩ := hidle.trace
  refine ⟨⟨h.client.untouched hidle.client, by rw [hsvc]; exact h.stack⟩, ?_⟩
  rw [shows, calls_eq hstep htrace, shown_unobserved hacts, hret]
  rfl

theorem event_silent {e : Event} (hsession : session d w cfg (.event e) = true)
    (hstimulus : stimulus d w cfg (.event e) = none) (hstep : system.step cfg (.event e) = some next)
    (h : Alike d d' w w' given cfg cfg') :
    Alike d d' w w' given next cfg' ∧ shows d cfg (.event e) = [] := by
  cases System.step_moves hstep with
  | @event _ s t app fs hdeliver =>
    cases e with
    | callback c v r a =>
      simp only [system, Sys.deliver, Option.ite_none_right_eq_some] at hdeliver
      obtain ⟨_, hdeliver⟩ := hdeliver
      by_cases hc : c = d
      · subst hc
        have hv : v ≠ w := by
          rintro rfl
          simp [stimulus] at hstimulus
        cases r with
        | WSI_DESTROY =>
          cases hdeliver
          have hidle := Idle.act s (r := (wsi_destroy (s.client c) v, []))
            (h.client.wsi_destroy_other hv) Every.nil c
          exact h.idle hstep ⟨hidle.1, hidle.2⟩ rfl rfl
        | _ => simp [session, hv] at hsession
      · obtain ⟨hclient, htrace⟩ := callback_other hdeliver (Ne.symm hc)
        refine h.idle hstep (.of_eq hclient htrace) (callback_pushes hdeliver (Ne.symm hc)) ?_
        cases r with
        | CLIENT_RECEIVE chunk | TIMER => exact if_neg hc
        | _ => rfl
    | sul_reconnect_cb c =>
      have hc : d ≠ c := (bne_iff_ne.mp hsession).symm
      simp only [system, Sys.deliver, Option.ite_none_right_eq_some, Option.some.injEq,
        Prod.mk.injEq] at hdeliver
      obtain ⟨_, rfl, rfl⟩ := hdeliver
      refine h.idle hstep (.other s _ hc) ?_ rfl
      dsimp only
      split
      · rfl
      · simp [Frame.of, Ne.symm hc]
    | event_wait_cancelled wsi =>
      simp only [system, Sys.deliver, Option.ite_none_right_eq_some, Option.some.injEq,
        Prod.mk.injEq] at hdeliver
      obtain ⟨_, rfl, rfl⟩ := hdeliver
      refine h.idle hstep (.of_eq rfl rfl) ?_ rfl
      cases wsi <;> rfl
    | context_destroyed =>
      simp only [system, Sys.deliver, Option.ite_none_right_eq_some, Option.some.injEq,
        Prod.mk.injEq] at hdeliver
      obtain ⟨_, rfl, rfl⟩ := hdeliver
      exact h.idle hstep ⟨⟨none, _, _, _, rfl⟩, [], (List.append_nil _).symm, Every.nil⟩ rfl rfl
    | service_thread | exit =>
      simp only [system, Sys.deliver, Option.ite_none_right_eq_some, Option.some.injEq,
        Prod.mk.injEq] at hdeliver
      obtain ⟨_, rfl, rfl⟩ := hdeliver
      exact h.idle hstep (.of_eq rfl rfl) rfl rfl

theorem svc_stimulus_none {f : Frame} {rest : List Frame} {app : Nat → List AppFrame}
    (h : stimulus d w ⟨s, f :: rest, app⟩ (.svc a) = none) :
    f.of d = false ∧ ∀ snap, f ≠ .wc_visit (d :: snap) := by
  simp only [stimulus, List.head?_cons] at h
  split at h
  · next c snap heq =>
    obtain rfl := Option.some.inj heq
    refine ⟨rfl, fun snap' heq' => ?_⟩
    cases heq'
    simp at h
  · next g hvisit heq =>
    obtain rfl := Option.some.inj heq
    exact ⟨by simpa using h, fun snap hf => hvisit d snap (by rw [hf])⟩
  · next heq => cases heq

/-- A step of the session that is nothing for the connection. -/
theorem step_silent (hsession : session d w cfg l = true) (hstimulus : stimulus d w cfg l = none)
    (hstep : system.step cfg l = some next) (h : Alike d d' w w' given cfg cfg') :
    Alike d d' w w' given next cfg' ∧ shows d cfg l = [] := by
  cases l with
  | event e => exact event_silent hsession hstimulus hstep h
  | svc a =>
    cases System.step_moves hstep with
    | @svc f _ s t app rest fs hsvc =>
      obtain ⟨hof, hvisit⟩ := svc_stimulus_none hstimulus
      have hconnects : f.connects d = false := by simpa [session] using hsession
      obtain ⟨hidle, hfs⟩ := svc_idle hsvc hof hconnects hvisit
      refine h.idle hstep hidle ?_ ?_
      · rw [List.filter_append, hfs, List.nil_append, List.filter_cons_of_neg (by simp [hof])]
      · simp [returned, hof]
  | call t f =>
    cases System.step_moves hstep with
    | call _ _ => exact h.idle hstep (.refl d _) rfl rfl
  | app t a =>
    cases System.step_moves hstep with
    | @app _ f _ s t svc app rest fs htop happ =>
      simp only [session, htop, List.head?_cons, Option.all_some] at hsession
      refine h.idle hstep (app_idle happ hsession ?_) rfl rfl
      rintro data is_binary rfl
      simp [stimulus, htop] at hstimulus

/-- The step that a stimulus is given in. -/
inductive Given (d : ClientId) (w : WsiId) (cfg : Config) : Label → Stimulus → Prop where
  | callback (r : Reason) (a : Answer) : Given d w cfg (.event (.callback d w r a)) (.callback r a)
  | visit (a : Answer) {snap : List ClientId} :
      cfg.svc.head? = some (.wc_visit (d :: snap)) → Given d w cfg (.svc a) .visit
  | section {a : Answer} {f : Frame} :
      cfg.svc.head? = some f → f.of d = true → Given d w cfg (.svc a) (.section a)
  | send {t : Nat} {a : Answer} {data : Data} {is_binary ok : Bool} :
      (cfg.app t).head? = some (.enqueue_locked d data is_binary) → a.ok = ok →
      Given d w cfg (.app t a) (.send data is_binary ok)

theorem given_of_stimulus (h : stimulus d w cfg l = some x) : Given d w cfg l x := by
  cases l with
  | event e =>
    cases e with
    | callback c v r a =>
      simp only [stimulus, Option.ite_none_right_eq_some, Option.some.injEq] at h
      obtain ⟨⟨rfl, rfl⟩, rfl⟩ := h
      exact .callback r a
    | _ => cases h
  | svc a =>
    simp only [stimulus] at h
    split at h
    · next c snap htop =>
      simp only [Option.ite_none_right_eq_some, Option.some.injEq] at h
      obtain ⟨rfl, rfl⟩ := h
      exact .visit _ htop
    · next f _ htop =>
      simp only [Option.ite_none_right_eq_some, Option.some.injEq] at h
      obtain ⟨hof, rfl⟩ := h
      exact .section htop hof
    · cases h
  | call t f => cases h
  | app t a =>
    simp only [stimulus] at h
    split at h
    · next htop =>
      simp only [Option.ite_none_right_eq_some, Option.some.injEq] at h
      obtain ⟨rfl, rfl⟩ := h
      exact .send htop rfl
    · cases h

/-- The session, with its appends granted. -/
def InSession (d : ClientId) (w : WsiId) (cfg : Config) (l : Label) : Prop :=
  session d w cfg l = true ∧ granted d cfg l

/-- What callbacks of clients that agree return. -/
theorem returned_callback {r : Reason} {app app' : Nat → List AppFrame}
    (h : Same w w' given (s.client d) (s'.client d'))
    (hok : granted d ⟨s, [], app⟩ (.event (.callback d w r a)))
    (hok' : granted d' ⟨s', [], app'⟩ (.event (.callback d' w' r a))) :
    returned d ⟨s, [], app⟩ (.event (.callback d w r a)) =
      returned d' ⟨s', [], app'⟩ (.event (.callback d' w' r a)) := by
  cases r with
  | TIMER => simp only [returned, if_true, (h.timer a.ret).2.2]
  | CLIENT_RECEIVE chunk =>
    simp only [returned, if_true, returned_zero (hok rfl), returned_zero (hok' rfl)]
  | _ => rfl

/-- The same stimulus keeps the clients alike, and shows the same of either. -/
theorem step_alike (h : Alike d d' w w' given cfg cfg') (hfirst : BeginsFirst (given ++ [x]))
    (hin : InSession d w cfg l) (hin' : InSession d' w' cfg' l') (hstep : system.step cfg l = some next)
    (hstep' : system.step cfg' l' = some next') (hx : stimulus d w cfg l = some x)
    (hx' : stimulus d' w' cfg' l' = some x) :
    Alike d d' w w' (given ++ [x]) next next' ∧ shows d cfg l = shows d' cfg' l' := by
  obtain ⟨hclient, hstack⟩ := h
  have hmove := System.step_moves hstep
  have hmove' := System.step_moves hstep'
  cases given_of_stimulus hx with
  | callback r a =>
    cases given_of_stimulus hx' with
    | callback _ _ =>
      have hopened : opened r = true := by simpa [session] using hin.1
      cases hmove with
      | event hdeliver =>
        cases hmove' with
        | event hdeliver' =>
          simp only [system, Sys.deliver, Option.ite_none_right_eq_some] at hdeliver hdeliver'
          exact (callback_matches hclient hopened hfirst hin.2 hin'.2 hdeliver.2
            hdeliver'.2).alike hstep hstep' (List.append_nil _).symm (List.append_nil _).symm .nil
              (returned_callback hclient hin.2 hin'.2)
  | visit a htop =>
    cases given_of_stimulus hx' with
    | visit a' htop' =>
      cases hmove with
      | @svc f _ _ _ _ rest fs hsvc =>
        cases hmove' with
        | @svc f' _ _ _ _ rest' fs' hsvc' =>
          obtain rfl := Option.some.inj htop
          obtain rfl := Option.some.inj htop'
          rw [List.filter_cons_of_neg (by simp [Frame.of]), List.filter_cons_of_neg (by simp [Frame.of])]
            at hstack
          exact (visit_matches a a' (hclient.pass (by simp [chunks])) hsvc hsvc').alike hstep hstep' rfl rfl
            hstack (by simp [returned, Frame.of])
  | «section» htop hof =>
    cases given_of_stimulus hx' with
    | «section» htop' hof' =>
      cases hmove with
      | @svc f _ _ _ _ rest fs hsvc =>
        cases hmove' with
        | @svc f' _ _ _ _ rest' fs' hsvc' =>
          obtain rfl := Option.some.inj htop
          obtain rfl := Option.some.inj htop'
          rw [List.filter_cons_of_pos hof, List.filter_cons_of_pos hof'] at hstack
          cases hstack with
          | cons hframe hrest =>
            refine (svc_matches (hclient.pass (by simp [chunks])) hframe hsvc hsvc').alike hstep hstep'
              rfl rfl hrest ?_
            cases hframe <;> simp [returned, Frame.of]
  | @send t a data is_binary ok htop hok =>
    cases given_of_stimulus hx' with
    | @send t' a' _ _ _ htop' hok' =>
      cases hmove with
      | @app _ f _ s _ _ _ _ _ happs happ =>
        cases hmove' with
        | @app _ f' _ s' _ _ _ _ _ happs' happ' =>
          simp only [happs, List.head?_cons, Option.some.injEq] at htop
          simp only [happs', List.head?_cons, Option.some.injEq] at htop'
          subst htop htop' hok
          have hpass := hclient.pass (x := .send data is_binary a.ok) (by simp [chunks])
          have hsame := hpass.send data is_binary a.ok
          have hnothing : ∀ c ok, Unobserved (enqueue_locked c data is_binary ok).2.2 :=
            fun c ok => enqueue_locked_acts (fun _ => rfl) c data is_binary ok
          simp only [system, Sys.app, Option.some.injEq, Prod.mk.injEq] at happ happ'
          obtain ⟨_, rfl⟩ := happ
          obtain ⟨_, rfl⟩ := happ'
          refine Matches.alike ?_ hstep hstep' (List.nil_append _).symm
            (List.nil_append _).symm hstack rfl
          rw [hok']
          refine .act s.lws s'.lws hsame .nil ?_
          rw [shown_append, shown_append, shown_unobserved (hnothing _ _),
            shown_unobserved (hnothing _ _)]
          rfl

/-- ESTABLISHED of connection `w`, and a run of its session. -/
structure Session (d : ClientId) (w : WsiId) (cfg mid : Config) (ls : List Label) (last : Config) :
    Prop where
  established : ∃ a, system.step cfg (.event (.callback d w .CLIENT_ESTABLISHED a)) = some mid
  follows : system.Follows (InSession d w) mid ls last

/-- Everything a session shows of the client. -/
def showing (d : ClientId) (w : WsiId) (cfg mid : Config) (ls : List Label) : List Shown :=
  shows d cfg (.event (.callback d w .CLIENT_ESTABLISHED {})) ++ system.observe (shows d) mid ls

/-- The sessions of both clients show the same when they are given the same, and
    the same sections for them are still to run. -/
def SameSessions (d d' : ClientId) (w w' : WsiId) (cfg cfg' : Config) : Prop :=
  ∀ ls ls' mid mid' last last', Session d w cfg mid ls last → Session d' w' cfg' mid' ls' last' →
    system.inputs (stimulus d w) mid ls = system.inputs (stimulus d' w') mid' ls' →
    BeginsFirst (system.inputs (stimulus d w) mid ls) →
    showing d w cfg mid ls = showing d' w' cfg' mid' ls' ∧
      List.Forall₂ (Frame.Alike d d') (last.svc.filter (Frame.of d)) (last'.svc.filter (Frame.of d'))

/-- A configuration of a run in which no two adds of client `d` overlap. -/
def ReachedOnce (d : ClientId) (cfg : Config) : Prop :=
  ∃ client : ClientId → wsp_client, (∀ c, (client c).Fresh) ∧
    system.Reaches (AddedOnce d) (initial client) cfg

/-- ESTABLISHED is of the connection that the client has stored. -/
theorem ReachedOnce.stored (h : ReachedOnce d cfg)
    (hstep : system.step cfg (.event (.callback d w .CLIENT_ESTABLISHED a)) = some next) :
    (cfg.shared.client d).wsi = some w := by
  obtain ⟨client, hfresh, hreach⟩ := h
  have hlinked := Reaches.linked (fun _ _ hok => hok) hfresh hreach
  cases System.step_moves hstep with
  | event hdeliver =>
    simp only [system, Sys.deliver, Option.ite_none_right_eq_some, Bool.and_eq_true] at hdeliver
    obtain ⟨⟨huser, henabled⟩, _⟩ := hdeliver
    have hphase := lws_context.phase_of_enables_ne henabled (by simp)
    have hlink := lws_context.link_of_phase huser hphase
    have howns := lws_context.owns_eq_true.mpr ⟨_, hlink, by simp [Reason.phase]⟩
    exact (hlinked.joined.stored w howns).resolve_right (by simp)

/-- Clients of one configuration, with the same messages queued, show the same
    from ESTABLISHED on, whatever was before. -/
theorem same_sessions (h : ReachedOnce d cfg) (h' : ReachedOnce d' cfg')
    (hconfig : (cfg'.shared.client d').towsp_config = (cfg.shared.client d).towsp_config)
    (hstopping : (cfg'.shared.client d').stopping = (cfg.shared.client d).stopping)
    (hq : (cfg.shared.client d).q.Alike (cfg'.shared.client d').q) :
    SameSessions d d' w w' cfg cfg' := by
  rintro ls ls' mid mid' last last' ⟨⟨a, hmid⟩, hrun⟩ ⟨⟨a', hmid'⟩, hrun'⟩ hsame hfirst
  obtain ⟨hclient, hshown⟩ := Same.established hconfig (h.stored hmid) (h'.stored hmid') hstopping hq
  have hopen : Alike d d' w w' [] mid mid' ∧
      shows d cfg (.event (.callback d w .CLIENT_ESTABLISHED {})) =
        shows d' cfg' (.event (.callback d' w' .CLIENT_ESTABLISHED {})) := by
    cases System.step_moves hmid with
    | event hdeliver =>
      cases System.step_moves hmid' with
      | event hdeliver' =>
        simp only [system, Sys.deliver, Option.ite_none_right_eq_some] at hdeliver hdeliver'
        obtain ⟨_, hdeliver⟩ := hdeliver
        obtain ⟨_, hdeliver'⟩ := hdeliver'
        cases hdeliver
        cases hdeliver'
        exact Matches.alike (.act _ _ hclient .nil hshown) hmid hmid' (List.append_nil _).symm
          (List.append_nil _).symm .nil rfl
  obtain ⟨halike, hshows⟩ := hopen
  have hruns := hrun.two_runs_given (S := Alike d d' w w') (G := BeginsFirst)
    (fun _ _ _ _ _ halike hin hstep hnone => step_silent hin.1 hnone hstep halike)
    (fun _ _ _ _ _ halike hin hstep hnone =>
      (step_silent hin.1 hnone hstep halike.symm).imp Alike.symm id)
    (fun _ _ => BeginsFirst.init)
    (fun _ _ _ _ _ _ _ _ halike hfirst hin hin' hstep hstep' hx hx' =>
      step_alike halike hfirst hin hin' hstep hstep' hx hx') hrun' halike hsame hfirst
  exact ⟨by rw [showing, showing, hshows, hruns.2], hruns.1.stack⟩

end lws_client.ws_pool
