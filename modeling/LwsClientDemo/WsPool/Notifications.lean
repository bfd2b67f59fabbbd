import LwsClientDemo.Listener
import LwsClientDemo.WsPool.Breaker
import LwsClientDemo.WsPool.Calls
import LwsClientDemo.WsPool.Decisions
import LwsClientDemo.WsPool.Heartbeat

open interleaving

namespace lws_client.ws_pool

/-- The two hooks that report a connection are set. -/
def wsp_client.Reports (c : wsp_client) : Prop :=
  hooked c.hooks (·.on_connected) = true ∧ hooked c.hooks (·.on_disconnected) = true

section calls

variable {c : wsp_client} {w : WsiId} {l : Listener}

theorem established_listen (hreports : c.Reports) (hup : l.up = false) :
    l.listen .hooks (established c w).2 = some { up := true, failures := 0 } := by
  unfold established
  rw [← List.singleton_append]
  exact Listener.listen_trans (Listener.listen_unheard (Every.single rfl))
    (Listener.listen_connected false hreports.1 hup)

theorem connection_error_listen (hreports : c.Reports) (hgoing : c.stopping = false)
    (hup : l.up = false) (msg : Option String) : l.listen .hooks (connection_error c msg).2 =
      some { up := false, failures := l.failures + 1 } := by
  simp only [connection_error, hgoing, Bool.false_eq_true, if_false]
  exact Listener.listen_trans
    (Listener.listen_callIf fun _ => Listener.hear_attempt hup trivial)
    (Listener.listen_disconnected false hreports.2)

theorem closed_listen (hreports : c.Reports) (hgoing : c.stopping = false) :
    l.listen .hooks (closed c).2 = some { up := false, failures := l.failures + 1 } := by
  simp only [closed, hgoing, Bool.false_eq_true, if_false]
  exact Listener.listen_disconnected false hreports.2

theorem timer_listen (hup : l.up = true) (tick : Int) :
    l.listen .hooks (timer c w tick).acts = some l := by
  have hasked : l.listen .hooks (callIf (hooked c.hooks (·.on_heartbeat_tick)) .on_heartbeat_tick) =
      some l := Listener.listen_callIf fun _ => Listener.hear_tick hup
  unfold timer
  dsimp only
  split
  · refine Listener.listen_trans hasked (Listener.listen_unheard ?_)
    split
    · exact Every.onWsi fun _ => rfl
    · exact Every.nil
  · split
    · exact hasked
    · exact Listener.listen_trans hasked (Listener.listen_unheard (Every.pair rfl rfl))

/-- The decision is asked for with the failures the listener has counted. -/
theorem schedule_reconnect_listen (hup : l.up = false) (hcount : l.failures = c.reconnect_fail_count)
    (ret : Int) : l.listen .hooks (schedule_reconnect c ret).2 = some l := by
  have hasked : ∀ delay, l.listen .hooks [.on_reconnect_decision c.reconnect_fail_count delay] =
      some l := fun delay => Listener.listen_single (Listener.hear_decision hup hcount delay)
  have harmed : ∀ usecs, l.listen .hooks [.lws_sul_schedule usecs] = some l := fun _ =>
    Listener.listen_unheard (Every.single rfl)
  unfold schedule_reconnect
  dsimp only
  split
  · split
    · exact hasked _
    · rw [← List.singleton_append]
      exact Listener.listen_trans (hasked _) (harmed _)
  · exact harmed _

/-- A connection that ends while its client is stopping is not reported. -/
theorem connection_error_stopping (hstop : c.stopping = true) (msg : Option String) :
    connection_error c msg = (signal_stopped { c with wsi := none }, []) := by
  simp [connection_error, hstop]

theorem closed_stopping (hstop : c.stopping = true) :
    closed c = (signal_stopped { c with wsi := none, state := .STATE_IDLE }, []) := by
  simp [closed, hstop]

theorem connection_error_going (hgoing : c.stopping = false) (msg : Option String) :
    (connection_error c msg).1 =
      { c with wsi := none, reconnect_fail_count := c.reconnect_fail_count + 1 } := by
  simp [connection_error, hgoing]

theorem closed_going (hgoing : c.stopping = false) : (closed c).1 = { c with
    wsi := none, state := .STATE_IDLE, reconnect_fail_count := c.reconnect_fail_count + 1 } := by
  simp [closed, hgoing]

end calls

variable {d : ClientId} {l m : Listener} {s s' : Sys} {fs gs rest : List Frame}

/-- The calls that a section makes for client `d` lead a listener on. -/
def Hears (d : ClientId) (l m : Listener) (s s' : Sys) : Prop :=
  ∃ acts, s'.trace d = s.trace d ++ acts ∧ l.listen .hooks acts = some m

theorem Hears.of_eq (h : s'.trace d = s.trace d) : Hears d l l s s' :=
  ⟨[], by rw [h, List.append_nil], rfl⟩

theorem Hears.unheard (h : Makes Act.unheard s s' d) : Hears d l l s s' := by
  obtain ⟨acts, htrace, hacts⟩ := h
  exact ⟨acts, htrace, Listener.listen_unheard hacts⟩

/-- The open connection `w` of client `d`. -/
def Sys.Opened (s : Sys) (d : ClientId) (w : WsiId) : Prop :=
  s.lws.link w = some (d, .established)

/-- What a listener knows of client `d`: it is connected, or it was when the stop
    or the end of the pool came and nothing will connect it again. -/
structure Told (d : ClientId) (fs : List Frame) (s : Sys) (l : Listener) : Prop where
  failures : l.failures = (s.client d).reconnect_fail_count
  up : ∀ w, s.Opened d w → l.up = true
  down : l.up = true → (∃ w, s.Opened d w) ∨
    (seats d fs s = 0 ∧ (s.client d).pool = true ∧
      ((s.client d).stopping = true ∨ ¬ s.Serving))

/-- What no step takes back: a place that is given up, the stop, the end of the
    pool. -/
structure Ages (d : ClientId) (fs : List Frame) (s : Sys) (gs : List Frame) (s' : Sys) : Prop where
  seats : (s.client d).pool = true → seats d gs s' ≤ seats d fs s
  pool : (s.client d).pool = true → (s'.client d).pool = true
  stopping : (s.client d).stopping = true → (s'.client d).stopping = true
  serving : s'.Serving → s.Serving

theorem Told.gone (hage : Ages d fs s gs s')
    (h : seats d fs s = 0 ∧ (s.client d).pool = true ∧
      ((s.client d).stopping = true ∨ ¬ s.Serving)) :
    seats d gs s' = 0 ∧ (s'.client d).pool = true ∧
      ((s'.client d).stopping = true ∨ ¬ s'.Serving) := by
  obtain ⟨hseats, hpool, hover⟩ := h
  have hle := hage.seats hpool
  exact ⟨by omega, hage.pool hpool,
    hover.imp hage.stopping fun hover hserving => hover (hage.serving hserving)⟩

/-- A step that leaves the open connections alone. -/
theorem Told.keep (h : Told d fs s l) (hage : Ages d fs s gs s')
    (hcount : (s'.client d).reconnect_fail_count = (s.client d).reconnect_fail_count)
    (hopen : ∀ w, s'.Opened d w ↔ s.Opened d w) : Told d gs s' l := by
  refine ⟨hcount ▸ h.failures, fun w hw => h.up w ((hopen w).mp hw), fun hup => ?_⟩
  rcases h.down hup with ⟨w, hw⟩ | hgone
  · exact .inl ⟨w, (hopen w).mpr hw⟩
  · exact .inr (Told.gone hage hgone)

/-- A client with another place than an open connection has not been reported as
    connected. -/
theorem Told.elsewhere (h : Told d fs s l) (hseats : 0 < seats d fs s)
    (hnone : ∀ w, ¬ s.Opened d w) : l.up = false := by
  by_contra hup
  rcases h.down (by simpa using hup) with ⟨w, hw⟩ | ⟨hzero, _, _⟩
  · exact hnone w hw
  · omega

theorem Sys.Opened.owns {w : WsiId} (h : s.Opened d w) : s.lws.owns d w = true :=
  lws_context.owns_eq_true.mpr ⟨_, h, by simp⟩

theorem Sys.opened_iff (h : s.lws.SameLinks s'.lws) (w : WsiId) :
    s'.Opened d w ↔ s.Opened d w := by
  unfold Sys.Opened
  rw [h.link]

/-- Callbacks that change no connection. -/
theorem callback_sameLinks {c : ClientId} {w : WsiId} {a : Answer} {r : Reason}
    (h : s.callback c w a r = some (fs, s')) (hr : quiet r = true) : s.lws.SameLinks s'.lws := by
  have hmodify : ∀ (f : Wsi → Wsi) (acts : List Act), (∀ i, (f i).user = i.user ∧ (f i).phase = i.phase) →
      s.lws.SameLinks ((s.lws.modify w f).performs acts) := fun f acts hf =>
    (s.lws.sameLinks_modify w hf).trans (lws_context.sameLinks_performs _ acts)
  cases r with
  | CLIENT_RECEIVE chunk =>
    simp only [Sys.callback, Option.map_eq_some_iff, Prod.mk.injEq] at h
    obtain ⟨o, _, _, rfl⟩ := h
    have hacts := s.lws.sameLinks_performs o.acts
    split
    · exact hacts.trans (lws_context.sameLinks_fail _ w)
    · exact hacts
  | CLIENT_WRITEABLE =>
    simp only [Sys.callback] at h
    split at h
    · cases h
      exact hmodify _ _ fun _ => ⟨rfl, rfl⟩
    · split at h <;> cases h <;> exact hmodify _ [] fun _ => ⟨rfl, rfl⟩
  | TIMER =>
    simp only [Sys.callback, Option.some.injEq, Prod.mk.injEq] at h
    obtain ⟨_, rfl⟩ := h
    have hfired : s.lws.SameLinks (s.lws.modify w fun i => { i with timer := none }) :=
      s.lws.sameLinks_modify w fun _ => ⟨rfl, rfl⟩
    split
    · exact (hfired.trans (lws_context.sameLinks_performs _ _)).trans (lws_context.sameLinks_fail _ w)
    · exact hfired.trans (lws_context.sameLinks_performs _ _)
  | CLIENT_RECEIVE_PONG | CLIENT_APPEND_HANDSHAKE_HEADER =>
    cases h
    exact s.lws.sameLinks_performs _
  | CLIENT_ESTABLISHED | CLIENT_CONNECTION_ERROR _ | CLIENT_CLOSED | WSI_DESTROY => cases hr

theorem Told.reported {w : WsiId} (hup : l.up = true) (hopen : s'.Opened d w)
    (hcount : l.failures = (s'.client d).reconnect_fail_count) : Told d gs s' l :=
  ⟨hcount, fun _ _ => hup, fun _ => .inl ⟨w, hopen⟩⟩

theorem Told.lost (hup : l.up = false) (hnone : ∀ w, ¬ s'.Opened d w)
    (hcount : l.failures = (s'.client d).reconnect_fail_count) : Told d gs s' l :=
  ⟨hcount, fun w hw => absurd hw (hnone w), fun hother => absurd (hup.symm.trans hother) (by simp)⟩

/-- A callback of the open connection. -/
theorem callback_told_open {w : WsiId} {a : Answer} {r : Reason}
    (h : s.callback d w a r = some (fs, s')) (hage : Ages d [] s fs s') (hopen : s.Opened d w)
    (hr : match r with
      | .CLIENT_RECEIVE _ | .CLIENT_WRITEABLE | .TIMER | .CLIENT_RECEIVE_PONG => True
      | _ => False) (htold : Told d [] s l) : Hears d l l s s' ∧ Told d fs s' l := by
  have hup := htold.up w hopen
  have hquiet : quiet r = true := by
    cases r <;> first | rfl | exact absurd hr id
  have hlinks := callback_sameLinks h hquiet
  suffices hcalls : Hears d l l s s' ∧
      (s'.client d).reconnect_fail_count = (s.client d).reconnect_fail_count from
    ⟨hcalls.1, htold.keep hage hcalls.2 (Sys.opened_iff hlinks)⟩
  cases r with
  | CLIENT_RECEIVE chunk =>
    simp only [Sys.callback, Option.map_eq_some_iff, Prod.mk.injEq] at h
    obtain ⟨o, ho, _, rfl⟩ := h
    obtain ⟨frag, hc⟩ := receive_client ho
    have hacts : Every Act.delivers o.acts := receive_acts (fun _ _ => rfl) (fun _ _ => rfl) ho
    refine ⟨⟨o.acts, by split <;> simp, Listener.listen_delivers hup hacts⟩, ?_⟩
    split <;> simp [hc]
  | CLIENT_WRITEABLE =>
    simp only [Sys.callback] at h
    split at h
    · cases h
      exact ⟨.unheard ⟨_, by simp; rfl, Every.single rfl⟩, by simp [writeable_ping]⟩
    · split at h <;> cases h
      · exact ⟨.of_eq rfl, rfl⟩
      · exact ⟨.of_eq (by simp), by simp⟩
  | TIMER =>
    obtain ⟨send_ping, hc⟩ := timer_client (s.client d) w a.ret
    simp only [Sys.callback, Option.some.injEq, Prod.mk.injEq] at h
    obtain ⟨_, rfl⟩ := h
    refine ⟨⟨(timer (s.client d) w a.ret).acts, by split <;> simp, timer_listen hup a.ret⟩, ?_⟩
    split <;> simp [hc]
  | CLIENT_RECEIVE_PONG =>
    cases h
    exact ⟨.unheard ⟨_, by simp; rfl, Every.single rfl⟩, by simp [receive_pong]⟩
  | _ => exact absurd hr id

/-- A connection that is closed is no longer open, the others are as before. -/
theorem Sys.opened_close {w v : WsiId} {r : wsp_client × List Act} {c : ClientId} :
    ((s.setLws (s.lws.setPhase w .closed)).act c r).Opened d v ↔ v ≠ w ∧ s.Opened d v := by
  unfold Sys.Opened
  rw [Sys.act_lws, (lws_context.sameLinks_performs _ _).link, Sys.setLws_lws,
    lws_context.link_setPhase]
  by_cases hv : v = w
  · simp [hv]
  · simp [hv]

theorem Sys.opened_remove {w v : WsiId} {r : wsp_client × List Act} {c : ClientId} :
    ((s.setLws (s.lws.remove w)).act c r).Opened d v ↔ v ≠ w ∧ s.Opened d v := by
  unfold Sys.Opened
  rw [Sys.act_lws, (lws_context.sameLinks_performs _ _).link, Sys.setLws_lws,
    lws_context.link_remove]
  by_cases hv : v = w
  · simp [hv]
  · simp [hv]

/-- The one place of a client with a connection is given up at its end. -/
theorem seats_ended {w : WsiId} (hb : s.lws.Bounded) (hseats : seats d [] s ≤ 1)
    (howns : s.lws.owns d w = true) (hpending : s'.pool.pending = s.pool.pending)
    (hsul : (s'.client d).sul = (s.client d).sul) (hlives : s'.lws.lives d = 0) :
    seats d [] s' = 0 := by
  have hpos := hb.lives_pos howns
  simp only [seats, Sys.retrying, List.map_nil, List.sum_nil, List.any_nil, Bool.or_false] at hseats ⊢
  rw [hpending, hsul, hlives]
  omega

theorem callback_told {w : WsiId} {a : Answer} {r : Reason} (hreports : (s.client d).Reports)
    (h : s.callback d w a r = some (fs, s')) (huser : (s.lws.wsi w).any (fun i => i.user == d) = true)
    (henabled : s.lws.enables s.thread w r = true) (hjoined : Joined d [] s)
    (hseats : seats d [] s ≤ (s.client d).pool.toNat) (hage : Ages d [] s fs s')
    (htold : Told d [] s l) : ∃ m, Hears d l m s s' ∧ Told d fs s' m := by
  have hb := hjoined.bounded
  have hone : seats d [] s ≤ 1 := Nat.le_trans hseats (Bool.toNat_le _)
  have hlives : s.lws.lives d ≤ 1 := Nat.le_trans lives_le_seats hone
  have hcount := htold.failures
  have hlink : r ≠ .WSI_DESTROY → s.lws.link w = some (d, r.phase) := fun hr =>
    lws_context.link_of_phase huser (lws_context.phase_of_enables_ne henabled hr)
  -- The connection that is being made is the one place of its client.
  have hconnecting : s.lws.link w = some (d, .connecting) → l.up = false ∧ ∀ v, ¬ s.Opened d v := by
    intro hmaking
    have howns : s.lws.owns d w = true := lws_context.owns_eq_true.mpr ⟨_, hmaking, by simp⟩
    have hnone : ∀ v, ¬ s.Opened d v := by
      intro v hopen
      obtain rfl := hb.unique hlives howns hopen.owns
      rw [Sys.Opened, hmaking] at hopen
      cases hopen
    exact ⟨htold.elsewhere (Nat.lt_of_lt_of_le (hb.lives_pos howns) lives_le_seats) hnone, hnone⟩
  cases r with
  | CLIENT_ESTABLISHED =>
    obtain ⟨hup, _⟩ := hconnecting (hlink (by simp))
    cases h
    refine ⟨{ up := true, failures := 0 }, ⟨_, by simp; rfl, established_listen hreports hup⟩,
      .reported (w := w) rfl ?_ (by simp [established])⟩
    rw [Sys.Opened, Sys.act_lws, (lws_context.sameLinks_performs _ _).link, Sys.setLws_lws,
      lws_context.link_setPhase, if_pos rfl, hlink (by simp)]
    rfl
  | CLIENT_RECEIVE _ | CLIENT_WRITEABLE | TIMER | CLIENT_RECEIVE_PONG =>
    exact ⟨l, callback_told_open h hage (hlink (by simp)) trivial htold⟩
  | CLIENT_CONNECTION_ERROR msg =>
    obtain ⟨hup, hnone⟩ := hconnecting (hlink (by simp))
    simp only [Sys.callback, Option.some.injEq, Prod.mk.injEq] at h
    obtain ⟨_, rfl⟩ := h
    have hnone' : ∀ v, ¬ ((s.setLws (s.lws.setPhase w .closed)).act d
        (connection_error (s.client d) msg)).Opened d v := fun v hv =>
      hnone v (Sys.opened_close.mp hv).2
    by_cases hstop : (s.client d).stopping = true
    · have heq := connection_error_stopping hstop msg
      exact ⟨l, .of_eq (by simp [heq]), .lost hup hnone' (by simpa [heq, signal_stopped] using hcount)⟩
    · have hgoing : (s.client d).stopping = false := by simpa using hstop
      have heq := connection_error_going hgoing msg
      exact ⟨_, ⟨_, by simp, connection_error_listen hreports hgoing hup msg⟩,
        .lost rfl hnone' (by simp [heq, hcount])⟩
  | CLIENT_CLOSED =>
    have hopen := hlink (by simp)
    have howns : s.lws.owns d w = true := lws_context.owns_eq_true.mpr ⟨_, hopen, by simp [Reason.phase]⟩
    simp only [Sys.callback, Option.some.injEq, Prod.mk.injEq] at h
    obtain ⟨rfl, rfl⟩ := h
    have hnone : ∀ v, ¬ ((s.setLws (s.lws.setPhase w .closed)).act d (closed (s.client d))).Opened d v := by
      intro v hv
      obtain ⟨hvw, hother⟩ := Sys.opened_close.mp hv
      exact hvw (hb.unique hlives hother.owns howns)
    by_cases hstop : (s.client d).stopping = true
    · have heq := closed_stopping hstop
      obtain ⟨hpool, _, _, _⟩ := seats_owned (hb.lives_pos howns) hseats
      have hlast := hb.lives_close hopen (by simp [Reason.phase]) d
      rw [beq_self_eq_true, Bool.toNat_true] at hlast
      refine ⟨l, .of_eq (by simp [heq]), ⟨by simpa [heq, signal_stopped] using hcount,
        fun v hv => absurd hv (hnone v), fun _ =>
          .inr ⟨?_, hage.pool hpool, .inl (hage.stopping hstop)⟩⟩⟩
      rw [if_pos hstop]
      refine seats_ended hb hone howns rfl (by simp [heq, signal_stopped]) ?_
      rw [Sys.act_lives, Sys.setLws_lws]
      omega
    · have hgoing : (s.client d).stopping = false := by simpa using hstop
      have heq := closed_going hgoing
      exact ⟨_, ⟨_, by simp, closed_listen hreports hgoing⟩, .lost rfl hnone (by simp [heq, hcount])⟩
  | WSI_DESTROY =>
    obtain ⟨stopped, waiting, hc, _⟩ := wsi_destroy_client (s.client d) w
    cases h
    refine ⟨l, .of_eq (by simp), ⟨by simpa [hc] using hcount,
      fun v hv => htold.up v (Sys.opened_remove.mp hv).2, fun hup => ?_⟩⟩
    rcases htold.down hup with ⟨v, hopen⟩ | hgone
    · by_cases hv : v = w
      · -- `lws_context_destroy` has gone straight to the WSI_DESTROY of an open connection.
        subst hv
        have hphase := lws_context.phase_of_link hopen
        have hthread : s.thread = .destroying := by
          simpa [lws_context.enables, hphase] using henabled
        obtain ⟨hpool, _, _, _⟩ := seats_owned (hb.lives_pos hopen.owns) hseats
        refine .inr ⟨seats_ended hb hone hopen.owns rfl (by simp [hc]) ?_, hage.pool hpool,
          .inr fun hserving => (hage.serving hserving).2.1 hthread⟩
        rw [Sys.act_lives, Sys.setLws_lws]
        refine List.countP_eq_zero.mpr fun u _ hu => ?_
        obtain ⟨hne, howns⟩ := lws_context.owns_of_remove hu
        exact hne (hb.unique hlives howns hopen.owns)
      · exact .inl ⟨v, Sys.opened_remove.mpr ⟨hv, hopen⟩⟩
    · exact .inr (Told.gone hage hgone)
  | CLIENT_APPEND_HANDSHAKE_HEADER =>
    obtain ⟨hup, _⟩ := hconnecting (hlink (by simp))
    have hlinks := callback_sameLinks h rfl
    cases h
    refine ⟨l, ⟨_, by simp; rfl, Listener.listen_callIf fun _ => Listener.hear_attempt hup trivial⟩, ?_⟩
    exact htold.keep hage (by simp) (Sys.opened_iff hlinks)

/-- A callback keeps the other connections, and the client of its own. -/
theorem callback_link {c : ClientId} {w v : WsiId} {a : Answer} {r : Reason}
    (h : s.callback c w a r = some (fs, s')) (hv : v ≠ w) : s'.lws.link v = s.lws.link v := by
  have hclose : ∀ (p : WsiPhase) (acts : List Act),
      ((s.lws.setPhase w p).performs acts).link v = s.lws.link v := fun p acts => by
    rw [(lws_context.sameLinks_performs _ acts).link, lws_context.link_setPhase, if_neg hv]
  cases r with
  | CLIENT_ESTABLISHED | CLIENT_CONNECTION_ERROR _ | CLIENT_CLOSED =>
    cases h
    exact hclose _ _
  | WSI_DESTROY =>
    cases h
    rw [Sys.act_lws, (lws_context.sameLinks_performs _ _).link, Sys.setLws_lws,
      lws_context.link_remove, if_neg hv]
  | _ => exact (callback_sameLinks h rfl).link v

theorem callback_user {c user : ClientId} {w : WsiId} {a : Answer} {r : Reason} {p : WsiPhase}
    (h : s.callback c w a r = some (fs, s')) (hlink : s'.lws.link w = some (user, p)) :
    ∃ q, s.lws.link w = some (user, q) := by
  have hphase : ∀ (q : WsiPhase) (acts : List Act),
      ((s.lws.setPhase w q).performs acts).link w = some (user, p) →
        ∃ q, s.lws.link w = some (user, q) := by
    intro q acts hlink
    rw [(lws_context.sameLinks_performs _ acts).link, lws_context.link_setPhase, if_pos rfl,
      Option.map_eq_some_iff] at hlink
    obtain ⟨⟨user', q'⟩, hbefore, heq⟩ := hlink
    cases heq
    exact ⟨q', hbefore⟩
  cases r with
  | CLIENT_ESTABLISHED | CLIENT_CONNECTION_ERROR _ | CLIENT_CLOSED =>
    cases h
    exact hphase _ _ hlink
  | WSI_DESTROY =>
    cases h
    rw [Sys.act_lws, (lws_context.sameLinks_performs _ _).link, Sys.setLws_lws,
      lws_context.link_remove, if_pos rfl] at hlink
    cases hlink
  | _ => exact ⟨p, (callback_sameLinks h rfl).link w ▸ hlink⟩

/-- A callback of another client. -/
theorem callback_opened_other {c : ClientId} {w : WsiId} {a : Answer} {r : Reason}
    (h : s.callback c w a r = some (fs, s')) (huser : (s.lws.wsi w).any (fun i => i.user == c) = true)
    (hd : d ≠ c) (v : WsiId) : s'.Opened d v ↔ s.Opened d v := by
  have hnot : ∀ p, s.lws.link w ≠ some (d, p) := by
    intro p hlink
    simp only [lws_context.link, Option.map_eq_some_iff, Prod.mk.injEq] at hlink
    obtain ⟨i, hi, hiuser, _⟩ := hlink
    rw [hi] at huser
    exact hd (hiuser.symm.trans (by simpa using huser))
  by_cases hv : v = w
  · subst hv
    refine ⟨fun hopen => ?_, fun hopen => absurd hopen (hnot _)⟩
    obtain ⟨q, hlink⟩ := callback_user h hopen
    exact absurd hlink (hnot q)
  · unfold Sys.Opened
    rw [callback_link h hv]

theorem deliver_told {e : Event} (hreports : (s.client d).Reports) (h : s.deliver e = some (fs, s'))
    (hjoined : Joined d [] s) (hseats : seats d [] s ≤ (s.client d).pool.toNat)
    (hage : Ages d [] s fs s') (htold : Told d [] s l) : ∃ m, Hears d l m s s' ∧ Told d fs s' m := by
  cases e with
  | callback c w r a =>
    simp only [Sys.deliver, Option.ite_none_right_eq_some, Bool.and_eq_true] at h
    obtain ⟨⟨huser, henabled⟩, h⟩ := h
    by_cases hd : d = c
    · subst hd
      exact callback_told hreports h huser henabled hjoined hseats hage htold
    · obtain ⟨hclient, htrace⟩ := callback_other h hd
      exact ⟨l, .of_eq htrace, htold.keep hage (by rw [hclient]) (callback_opened_other h huser hd)⟩
  | sul_reconnect_cb c =>
    simp only [Sys.deliver, Option.ite_none_right_eq_some, Option.some.injEq, Prod.mk.injEq] at h
    obtain ⟨_, _, rfl⟩ := h
    refine ⟨l, .unheard (.act Every.nil d), htold.keep hage ?_ fun _ => Iff.rfl⟩
    rw [Sys.act_client]
    split
    · next hd => rw [hd]
    · rfl
  | service_thread | event_wait_cancelled _ | exit =>
    simp only [Sys.deliver, Option.ite_none_right_eq_some, Option.some.injEq, Prod.mk.injEq] at h
    obtain ⟨_, _, rfl⟩ := h
    exact ⟨l, .of_eq rfl, htold.keep hage rfl fun _ => Iff.rfl⟩
  | context_destroyed =>
    simp only [Sys.deliver, Option.ite_none_right_eq_some, Option.some.injEq, Prod.mk.injEq] at h
    obtain ⟨⟨_, hnone⟩, _, rfl⟩ := h
    refine ⟨l, .of_eq rfl, htold.keep hage rfl fun w => ⟨fun hopen => (by cases hopen), fun hopen => ?_⟩⟩
    have hgone := List.all_eq_true.mp hnone w (List.mem_range.mpr (hjoined.bounded.lt hopen))
    rw [Option.isNone_iff_eq_none] at hgone
    simp [Sys.Opened, lws_context.link, hgone] at hopen

/-- No section opens or ends a connection that is open. -/
theorem svc_opened {f : Frame} {a : Answer} (h : s.svc f a = some (fs, s')) (hb : s.lws.Bounded)
    (w : WsiId) : s'.Opened d w ↔ s.Opened d w := by
  generalize htop : some f = top
  have hrelinks := htop ▸ svc_relinks h
  cases hrelinks with
  | still hlinks _ _ _ | report _ _ hlinks _ _ _ _ _ | store hlinks _ | idle hlinks _ _ _ _ =>
    exact Sys.opened_iff hlinks w
  | @connect c hlinks _ =>
    unfold Sys.Opened
    rw [hlinks.link, lws_context.link_connect]
    split
    · next hw =>
      subst hw
      refine ⟨fun hopen => (by cases hopen), fun hopen => ?_⟩
      exact absurd (hb.lt hopen) (Nat.lt_irrefl _)
    · exact Iff.rfl
  | refuse hlws _ _ =>
    unfold Sys.Opened
    rw [hlws]
    exact Iff.rfl
  | establish _ _ _ _ | close _ _ _ _ _ _ _ _ | remove _ _ _ _ _ _ | finish _ _ _ _ => cases htop

/-- Calls that are not heard, for any client, that keep its failures. -/
theorem act_unheard {c : ClientId} {r : wsp_client × List Act} (hacts : Every Act.unheard r.2)
    (hcount : r.1.reconnect_fail_count = (s.client c).reconnect_fail_count) :
    Hears d l l s (s.act c r) ∧
      ((s.act c r).client d).reconnect_fail_count = (s.client d).reconnect_fail_count := by
  refine ⟨.unheard (.act hacts d), ?_⟩
  rw [Sys.act_client]
  split
  · next hd => rw [hd, hcount]
  · rfl

/-- Only two sections of the service thread are heard by a listener of client `d`. -/
theorem svc_unheard {f : Frame} {a : Answer} (h : s.svc f a = some (fs, s'))
    (herror : ∀ msg, f ≠ .connection_error d msg) (harm : f ≠ .schedule_arm d) :
    Hears d l l s s' ∧
      (s'.client d).reconnect_fail_count = (s.client d).reconnect_fail_count := by
  have hstill : Hears d l l s s ∧
      (s.client d).reconnect_fail_count = (s.client d).reconnect_fail_count := ⟨.of_eq rfl, rfl⟩
  cases f with
  | do_connect c =>
    have hconnect := act_unheard (d := d) (l := l) (s := s) (c := c)
      (r := ({ s.client c with state := .STATE_CONNECTING },
        [.lws_client_connect_via_info (connect_info (s.client c))])) (Every.single rfl) rfl
    simp only [Sys.svc] at h
    split at h <;> cases h <;> exact hconnect
  | connection_error c msg =>
    have hd : d ≠ c := by
      rintro rfl
      exact herror msg rfl
    cases h
    exact ⟨.of_eq (by simp [hd]), by simp [hd]⟩
  | schedule_arm c =>
    have hd : d ≠ c := by
      rintro rfl
      exact harm rfl
    cases h
    exact ⟨.of_eq (by simp [hd]), by simp [hd]⟩
  | wsi_destroy c w =>
    obtain ⟨_, _, hc, _⟩ := wsi_destroy_client (s.client c) w
    cases h
    exact act_unheard Every.nil (by rw [hc])
  | connect_return c w =>
    cases h
    exact act_unheard Every.nil rfl
  | lws_callback_on_writable c w =>
    cases h
    exact act_unheard (Every.single rfl) rfl
  | write c w n more =>
    have hwrite := act_unheard (d := d) (l := l) (s := s) (c := c)
      (r := (s.client c, writeable_write n w)) (Every.pair rfl rfl) rfl
    simp only [Sys.svc] at h
    split at h <;> cases h <;> exact hwrite
  | wc_connect pend =>
    cases pend <;> cases h
    · exact hstill
    · exact act_unheard Every.nil rfl
  | wc_visit snap =>
    cases snap with
    | nil =>
      cases h
      exact hstill
    | cons c snap =>
      simp only [Sys.svc] at h
      split at h
      · cases h
        exact hstill
      · split at h
        · cases h
          exact act_unheard (Every.pair rfl rfl) rfl
        · split at h <;> cases h <;> exact hstill
  | schedule_reconnect _ | has_data_check _ _ | event_wait_cancelled | wc_snapshot =>
    cases h
    exact hstill

/-- A client that retries has no open connection. -/
theorem Told.retries {f : Frame} (h : Told d (f :: rest) s l) (hf : f.retries d = true)
    (hjoined : Joined d (f :: rest) s) (hone : seats d (f :: rest) s ≤ 1) :
    l.up = false ∧ ∀ w, ¬ s.Opened d w := by
  have hnone : ∀ w, ¬ s.Opened d w := by
    intro w hopen
    have howned := (hjoined.no_wsi (lives_of_retries hf hone)).2 w
    rw [hopen.owns] at howned
    cases howned
  refine ⟨h.elsewhere ?_ hnone, hnone⟩
  have hretrying : s.retrying d (f :: rest) = true := by
    simp [Sys.retrying, hf]
  simp only [seats, hretrying, Bool.toNat_true]
  omega

theorem svc_told {f : Frame} {a : Answer} (hreports : (s.client d).Reports)
    (h : s.svc f a = some (fs, s')) (hjoined : Joined d (f :: rest) s)
    (hone : seats d (f :: rest) s ≤ 1) (hage : Ages d (f :: rest) s (fs ++ rest) s')
    (htold : Told d (f :: rest) s l) : ∃ m, Hears d l m s s' ∧ Told d (fs ++ rest) s' m := by
  have hopened := svc_opened (d := d) h hjoined.bounded
  by_cases hheard : (∃ msg, f = .connection_error d msg) ∨ f = .schedule_arm d
  · rcases hheard with ⟨msg, rfl⟩ | rfl
    · obtain ⟨hup, hnone⟩ := htold.retries (by simp [Frame.retries]) hjoined hone
      have hnone' : ∀ w, ¬ s'.Opened d w := fun w hw => hnone w ((hopened w).mp hw)
      cases h
      by_cases hstop : (s.client d).stopping = true
      · have heq := connection_error_stopping hstop msg
        exact ⟨l, .of_eq (by simp [heq]),
          .lost hup hnone' (by simpa [heq, signal_stopped] using htold.failures)⟩
      · have hgoing : (s.client d).stopping = false := by simpa using hstop
        have heq := connection_error_going hgoing msg
        exact ⟨_, ⟨_, by simp, connection_error_listen hreports hgoing hup msg⟩,
          .lost rfl hnone' (by simp [heq, htold.failures])⟩
    · obtain ⟨hup, hnone⟩ := htold.retries (by simp [Frame.retries]) hjoined hone
      obtain ⟨delay, state, sul, hc, _⟩ := schedule_reconnect_client (s.client d) a.ret
      cases h
      exact ⟨l, ⟨_, by simp, schedule_reconnect_listen hup htold.failures a.ret⟩,
        htold.keep hage (by simp [hc]) hopened⟩
  · obtain ⟨hhears, hcount⟩ := svc_unheard (d := d) (l := l) h
      (fun msg hf => hheard (.inl ⟨msg, hf⟩)) fun hf => hheard (.inr hf)
    exact ⟨l, hhears, htold.keep hage hcount hopened⟩

/-- No call of the API is heard. -/
theorem app_unheard {f : AppFrame} {a : Answer} {as : List AppFrame}
    (h : s.app f a = some (as, s')) : Hears d l l s s' ∧
      (s'.client d).reconnect_fail_count = (s.client d).reconnect_fail_count := by
  refine ⟨.unheard (app_makes (fun act hact hne => ?_) h d), ?_⟩
  · cases act with
    | pthread_create => exact absurd rfl hne
    | _ => first | rfl | cases hact
  · cases app_touches h d with
    | none hclient _ _ => rw [hclient]
    | send _ _ hclient _ | flush _ hclient _ | add hclient _ | stop _ hclient _
    | sul_cancel hclient _ | lock _ _ hclient _ _ | wait _ hclient _ => rw [hclient]
    | destroy hdestroy =>
      obtain ⟨freed, rfl⟩ := Sys.destroy_client_eq hdestroy
      rw [Sys.act_client, if_pos rfl]
    | destroy_all hdestroy hclient _ => rw [hclient, destroy_all_client hdestroy]

section runs

variable {cfg cfg' : Config} {label : Label}

theorem Ages.step (hmove : system.Moves cfg label cfg') (hlife : Lifecycle cfg)
    (hlinked : Linked d cfg) (hok : AddedOnce d cfg label) :
    Ages d cfg.svc cfg.shared cfg'.svc cfg'.shared := by
  have hseats : (cfg.shared.client d).pool = true →
      ws_pool.seats d cfg'.svc cfg'.shared ≤ ws_pool.seats d cfg.svc cfg.shared := by
    intro hpool
    have hstep := seats_step (d := d) hmove hlinked.joined.bounded hok
    rw [hpool, joined_kept hmove hpool] at hstep
    omega
  refine ⟨hseats, joined_kept hmove, fun hstop => ?_, fun hserving => ?_⟩
  · cases hmove with
    | event hdeliver => exact ((deliver_served hdeliver).1.stopping d).trans hstop
    | svc hsvc => exact ((svc_served hsvc).1.stopping d).trans hstop
    | call _ _ => exact hstop
    | app _ happ => exact (app_advance happ d).stopping hstop
  · cases hmove with
    | event hdeliver =>
      obtain ⟨hserved, hturns, _⟩ := deliver_served hdeliver
      exact ⟨hserved.freed ▸ hserving.1, hturns.serving hserving.2⟩
    | svc hsvc =>
      obtain ⟨hserved, hthread⟩ := svc_served hsvc
      exact ⟨hserved.freed ▸ hserving.1, hthread ▸ hserving.2⟩
    | call _ _ => exact hserving
    | app htop happ => exact app_serving htop happ hlife hserving

/-- The listener that has heard all calls for client `d` so far. -/
def Informed (d : ClientId) (cfg : Config) : Prop :=
  ∃ l, Listener.start.listen .hooks (cfg.shared.trace d) = some l ∧ Told d cfg.svc cfg.shared l

theorem Informed.step (hmove : system.Moves cfg label cfg') (hlife : Lifecycle cfg)
    (hlinked : Linked d cfg) (hok : AddedOnce d cfg label)
    (hreports : (cfg.shared.client d).Reports) (h : Informed d cfg) : Informed d cfg' := by
  obtain ⟨l, hbefore, htold⟩ := h
  have hage := Ages.step hmove hlife hlinked hok
  have hinformed : ∀ {m}, Hears d l m cfg.shared cfg'.shared → Told d cfg'.svc cfg'.shared m →
      Informed d cfg' := by
    rintro m ⟨acts, htrace, hacts⟩ htold
    exact ⟨m, htrace ▸ Listener.listen_trans hbefore hacts, htold⟩
  cases hmove with
  | event hdeliver =>
    obtain ⟨m, hhears, htold⟩ :=
      deliver_told hreports hdeliver hlinked.joined hlinked.seats hage htold
    exact hinformed hhears htold
  | svc hsvc =>
    obtain ⟨m, hhears, htold⟩ :=
      svc_told hreports hsvc hlinked.joined hlinked.one hage htold
    exact hinformed hhears htold
  | call _ _ => exact ⟨l, hbefore, htold⟩
  | app htop happ =>
    obtain ⟨hhears, hcount⟩ := app_unheard (d := d) (l := l) happ
    refine hinformed hhears (htold.keep hage hcount fun w => ?_)
    unfold Sys.Opened
    rw [hlinked.links htop happ hlife]

theorem Reaches.informed {client : ClientId → wsp_client} (hfresh : ∀ c, (client c).Fresh)
    (hreports : (client d).Reports) (h : system.Reaches (AddedOnce d) (initial client) cfg) :
    Informed d cfg := by
  refine h.invariant_under
    (J := fun mid => Lifecycle mid ∧ Linked d mid ∧ (mid.shared.client d).Reports)
    (fun mid hmid => ⟨Reaches.lifecycle hmid, Reaches.linked (fun _ _ hok => hok) hfresh hmid, ?_⟩)
    ⟨.start, rfl, (hfresh d).fail_count.symm, fun w hopen => (by cases hopen),
      fun hup => (by cases hup)⟩
    fun _ _ _ ⟨hlife, hlinked, hhooks⟩ hok hmove => Informed.step hmove hlife hlinked hok hhooks
  rw [wsp_client.Reports, Reaches.config hmid d]
  exact hreports

/-- In every run in which adds of a client do not overlap, the hooks of the
    client, when it sets the two that report connections, are called in an order
    that fits together, whatever happens to the other clients: a connection is reported
    only after the loss of the one before, messages and heartbeats come only while
    connected, and each decision is asked for with the failures reported since the
    last connection. While the pool serves and the client is not stopping, what
    has been reported last is whether the client has an open connection. -/
theorem member_notifications_fit {client : ClientId → wsp_client}
    (hfresh : ∀ c, (client c).Fresh) (hreports : (client d).Reports)
    (h : system.Reaches (AddedOnce d) (initial client) cfg) :
    ∃ l, Listener.start.listen .hooks (cfg.shared.trace d) = some l ∧
      l.failures = (cfg.shared.client d).reconnect_fail_count ∧
      (cfg.shared.Serving → (cfg.shared.client d).stopping = false →
        (l.up = true ↔ ∃ w, cfg.shared.lws.link w = some (d, .established))) := by
  obtain ⟨l, hlisten, htold⟩ := Reaches.informed hfresh hreports h
  refine ⟨l, hlisten, htold.failures, fun hserving hgoing =>
    ⟨fun hup => ?_, fun ⟨w, hopen⟩ => htold.up w hopen⟩⟩
  rcases htold.down hup with hopen | ⟨_, _, hover⟩
  · exact hopen
  · rcases hover with hstop | hover
    · rw [hgoing] at hstop
      cases hstop
    · exact absurd hserving hover

def reporting (_ : ClientId) : wsp_client :=
  wsp_set_event_hooks (wsp_client_create "localhost" 9000 none true)
    (some ⟨true, true, true, true, true, true, true⟩)

/-- Client 1 joins client 0 and its connect call is refused; then the connection
    of client 0 is lost and made again. -/
def members_run : List Label :=
  connected_run ++ [.call 1 (.wsp_pool_add 1), .app 1 {}, .app 1 {}, .app 1 {},
    .event (.event_wait_cancelled true), .svc {}, .svc {},
    .svc { connect := .refused (some none) true }, .svc {}, .svc {}, .svc {}, .svc {}, .svc {},
    .svc {}, .svc {}, .svc {}, .svc {}, .svc {}, .svc {}, .svc {}, .svc {},
    .event (.callback 0 0 .CLIENT_CLOSED {}), .svc {}, .svc {},
    .event (.callback 0 0 .WSI_DESTROY {}), .event (.sul_reconnect_cb 0),
    .svc { connect := .accepted }, .svc {}, .event (.callback 0 2 .CLIENT_ESTABLISHED {})]

theorem member_notifications_fit_members : ∃ cfg : Config,
    (∃ l, Listener.start.listen .hooks (cfg.shared.trace 0) = some l ∧ l.up = true) ∧
    ∃ l, Listener.start.listen .hooks (cfg.shared.trace 1) = some l ∧ l.up = false ∧
      l.failures = 1 := by
  obtain ⟨cfg, hfollows, hserving, hgoing, hopen, hnone, hcount⟩ : ∃ cfg,
      system.Follows AddsOnce (initial reporting) members_run cfg ∧
      (cfg.shared.freed = false ∧ cfg.shared.thread ≠ .destroying ∧ cfg.shared.thread ≠ .exited) ∧
      ((cfg.shared.client 0).stopping = false ∧ (cfg.shared.client 1).stopping = false) ∧
      cfg.shared.lws.link 2 = some (0, .established) ∧
      cfg.shared.lws.lives 1 = 0 ∧ (cfg.shared.client 1).reconnect_fail_count = 1 :=
    System.exists_follows_of_run (by decide)
  have hfresh : ∀ c, (reporting c).Fresh := fun c => by constructor <;> rfl
  have honce := fun d => hfollows.reaches.mono fun _ _ (hok : AddsOnce _ _) => hok d
  have hlinked := Reaches.linked (fun _ _ hok => hok) hfresh (honce 1)
  obtain ⟨l, hlisten, _, hup⟩ := member_notifications_fit (d := 0) hfresh ⟨rfl, rfl⟩ (honce 0)
  obtain ⟨m, hlisten', hfails, hdown⟩ :=
    member_notifications_fit (d := 1) hfresh ⟨rfl, rfl⟩ (honce 1)
  refine ⟨cfg, ⟨l, hlisten, (hup hserving hgoing.1).mpr ⟨2, hopen⟩⟩, m, hlisten', ?_,
    hfails.trans hcount⟩
  by_contra hother
  obtain ⟨w, hw⟩ := (hdown hserving hgoing.2).mp (by simpa using hother)
  have howned := (hlinked.joined.no_wsi hnone).2 w
  rw [Sys.Opened.owns hw] at howned
  cases howned

end runs

end lws_client.ws_pool
