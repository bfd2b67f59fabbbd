import LwsClientDemo.Decisions
import LwsClientDemo.WsPool.Stack
import LwsClientDemo.WsPool.Wakeup

open interleaving

namespace lws_client.ws_pool

/-- `hooks->on_reconnect_decision` is set. -/
def wsp_client.asks (c : wsp_client) : Bool := hooked c.hooks (·.on_reconnect_decision)

/-- How a pool client backs off. It doubles the delay before using it. -/
def wsp_client.backoff (c : wsp_client) : Backoff :=
  { hook := c.asks, first_ms := c.reconnect_delay_ms, init_ms := c.reconnect_init_ms
    next := fun delay_ms =>
      if int_double delay_ms > c.reconnect_max_ms then c.reconnect_max_ms else int_double delay_ms
    lags := false }

/-- How far the backoff is. -/
def wsp_client.level (c : wsp_client) : Int × Int := (c.reconnect_fail_count, c.reconnect_delay_ms)

/-- The frame runs `schedule_reconnect` of client `d`, or leads to it, when the
    client is not stopping. -/
def Frame.schedules (d : ClientId) : Frame → Bool
  | .connection_error c _ | .connect_return c none | .schedule_reconnect c | .schedule_arm c => c == d
  | _ => false

/-- What an event shows of client `d` when it is not stopping. -/
def Event.notes (d : ClientId) : Event → List Note
  | .callback c _ r _ =>
    if c = d then
      match r with
      | .CLIENT_ESTABLISHED => [.established]
      | .CLIENT_CONNECTION_ERROR _ | .CLIENT_CLOSED => [.failure]
      | _ => []
    else []
  | _ => []

/-- What a section shows of client `d` when it is not stopping, with the calls it
    makes for it and the delay it leaves. A CONNECTION_ERROR inside the connect call
    is part of the failure of that call. -/
def Frame.notes (d : ClientId) (f : Frame) (a : Answer) (acts : List Act) (delay_ms : Int) :
    List Note :=
  match f, a.connect with
  | .do_connect c, .refused _ _ => if c = d then [.failure] else []
  | .schedule_arm c, _ =>
    if c = d then [.scheduled (consulted acts) a.ret (scheduled acts) delay_ms] else []
  | _, _ => []

/-- The notes of a step. A stopping client has none. -/
def notes (d : ClientId) (cfg : Config) (l : Label) : List Note :=
  match l with
  | .event e => if (cfg.shared.client d).stopping then [] else e.notes d
  | .svc a =>
    if (cfg.shared.client d).stopping then []
    else
      (cfg.svc.head?.map fun f =>
        f.notes d a (calls d cfg l)
          ((system.after cfg l).shared.client d).reconnect_delay_ms).getD []
  | .call _ _ | .app _ _ => []

/-- A connect call of client `d` that fails finds the client stopping, or it
    delivers no CONNECTION_ERROR and no hook is set. -/
def fails_once (d : ClientId) (cfg : Config) : Label → Bool
  | .svc a =>
    match cfg.svc, a.connect with
    | .do_connect c :: _, .refused error _ =>
      c != d || (cfg.shared.client d).stopping ||
        (error.isNone && !(cfg.shared.client d).asks)
    | _, _ => true
  | _ => true

variable {s s' : Sys} {bs : List Note} {d : ClientId} {c₀ : wsp_client}

theorem Frame.schedules_of_outside {f : Frame} (h : f.inside = false) (d : ClientId) :
    f.schedules d = false := by
  cases f with
  | connect_return c wsi => cases wsi <;> first | rfl | cases h
  | _ => first | rfl | cases h

/-- The hook is told the current `reconnect_fail_count`, once, and the backoff
    takes one step. -/
theorem schedule_reconnect_backs (c : wsp_client) (ret : Int) :
    consulted (schedule_reconnect c ret).2 = (if c.backoff.hook then
        [(c.reconnect_fail_count, c.backoff.next c.reconnect_delay_ms)] else []) ∧
      scheduled (schedule_reconnect c ret).2 = c.backoff.armed c.reconnect_delay_ms ret ∧
      (schedule_reconnect c ret).1.reconnect_delay_ms = c.backoff.left c.reconnect_delay_ms ret := by
  unfold schedule_reconnect Backoff.armed Backoff.left wsp_client.backoff wsp_client.asks
  dsimp only
  split
  · split <;> exact ⟨rfl, rfl, rfl⟩
  · exact ⟨rfl, rfl, rfl⟩

/-- A run of `schedule_reconnect` is one step of the backoff. -/
theorem Booked.schedules {c : wsp_client} {ahead : Nat}
    (h : Booked c₀.backoff bs (ahead + 1) c.reconnect_fail_count c.reconnect_delay_ms)
    (hconfig : c.towsp_config = c₀.towsp_config) (ret : Int) :
    Booked c₀.backoff (bs ++ [.scheduled (consulted (schedule_reconnect c ret).2) ret
        (scheduled (schedule_reconnect c ret).2) (schedule_reconnect c ret).1.reconnect_delay_ms])
      ahead c.reconnect_fail_count (schedule_reconnect c ret).1.reconnect_delay_ms := by
  obtain ⟨hasked, harmed, hleft⟩ := schedule_reconnect_backs c ret
  have hsame : c.backoff = { c₀.backoff with first_ms := c.reconnect_delay_ms } := by
    simp only [wsp_client.backoff, wsp_client.asks, hconfig]
  rw [hsame] at hasked harmed hleft
  exact Booked.schedule h hasked harmed hleft

theorem connection_error_counts {c : wsp_client} (msg : Option String) (hstop : c.stopping = false) :
    (connection_error c msg).1.reconnect_fail_count = c.reconnect_fail_count + 1 := by
  simp [connection_error, hstop]

theorem closed_counts {c : wsp_client} (hstop : c.stopping = false) :
    (closed c).1.reconnect_fail_count = c.reconnect_fail_count + 1 := by
  simp [closed, hstop]

/-- A client whose count is left alone keeps it. -/
theorem Sys.act_count {c : ClientId} {r : wsp_client × List Act}
    (h : r.1.reconnect_fail_count = (s.client c).reconnect_fail_count) (d : ClientId) :
    ((s.act c r).client d).reconnect_fail_count = (s.client d).reconnect_fail_count :=
  Sys.act_field (·.reconnect_fail_count) h d

/-- A section without such calls leaves them as they are. -/
theorem Sys.act_retries {c : ClientId} {r : wsp_client × List Act} (h : retries r.2 = [])
    (d : ClientId) : retries ((s.act c r).trace d) = retries (s.trace d) := by
  rw [Sys.act_trace]
  split
  · next hd => rw [hd, retries_append, h, List.append_nil]
  · rfl

theorem callback_accounted {c : ClientId} {w : WsiId} {a : Answer} {r : Reason} {fs : List Frame}
    (h : s.callback c w a r = some (fs, s')) (hconfig : (s.client d).towsp_config = c₀.towsp_config)
    (hacc : Accounted c₀.backoff bs (s.client d).stopping 0 (s.client d).reconnect_fail_count
      (s.client d).reconnect_delay_ms) :
    Accounted c₀.backoff
      (bs ++ if (s.client d).stopping then [] else (Event.callback c w r a).notes d)
      (s'.client d).stopping (fs.countP (Frame.schedules d)) (s'.client d).reconnect_fail_count
      (s'.client d).reconnect_delay_ms := by
  refine hacc.unless_stopping ((callback_served h).1.stopping d) fun hstopping hbooked => ?_
  have hkept : ∀ (fs : List Frame) {c : wsp_client}, c.level = (s.client d).level →
      fs.countP (Frame.schedules d) = 0 → Accounted c₀.backoff (bs ++ []) (s'.client d).stopping
        (fs.countP (Frame.schedules d)) c.reconnect_fail_count c.reconnect_delay_ms := by
    intro fs c hlevel hfs
    obtain ⟨hcount, hdelay⟩ := Prod.mk.inj hlevel
    rw [List.append_nil, hcount, hdelay, hfs]
    exact hbooked.accounted
  by_cases hd : c = d
  · subst hd
    cases r with
    | CLIENT_ESTABLISHED =>
      cases h
      have hestablished := hbooked.establish (m := 0) fun _ => rfl
      have hinit : c₀.backoff.init_ms = (s.client c).reconnect_init_ms := by
        rw [hconfig]
        rfl
      rw [hinit] at hestablished
      simpa [Event.notes, established] using hestablished.accounted
    | CLIENT_CONNECTION_ERROR msg =>
      simp only [Sys.callback, Option.some.injEq, Prod.mk.injEq] at h
      obtain ⟨rfl, rfl⟩ := h
      have hfailed := hbooked.fail fun _ => connection_error_counts msg hstopping
      have hdelay : (connection_error (s.client c) msg).1.reconnect_delay_ms =
          (s.client c).reconnect_delay_ms := by simp [connection_error, hstopping]
      simpa [Event.notes, hstopping, hdelay, Frame.schedules] using hfailed.accounted
    | CLIENT_CLOSED =>
      simp only [Sys.callback, Option.some.injEq, Prod.mk.injEq] at h
      obtain ⟨rfl, rfl⟩ := h
      have hfailed := hbooked.fail fun _ => closed_counts hstopping
      have hdelay : (closed (s.client c)).1.reconnect_delay_ms = (s.client c).reconnect_delay_ms := by
        simp [closed, hstopping]
      simpa [Event.notes, hstopping, hdelay, Frame.schedules] using hfailed.accounted
    | CLIENT_WRITEABLE =>
      simp only [Event.notes, if_true]
      simp only [Sys.callback] at h
      split at h
      · cases h
        exact hkept _ (Sys.act_field wsp_client.level rfl c) rfl
      · split at h <;> cases h
        · exact hkept _ rfl rfl
        · exact hkept _ (Sys.act_field wsp_client.level rfl c) rfl
    | CLIENT_RECEIVE chunk =>
      simp only [Event.notes, if_true]
      simp only [Sys.callback, Option.map_eq_some_iff, Prod.mk.injEq] at h
      obtain ⟨o, ho, rfl, rfl⟩ := h
      obtain ⟨frag, hc⟩ := receive_client ho
      refine hkept _ ?_ rfl
      have hlevel : ((s.act c (o.client, o.acts)).client c).level = (s.client c).level :=
        Sys.act_field wsp_client.level (by rw [hc]; rfl) c
      split <;> exact hlevel
    | TIMER =>
      simp only [Event.notes, if_true]
      obtain ⟨send_ping, hc⟩ := timer_client (s.client c) w a.ret
      simp only [Sys.callback, Option.some.injEq, Prod.mk.injEq] at h
      obtain ⟨rfl, rfl⟩ := h
      refine hkept _ ?_ rfl
      have hlevel := Sys.act_field wsp_client.level
        (s := s.setLws (s.lws.modify w fun i => { i with timer := none })) (c := c)
        (r := ((timer (s.client c) w a.ret).client, (timer (s.client c) w a.ret).acts))
        (by rw [hc]; rfl) c
      split <;> exact hlevel
    | WSI_DESTROY =>
      simp only [Event.notes, if_true]
      cases h
      obtain ⟨_, _, hc, _⟩ := wsi_destroy_client (s.client c) w
      exact hkept [] (Sys.act_field wsp_client.level (s := s.setLws (s.lws.remove w)) (c := c)
        (r := (wsi_destroy (s.client c) w, [])) (by rw [hc]; rfl) c) rfl
    | CLIENT_RECEIVE_PONG | CLIENT_APPEND_HANDSHAKE_HEADER =>
      simp only [Event.notes, if_true]
      cases h
      exact hkept [] (Sys.act_field wsp_client.level rfl c) rfl
  · have hnote : (Event.callback c w r a).notes d = [] := if_neg hd
    rw [hnote]
    refine hkept _ (by rw [(callback_keeps h).2 d (Ne.symm hd)]) ?_
    rcases callback_frames h with rfl | ⟨f, rfl, _, rfl | hf⟩
    · rfl
    · simp [Frame.schedules, hd]
    · simpa using Frame.schedules_of_outside hf d

theorem deliver_accounted {e : Event} {fs : List Frame} (h : s.deliver e = some (fs, s'))
    (hconfig : (s.client d).towsp_config = c₀.towsp_config)
    (hacc : Accounted c₀.backoff bs (s.client d).stopping 0 (s.client d).reconnect_fail_count
      (s.client d).reconnect_delay_ms) :
    Accounted c₀.backoff (bs ++ if (s.client d).stopping then [] else e.notes d)
      (s'.client d).stopping (fs.countP (Frame.schedules d)) (s'.client d).reconnect_fail_count
      (s'.client d).reconnect_delay_ms := by
  have hnone : ∀ {e : Event}, e.notes d = [] →
      (bs ++ if (s.client d).stopping then [] else e.notes d) = bs := by
    intro e he
    split <;> simp [he]
  cases e with
  | callback c w r a =>
    simp only [Sys.deliver, Option.ite_none_right_eq_some] at h
    exact callback_accounted h.2 hconfig hacc
  | service_thread | exit | context_destroyed =>
    simp only [Sys.deliver, Option.ite_none_right_eq_some, Option.some.injEq, Prod.mk.injEq] at h
    obtain ⟨_, rfl, rfl⟩ := h
    rw [hnone rfl]
    exact hacc.quiet fun hstop => ⟨hstop, rfl, fun _ => rfl, rfl⟩
  | event_wait_cancelled wsi =>
    simp only [Sys.deliver, Option.ite_none_right_eq_some, Option.some.injEq, Prod.mk.injEq] at h
    obtain ⟨_, rfl, rfl⟩ := h
    rw [hnone rfl]
    exact hacc.quiet fun hstop => ⟨hstop, by cases wsi <;> rfl, fun _ => rfl, rfl⟩
  | sul_reconnect_cb c =>
    have hstop := (deliver_served h).1.stopping d
    simp only [Sys.deliver, Option.ite_none_right_eq_some, Option.some.injEq, Prod.mk.injEq] at h
    obtain ⟨_, rfl, rfl⟩ := h
    rw [hnone rfl]
    exact hacc.quiet fun hafter => ⟨hstop.symm.trans hafter, by split <;> rfl,
      fun _ => Sys.act_count rfl d, Sys.act_field (·.reconnect_delay_ms) rfl d⟩

/-- A section that neither connects client `d`, nor reports a failure of it or
    schedules for it. -/
theorem svc_others {f : Frame} {a : Answer} {fs : List Frame} (h : s.svc f a = some (fs, s'))
    (hf : f.schedules d = false) (hconnect : f ≠ .do_connect d) :
    (∀ acts delay_ms, f.notes d a acts delay_ms = []) ∧ fs.countP (Frame.schedules d) = 0 ∧
      (s'.client d).level = (s.client d).level ∧
      retries (s'.trace d) = retries (s.trace d) := by
  have hother : ∀ {c : ClientId} (r : wsp_client × List Act), c ≠ d →
      ((s.act c r).client d).level = (s.client d).level ∧
        retries ((s.act c r).trace d) = retries (s.trace d) := by
    intro c r hd
    rw [Sys.act_client, Sys.act_trace, if_neg (Ne.symm hd), if_neg (Ne.symm hd)]
    exact ⟨rfl, rfl⟩
  have hkept : ∀ {c : ClientId} {r : wsp_client × List Act},
      r.1.level = (s.client c).level → retries r.2 = [] →
      ((s.act c r).client d).level = (s.client d).level ∧
        retries ((s.act c r).trace d) = retries (s.trace d) := fun hlevel hacts =>
    ⟨Sys.act_field wsp_client.level hlevel d, Sys.act_retries hacts d⟩
  cases f with
  | do_connect c =>
    have hd : c ≠ d := fun hd => hconnect (by rw [hd])
    obtain ⟨⟨_, _, hclient, htrace⟩, hfs⟩ := do_connect_spec h
    refine ⟨?_, ?_, by rw [hclient, if_neg (Ne.symm hd)], by rw [htrace, if_neg (Ne.symm hd)]⟩
    · intro acts delay_ms
      cases hanswer : a.connect <;> simp [Frame.notes, hanswer, hd]
    · rcases hfs with ⟨rfl, _⟩ | ⟨error, destroyed, rfl, _⟩
      · rfl
      · cases error <;> cases destroyed <;> simp [Frame.schedules, hd]
  | connection_error c msg =>
    have hd : c ≠ d := by simpa [Frame.schedules] using hf
    simp only [Sys.svc, Option.some.injEq, Prod.mk.injEq] at h
    obtain ⟨rfl, rfl⟩ := h
    refine ⟨fun _ _ => rfl, ?_, hother _ hd⟩
    split <;> simp [Frame.schedules, hd]
  | wsi_destroy c w =>
    cases h
    obtain ⟨_, _, hc, _⟩ := wsi_destroy_client (s.client c) w
    exact ⟨fun _ _ => rfl, rfl, hkept (by rw [hc]; rfl) rfl⟩
  | connect_return c wsi =>
    simp only [Sys.svc, Option.some.injEq, Prod.mk.injEq] at h
    obtain ⟨rfl, rfl⟩ := h
    refine ⟨fun _ _ => by cases wsi <;> rfl, ?_, hkept rfl rfl⟩
    cases wsi with
    | none => simpa [Frame.schedules] using hf
    | some w => rfl
  | schedule_reconnect c =>
    simp only [Sys.svc, Option.some.injEq, Prod.mk.injEq] at h
    obtain ⟨rfl, rfl⟩ := h
    refine ⟨fun _ _ => rfl, ?_, rfl, rfl⟩
    split
    · rfl
    · simpa [Frame.schedules] using hf
  | schedule_arm c =>
    have hd : c ≠ d := by simpa [Frame.schedules] using hf
    cases h
    exact ⟨fun _ _ => if_neg hd, rfl, hother _ hd⟩
  | has_data_check c w =>
    simp only [Sys.svc, Option.some.injEq, Prod.mk.injEq] at h
    obtain ⟨rfl, rfl⟩ := h
    exact ⟨fun _ _ => rfl, by split <;> rfl, rfl, rfl⟩
  | lws_callback_on_writable c w =>
    cases h
    exact ⟨fun _ _ => rfl, rfl, hkept rfl rfl⟩
  | write c w n more =>
    have hwritten := hkept (c := c) (r := (s.client c, writeable_write n w)) rfl rfl
    simp only [Sys.svc] at h
    split at h <;> cases h
    · exact ⟨fun _ _ => rfl, rfl, hwritten⟩
    · exact ⟨fun _ _ => rfl, by split <;> rfl, hwritten⟩
  | event_wait_cancelled | wc_snapshot =>
    cases h
    exact ⟨fun _ _ => rfl, rfl, rfl, rfl⟩
  | wc_connect pend =>
    cases pend <;> cases h
    · exact ⟨fun _ _ => rfl, rfl, rfl, rfl⟩
    · exact ⟨fun _ _ => rfl, rfl, hkept rfl rfl⟩
  | wc_visit snap =>
    cases snap with
    | nil =>
      cases h
      exact ⟨fun _ _ => rfl, rfl, rfl, rfl⟩
    | cons c snap =>
      simp only [Sys.svc] at h
      split at h
      · cases h
        exact ⟨fun _ _ => rfl, rfl, rfl, rfl⟩
      · split at h
        · cases h
          exact ⟨fun _ _ => rfl, rfl, hkept rfl rfl⟩
        · split at h <;> cases h <;> exact ⟨fun _ _ => rfl, rfl, rfl, rfl⟩

theorem svc_accounted {f : Frame} {a : Answer} {rest fs : List Frame} {app : Nat → List AppFrame}
    {acts : List Act} (h : s.svc f a = some (fs, s')) (hacts : s'.trace d = s.trace d ++ acts)
    (hok : fails_once d ⟨s, f :: rest, app⟩ (.svc a) = true)
    (hconfig : (s.client d).towsp_config = c₀.towsp_config) (hstack : Stack (f :: rest))
    (hacc : Accounted c₀.backoff bs (s.client d).stopping ((f :: rest).countP (Frame.schedules d))
      (s.client d).reconnect_fail_count (s.client d).reconnect_delay_ms) :
    Accounted c₀.backoff (bs ++ if (s.client d).stopping then [] else
        f.notes d a acts (s'.client d).reconnect_delay_ms)
      (s'.client d).stopping ((fs ++ rest).countP (Frame.schedules d))
      (s'.client d).reconnect_fail_count (s'.client d).reconnect_delay_ms := by
  refine hacc.unless_stopping ((svc_served h).1.stopping d) fun hstopping hbooked => ?_
  by_cases hconnect : f = .do_connect d
  · subst hconnect
    have hnone : rest.countP (Frame.schedules d) = 0 := by
      refine List.countP_eq_zero.mpr fun g hg => ?_
      have hloops := hstack.loops_behind rfl g hg
      cases g <;> simp [Frame.loops, Frame.schedules] at hloops ⊢
    rw [List.countP_cons_of_neg (by simp [Frame.schedules]), hnone] at hbooked
    obtain ⟨⟨_, _, hclient, _⟩, _⟩ := do_connect_spec h
    have hlevel : (s'.client d).level = (s.client d).level := by
      rw [hclient, if_pos rfl]
      rfl
    obtain ⟨hcount, hdelay⟩ := Prod.mk.inj hlevel
    rw [hcount, hdelay, List.countP_append, hnone]
    simp only [Sys.svc] at h
    split at h
    · next hanswer =>
      cases h
      simpa [Frame.notes, hanswer, Frame.schedules] using hbooked.accounted
    · next error destroyed hanswer =>
      cases h
      simp only [fails_once, hanswer, hstopping, bne_self_eq_false, Bool.false_or,
        Bool.and_eq_true, Option.isNone_iff_eq_none, Bool.not_eq_true'] at hok
      obtain ⟨rfl, hasks⟩ := hok
      have hhook : c₀.backoff.hook = false := by
        rw [← hasks, wsp_client.asks, hconfig]
        rfl
      have hfailed : Booked c₀.backoff (bs ++ [.failure]) 1 (s.client d).reconnect_fail_count
          (s.client d).reconnect_delay_ms := hbooked.fail (by simp [hhook])
      cases destroyed <;> simpa [Frame.notes, hanswer, Frame.schedules] using hfailed.accounted
  · cases hf : f.schedules d with
    | false =>
      obtain ⟨hnote, hfs, hlevel, _⟩ := svc_others h hf hconnect
      obtain ⟨hcount, hdelay⟩ := Prod.mk.inj hlevel
      rw [List.countP_cons_of_neg (by simp [hf])] at hbooked
      rw [hnote, List.append_nil, List.countP_append, hfs, Nat.zero_add, hcount, hdelay]
      exact hbooked.accounted
    | true =>
      rw [List.countP_cons_of_pos hf] at hbooked
      cases f with
      | connection_error c msg =>
        -- The failure of the call would be scheduled twice.
        obtain rfl : c = d := beq_iff_eq.mp hf
        obtain ⟨x, _, hahead, _⟩ := hbooked
        have htwice : 0 < rest.countP (Frame.schedules c) :=
          List.countP_pos_iff.mpr ⟨_, hstack.returns, by simp [Frame.schedules]⟩
        have hone := Bool.toNat_le x.due
        omega
      | connect_return c wsi =>
        cases wsi with
        | some w => cases hf
        | none =>
          obtain rfl : c = d := beq_iff_eq.mp hf
          cases h
          simpa [Frame.notes, Frame.schedules, List.countP_cons] using hbooked.accounted
      | schedule_reconnect c =>
        obtain rfl : c = d := beq_iff_eq.mp hf
        cases h
        simpa [Frame.notes, Frame.schedules, hstopping, List.countP_cons] using hbooked.accounted
      | schedule_arm c =>
        obtain rfl : c = d := beq_iff_eq.mp hf
        cases h
        rw [Sys.act_trace, if_pos rfl] at hacts
        obtain rfl := List.append_cancel_left hacts
        obtain ⟨_, _, _, hc, _⟩ := schedule_reconnect_client (s.client c) a.ret
        have hcount : (schedule_reconnect (s.client c) a.ret).1.reconnect_fail_count =
            (s.client c).reconnect_fail_count := by rw [hc]
        have hscheduled := Booked.schedules hbooked hconfig a.ret
        simpa [Frame.notes, hcount] using hscheduled.accounted
      | _ => cases hf

theorem destroy_client_retries {c : ClientId} (h : s.destroy_client c = some s') (d : ClientId) :
    retries (s'.trace d) = retries (s.trace d) := by
  obtain ⟨freed, rfl⟩ := Sys.destroy_client_eq h
  refine Sys.act_retries ?_ d
  rw [retries_append, retries_map fun _ => rfl]
  rfl

theorem destroy_all_retries {cs : List ClientId} (h : s.destroy_all cs = some s') (d : ClientId) :
    retries (s'.trace d) = retries (s.trace d) :=
  destroy_all_rule (R := fun s t => retries (t.trace d) = retries (s.trace d)) (fun _ => rfl)
    (fun hfirst hrest => hrest.trans hfirst) (fun hone => destroy_client_retries hone d) h

/-- No API call touches the backoff or retries, and only a stop touches the timer. -/
theorem app_attempts {f : AppFrame} {a : Answer} {fs : List AppFrame} (h : s.app f a = some (fs, s'))
    (d : ClientId) :
    (s'.client d).level = (s.client d).level ∧
      ((s'.client d).sul = (s.client d).sul ∨ f = .stop_sul_cancel d) ∧
      retries (s'.trace d) = retries (s.trace d) := by
  cases app_touches h d with
  | none hclient htrace hacts =>
    have hnone := retries_eq_nil (every_of_minor hacts (fun _ _ => rfl) (fun _ _ _ => rfl) fun _ => rfl)
    rw [hclient, htrace, retries_append, hnone, List.append_nil]
    exact ⟨rfl, .inl rfl, rfl⟩
  | send _ _ hclient htrace | add hclient htrace =>
    rw [hclient, htrace, retries_append]
    exact ⟨rfl, .inl rfl, List.append_nil _⟩
  | stop _ hclient htrace | lock _ _ hclient _ htrace =>
    rw [hclient, htrace]
    exact ⟨rfl, .inl rfl, rfl⟩
  | sul_cancel hclient htrace =>
    rw [hclient, htrace, retries_append]
    exact ⟨rfl, .inr rfl, List.append_nil _⟩
  | wait _ hclient htrace =>
    rw [hclient]
    rcases htrace with htrace | htrace <;> rw [htrace]
    · exact ⟨rfl, .inl rfl, rfl⟩
    · exact ⟨rfl, .inl rfl, by rw [retries_append]; exact List.append_nil _⟩
  | flush _ hclient htrace =>
    rw [hclient, htrace, retries_append, retries_append, retries_map fun _ => rfl]
    exact ⟨rfl, .inl rfl, List.append_nil _⟩
  | destroy hdestroy =>
    have hacts := destroy_client_retries hdestroy d
    obtain ⟨freed, rfl⟩ := Sys.destroy_client_eq hdestroy
    exact ⟨Sys.act_field wsp_client.level rfl d, .inl (Sys.act_sul rfl d), hacts⟩
  | destroy_all hdestroy hclient htrace =>
    rw [hclient, htrace, destroy_all_client hdestroy, destroy_all_retries hdestroy]
    exact ⟨rfl, .inl rfl, rfl⟩

theorem step_accounted {cfg cfg' : Config} {l : Label} (hmove : system.Moves cfg l cfg')
    (hstack : Stack cfg.svc) (hconfig : (cfg.shared.client d).towsp_config = c₀.towsp_config)
    (hok : fails_once d cfg l = true)
    (h : Accounted c₀.backoff bs (cfg.shared.client d).stopping
      (cfg.svc.countP (Frame.schedules d)) (cfg.shared.client d).reconnect_fail_count
      (cfg.shared.client d).reconnect_delay_ms) :
    Accounted c₀.backoff (bs ++ notes d cfg l) (cfg'.shared.client d).stopping
      (cfg'.svc.countP (Frame.schedules d)) (cfg'.shared.client d).reconnect_fail_count
      (cfg'.shared.client d).reconnect_delay_ms := by
  have hstep := hmove.step
  have hafter := hmove.after
  cases hmove with
  | event hdeliver => exact deliver_accounted hdeliver hconfig h
  | @svc _ _ s s' _ _ _ hsvc =>
    obtain ⟨acts, hacts⟩ : ∃ acts, s'.trace d = s.trace d ++ acts := by
      rcases (svc_spec hsvc d).2 with ⟨hsilent, _⟩ | ⟨_, _, _, htrace⟩ | ⟨_, _, _, _, _, htrace⟩
      · obtain ⟨acts, htrace, _⟩ := hsilent.trace
        exact ⟨acts, htrace⟩
      · exact ⟨_, htrace⟩
      · exact ⟨_, htrace⟩
    simp only [notes, hafter, calls_eq hstep hacts]
    exact svc_accounted hsvc hacts hok hconfig hstack h
  | call _ _ => simpa [notes] using h
  | app htop happ =>
    simp only [notes, List.append_nil]
    obtain ⟨hcount, hdelay⟩ := Prod.mk.inj (app_attempts happ d).1
    refine h.quiet fun hgoing => ⟨?_, rfl, fun _ => hcount, hdelay⟩
    by_contra hstop
    have hstill := (app_advance happ d).stopping (by simpa using hstop)
    rw [hstill] at hgoing
    cases hgoing

variable {ok : Config → Label → Prop} {client : ClientId → wsp_client} {ls : List Label}
  {cfg : Config}

/-- No step of a run changes the configuration of a client. -/
theorem Reaches.config (h : system.Reaches ok (initial client) cfg) (d : ClientId) :
    (cfg.shared.client d).towsp_config = (client d).towsp_config := by
  refine h.invariant (I := fun cfg => (cfg.shared.client d).towsp_config = (client d).towsp_config)
    rfl fun cfg l cfg' _ hmove hbefore => ?_
  cases hmove with
  | event hdeliver =>
    refine Eq.trans ?_ hbefore
    cases deliver_spec hdeliver d with
    | silent _ hsilent _ => exact hsilent.kept.config
    | receive ho hc _ =>
      obtain ⟨frag, hfrag⟩ := receive_client ho
      rw [hc, hfrag]
    | ping hkept _ => exact hkept.config
    | dequeue _ hc _ => rw [hc]
  | svc hsvc =>
    refine Eq.trans ?_ hbefore
    rcases (svc_spec hsvc d).2 with ⟨hsilent, _⟩ | ⟨_, hkept, _⟩ | ⟨_, _, _, _, hc, _⟩
    · exact hsilent.kept.config
    · exact hkept.config
    · rw [hc]
  | call _ _ => exact hbefore
  | app _ happ =>
    refine Eq.trans ?_ hbefore
    rcases app_spec happ d with hsilent | ⟨_, _, _, _, hc, _⟩ | ⟨_, _, _, _, hc, _⟩
    · exact hsilent.kept.config
    · rw [hc]
    · rw [hc]

theorem Follows.accounted (hfresh : (client d).Fresh)
    (h : system.Follows (fun cfg l => fails_once d cfg l = true) (initial client) ls cfg) :
    Accounted (client d).backoff (system.observe (notes d) (initial client) ls)
      (cfg.shared.client d).stopping (cfg.svc.countP (Frame.schedules d))
      (cfg.shared.client d).reconnect_fail_count (cfg.shared.client d).reconnect_delay_ms := by
  refine h.observed
    (J := fun cfg => Stack cfg.svc ∧ (cfg.shared.client d).towsp_config = (client d).towsp_config)
    (I := fun bs cfg => Accounted (client d).backoff bs (cfg.shared.client d).stopping
      (cfg.svc.countP (Frame.schedules d)) (cfg.shared.client d).reconnect_fail_count
      (cfg.shared.client d).reconnect_delay_ms)
    (fun mid hmid => ⟨Reaches.stack hmid, Reaches.config hmid d⟩)
    (Booked.initial fun _ => hfresh.fail_count).accounted
    fun bs cfg l cfg' ⟨hstack, hconfig⟩ hok hmove hbefore =>
      step_accounted hmove hstack hconfig hok hbefore

/-- Between two callbacks, every failure so far of a client that is not stopping
    has had its one `schedule_reconnect`, the hook was asked once in it with the
    number of failures, and the delay is where these have taken it. -/
theorem decided_once (hfresh : (client d).Fresh)
    (h : system.Follows (fun cfg l => fails_once d cfg l = true) (initial client) ls cfg)
    (hstop : (cfg.shared.client d).stopping = false) (hidle : cfg.svc = []) :
    ∃ failures, ledger (client d).backoff (system.observe (notes d) (initial client) ls) =
      some { failures, due := false, delay_ms := (cfg.shared.client d).reconnect_delay_ms } := by
  have hbooked := (Follows.accounted hfresh h).booked hstop
  rw [hidle] at hbooked
  obtain ⟨failures, hledger, _⟩ := hbooked.settled
  exact ⟨failures, hledger⟩

/-- A client with `on_reconnect_decision` set. -/
def asking_client (_ : ClientId) : wsp_client :=
  wsp_set_event_hooks (wsp_client_create "localhost" 9000 none true) (some decision_hook)

theorem asking_client_fresh (c : ClientId) : (asking_client c).Fresh := by
  constructor <;> rfl

/-- Client 0 is added to the started pool, up to its first connect call. -/
def first_attempt : List Label :=
  [.call 0 .wsp_pool_start, .app 0 {}, .app 0 {}, .app 0 {}, .app 0 {}, .event .service_thread,
    .call 1 (.wsp_pool_add 0), .app 1 {}, .app 1 {}, .app 1 {},
    .event (.event_wait_cancelled true), .svc {}, .svc {}]

/-- The first attempt fails with a CONNECTION_ERROR inside the call. -/
def nested_error_run : List Label :=
  first_attempt ++ [.svc { connect := .refused (some none) true }] ++ List.replicate 11 (.svc {})

/-- The first attempt returns NULL without one. -/
def null_run : List Label := first_attempt ++ List.replicate 8 (.svc {})

/-- A connection that is lost, and an attempt that is lost before ESTABLISHED. -/
def lost_run : List Label :=
  connected_run ++ [.event (.callback 0 0 .CLIENT_CLOSED {}), .svc {}, .svc { ret := 250 },
    .event (.sul_reconnect_cb 0), .svc { connect := .accepted }, .svc {},
    .event (.callback 0 1 (.CLIENT_CONNECTION_ERROR none) {}), .svc {}, .svc { ret := 250 }]

end lws_client.ws_pool
