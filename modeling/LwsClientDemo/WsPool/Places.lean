import LwsClientDemo.WsPool.Decisions
import LwsClientDemo.WsPool.Registry

open interleaving

namespace lws_client.ws_pool

/-- The frame asks `on_reconnect_decision` of client `d`, when it is set. -/
def Frame.arms (d : ClientId) : Frame → Bool
  | .schedule_arm c => c == d
  | _ => false

/-- The step asks `on_reconnect_decision` of client `d` and gets a negative
    answer. -/
def refuses (d : ClientId) (cfg : Config) : Label → Bool
  | .svc a => cfg.svc.head?.any (Frame.arms d) && (cfg.shared.client d).asks && decide (a.ret < 0)
  | _ => false

/-- What a client remembers of its attempts to connect. -/
def wsp_client.phase (c : wsp_client) : client_state_t × Option Int := (c.state, c.sul)

variable {d : ClientId} {s s' : Sys} {fs rest : List Frame}

theorem wsp_client.phase_eq {c : wsp_client} {state : client_state_t} {sul : Option Int}
    (h : c.phase = (state, sul)) : c.state = state ∧ c.sul = sul := by
  simpa [wsp_client.phase] using h

/-- Client `c` changes neither its state nor its timer. -/
theorem Sys.act_phase {s : Sys} {c : ClientId} {r : wsp_client × List Act}
    (h : r.1.phase = (s.client c).phase) (d : ClientId) :
    ((s.act c r).client d).phase = (s.client d).phase :=
  Sys.act_field wsp_client.phase h d

/-- What a section of the service thread does to the state and the timer of
    client `d`. -/
inductive Phase (d : ClientId) (s s' : Sys) (a : Answer) : Frame → Prop where
  | same {f : Frame} : f ≠ .do_connect d → (s'.client d).phase = (s.client d).phase →
      Phase d s s' a f
  | connect : (s'.client d).phase = (.STATE_CONNECTING, (s.client d).sul) →
      Phase d s s' a (.do_connect d)
  | idle {pend : List ClientId} : (s'.client d).phase = (.STATE_IDLE, (s.client d).sul) →
      Phase d s s' a (.wc_connect (d :: pend))
  | arm : s'.client d = (schedule_reconnect (s.client d) a.ret).1 → Phase d s s' a (.schedule_arm d)

theorem svc_phase {f : Frame} {a : Answer} (h : s.svc f a = some (fs, s')) (d : ClientId) :
    Phase d s s' a f := by
  cases f with
  | do_connect c =>
    obtain ⟨⟨_, _, hclient, _⟩, _⟩ := do_connect_spec h
    by_cases hd : c = d
    · subst hd
      exact .connect (by rw [hclient, if_pos rfl]; rfl)
    · exact .same (by simpa using hd) (by rw [hclient, if_neg (Ne.symm hd)])
  | connection_error c msg =>
    obtain ⟨_, _, _, hc, _⟩ := connection_error_client (s.client c) msg
    cases h
    exact .same (by simp) (Sys.act_phase (by rw [hc]; rfl) d)
  | wsi_destroy c w =>
    obtain ⟨_, _, hc, _⟩ := wsi_destroy_client (s.client c) w
    cases h
    exact .same (by simp) (Sys.act_phase (by rw [hc]; rfl) d)
  | schedule_arm c =>
    cases h
    by_cases hd : c = d
    · subst hd
      exact .arm (by rw [Sys.act_client, if_pos rfl])
    · exact .same (by simp) (by rw [Sys.act_client, if_neg (Ne.symm hd)])
  | connect_return c _ | lws_callback_on_writable c _ =>
    cases h
    exact .same (by simp) (Sys.act_phase rfl d)
  | write c w n more =>
    have hphase : ((s.act c (s.client c, writeable_write n w)).client d).phase = (s.client d).phase :=
      Sys.act_phase rfl d
    simp only [Sys.svc] at h
    split at h <;> cases h <;> exact .same (by simp) hphase
  | wc_connect pend =>
    cases pend with
    | nil =>
      cases h
      exact .same (by simp) rfl
    | cons c pend =>
      cases h
      by_cases hd : c = d
      · subst hd
        exact .idle (by rw [Sys.act_client, if_pos rfl]; rfl)
      · exact .same (by simp) (by rw [Sys.act_client, if_neg (Ne.symm hd)])
  | wc_visit snap =>
    cases snap with
    | nil =>
      cases h
      exact .same (by simp) rfl
    | cons c snap =>
      simp only [Sys.svc] at h
      split at h
      · cases h
        exact .same (by simp) rfl
      · split at h
        · cases h
          exact .same (by simp) (Sys.act_phase rfl d)
        · split at h <;> cases h <;> exact .same (by simp) rfl
  | schedule_reconnect _ | has_data_check _ _ | event_wait_cancelled | wc_snapshot =>
    cases h
    exact .same (by simp) rfl

/-- A section ends connections; only a connect call makes one. -/
theorem Relinks.owns_of {top : Option Frame} (h : Relinks s s' top fs) {w : WsiId}
    (howns : s'.lws.owns d w = true) :
    s.lws.owns d w = true ∨ top = some (.do_connect d) := by
  cases h with
  | still hlinks _ _ _ | report _ _ hlinks _ _ _ _ _ | store hlinks _ | idle hlinks _ _ _ _ =>
    exact .inl (hlinks.owns d w ▸ howns)
  | establish _ hlink hlinks _ =>
    rw [hlinks.owns, lws_context.owns_establish hlink] at howns
    exact .inl howns
  | close _ _ hlinks _ _ _ _ _ =>
    rw [hlinks.owns] at howns
    exact .inl (lws_context.owns_of_close howns).2
  | remove _ _ hlinks _ _ _ =>
    rw [hlinks.owns] at howns
    exact .inl (lws_context.owns_of_remove howns).2
  | connect hlinks _ =>
    rw [hlinks.owns] at howns
    exact (lws_context.owns_of_connect howns).imp_right fun hnew => by rw [hnew.1]
  | refuse hlws _ _ =>
    rw [hlws] at howns
    exact .inl howns
  | finish _ hlws _ _ =>
    rw [hlws] at howns
    cases howns

/-- A client whose turn it is has no other place. -/
theorem seats_turn {f : Frame} (hf : 0 < f.holds d)
    (hseats : seats d (f :: rest) s ≤ (s.client d).pool.toNat) :
    (s.client d).pool = true ∧ d ∉ s.pool.pending ∧ (s.client d).sul = none ∧ s.lws.lives d = 0 := by
  have hpool := Bool.toNat_le (s.client d).pool
  simp only [seats, List.map_cons, List.sum_cons] at hseats
  have hretrying : s.retrying d (f :: rest) = false := by
    rw [← Bool.toNat_eq_zero]
    omega
  simp only [Sys.retrying, Bool.or_eq_false_iff] at hretrying
  refine ⟨?_, List.count_eq_zero.mp (by omega), by simpa using hretrying.1, by omega⟩
  rw [← Bool.toNat_eq_one]
  omega

/-- A client that is about to retry has no other place. -/
theorem seats_retry {f : Frame} (hf : f.retries d = true)
    (hseats : seats d (f :: rest) s ≤ (s.client d).pool.toNat) :
    (s.client d).pool = true ∧ d ∉ s.pool.pending ∧ s.lws.lives d = 0 := by
  have hpool := Bool.toNat_le (s.client d).pool
  have hretrying : s.retrying d (f :: rest) = true := by simp [Sys.retrying, hf]
  simp only [seats, hretrying, Bool.toNat_true] at hseats
  refine ⟨?_, List.count_eq_zero.mp (by omega), by omega⟩
  rw [← Bool.toNat_eq_one]
  omega

/-- A client with a connection has no other place. -/
theorem seats_owned {svc : List Frame} (hlives : 0 < s.lws.lives d)
    (hseats : seats d svc s ≤ (s.client d).pool.toNat) :
    (s.client d).pool = true ∧ d ∉ s.pool.pending ∧ (s.client d).sul = none ∧ s.lws.lives d = 1 := by
  have hpool := Bool.toNat_le (s.client d).pool
  simp only [seats] at hseats
  have hretrying : s.retrying d svc = false := by
    rw [← Bool.toNat_eq_zero]
    omega
  simp only [Sys.retrying, Bool.or_eq_false_iff] at hretrying
  refine ⟨?_, List.count_eq_zero.mp (by omega), by simpa using hretrying.1, by omega⟩
  rw [← Bool.toNat_eq_one]
  omega

theorem schedule_reconnect_agreed {c : wsp_client} {ret : Int} (h : c.asks = true → 0 ≤ ret) :
    (schedule_reconnect c ret).1.state = .STATE_RECONNECT_WAIT ∧
      (schedule_reconnect c ret).1.sul.isSome = true := by
  unfold schedule_reconnect
  dsimp only
  split
  · next hasks =>
    have hret := h hasks
    rw [if_neg (by omega)]
    exact ⟨rfl, rfl⟩
  · exact ⟨rfl, rfl⟩

/-- What `state` says about client `d`. -/
structure States (d : ClientId) (s : Sys) : Prop where
  owned : ∀ w, s.lws.owns d w = true →
    (s.client d).state = .STATE_CONNECTING ∨ (s.client d).state = .STATE_CONNECTED
  armed : (s.client d).sul.isSome = true → (s.client d).state = .STATE_RECONNECT_WAIT
  idle : (s.client d).pool = false ∨ d ∈ s.pool.pending → (s.client d).state = .STATE_IDLE

/-- Neither the state nor the timer changes, and no connection is made. -/
theorem States.same (h : States d s) (hstate : (s'.client d).state = (s.client d).state)
    (hsul : (s'.client d).sul.isSome = true → (s.client d).sul.isSome = true)
    (howns : ∀ w, s'.lws.owns d w = true → s.lws.owns d w = true)
    (hidle : (s'.client d).pool = false ∨ d ∈ s'.pool.pending →
      (s.client d).pool = false ∨ d ∈ s.pool.pending) : States d s' := by
  refine ⟨fun w hw => ?_, fun harmed => ?_, fun hwaits => ?_⟩
  · rw [hstate]
    exact h.owned w (howns w hw)
  · rw [hstate]
    exact h.armed (hsul harmed)
  · rw [hstate]
    exact h.idle (hidle hwaits)

theorem svc_states {f : Frame} {a : Answer} (h : s.svc f a = some (fs, s')) (hb : s.lws.Bounded)
    (hseats : seats d (f :: rest) s ≤ (s.client d).pool.toNat)
    (hok : f = .schedule_arm d → (s.client d).asks = true → 0 ≤ a.ret) (hstates : States d s) :
    States d s' := by
  have hjoined := (svc_served h).1.joined d
  have hpending : d ∈ s'.pool.pending → d ∈ s.pool.pending := by
    intro hmem
    rcases svc_pool h with hpool | ⟨_, _, rfl⟩
    · exact hpool ▸ hmem
    · cases hmem
  have hnone : s.lws.lives d = 0 → f ≠ .do_connect d → ∀ w, ¬ s'.lws.owns d w = true :=
    fun hlives hf w hw => hb.not_owns hlives w
      (((svc_relinks h).owns_of hw).resolve_right (by simpa using hf))
  cases svc_phase h d with
  | same hf hphase =>
    obtain ⟨hstate, hsul⟩ := wsp_client.phase_eq hphase
    refine hstates.same hstate (hsul ▸ id) (fun w hw => ?_) ?_
    · exact ((svc_relinks h).owns_of hw).resolve_right (by simpa using hf)
    · exact Or.imp (hjoined ▸ id) hpending
  | connect hphase =>
    obtain ⟨hstate, hsul⟩ := wsp_client.phase_eq hphase
    obtain ⟨hpool, hnew, hnosul, _⟩ := seats_turn (by simp [Frame.holds]) hseats
    refine ⟨fun _ _ => .inl hstate, fun harmed => ?_, fun hwaits => ?_⟩
    · rw [hsul, hnosul] at harmed
      cases harmed
    · rcases hwaits with hout | hmem
      · rw [hjoined, hpool] at hout
        cases hout
      · exact absurd (hpending hmem) hnew
  | idle hphase =>
    obtain ⟨hstate, hsul⟩ := wsp_client.phase_eq hphase
    obtain ⟨_, _, hnosul, hlives⟩ := seats_turn (by simp [Frame.holds]) hseats
    refine ⟨fun w hw => absurd hw (hnone hlives (by simp) w), fun harmed => ?_, fun _ => hstate⟩
    rw [hsul, hnosul] at harmed
    cases harmed
  | arm hclient =>
    obtain ⟨hstate, _⟩ := schedule_reconnect_agreed (hok rfl)
    obtain ⟨hpool, hnew, hlives⟩ := seats_retry (by simp [Frame.retries]) hseats
    refine ⟨fun w hw => absurd hw (hnone hlives (by simp) w), fun _ => ?_, fun hwaits => ?_⟩
    · rw [hclient, hstate]
    · rcases hwaits with hout | hmem
      · rw [hjoined, hpool] at hout
        cases hout
      · exact absurd (hpending hmem) hnew

/-- Callbacks that leave the connection of their client alone. -/
def quiet : Reason → Bool
  | .CLIENT_RECEIVE _ | .CLIENT_WRITEABLE | .TIMER | .CLIENT_RECEIVE_PONG
  | .CLIENT_APPEND_HANDSHAKE_HEADER => true
  | _ => false

theorem callback_quiet {w : WsiId} {a : Answer} {r : Reason} (h : s.callback d w a r = some (fs, s'))
    (hr : quiet r = true) :
    (s'.client d).phase = (s.client d).phase ∧ (s'.client d).wsi = (s.client d).wsi := by
  have hact : ∀ (x : Sys) (r : wsp_client × List Act), r.1.phase = (s.client d).phase →
      r.1.wsi = (s.client d).wsi → ((x.act d r).client d).phase = (s.client d).phase ∧
        ((x.act d r).client d).wsi = (s.client d).wsi := by
    intro x r hphase hwsi
    rw [Sys.act_client, if_pos rfl]
    exact ⟨hphase, hwsi⟩
  cases r with
  | CLIENT_RECEIVE chunk =>
    simp only [Sys.callback, Option.map_eq_some_iff, Prod.mk.injEq] at h
    obtain ⟨o, ho, rfl, rfl⟩ := h
    obtain ⟨frag, hc⟩ := receive_client ho
    have hkept := hact s (o.client, o.acts) (by rw [hc]; rfl) (by rw [hc])
    split <;> exact hkept
  | CLIENT_WRITEABLE =>
    simp only [Sys.callback] at h
    split at h
    · cases h
      exact hact _ _ rfl rfl
    · split at h <;> cases h
      · exact ⟨rfl, rfl⟩
      · exact hact _ _ rfl rfl
  | TIMER =>
    obtain ⟨send_ping, hc⟩ := timer_client (s.client d) w a.ret
    simp only [Sys.callback, Option.some.injEq, Prod.mk.injEq] at h
    obtain ⟨rfl, rfl⟩ := h
    have hkept := hact (s.setLws (s.lws.modify w fun i => { i with timer := none }))
      ((timer (s.client d) w a.ret).client, (timer (s.client d) w a.ret).acts)
      (by rw [hc]; rfl) (by rw [hc])
    split <;> exact hkept
  | CLIENT_RECEIVE_PONG | CLIENT_APPEND_HANDSHAKE_HEADER =>
    cases h
    exact hact _ _ rfl rfl
  | CLIENT_ESTABLISHED | CLIENT_CONNECTION_ERROR _ | CLIENT_CLOSED | WSI_DESTROY => cases hr

theorem callback_states {w : WsiId} {a : Answer} {r : Reason} (h : s.callback d w a r = some (fs, s'))
    (hb : s.lws.Bounded) (huser : (s.lws.wsi w).any (fun i => i.user == d) = true)
    (henabled : s.lws.enables s.thread w r = true) (hseats : seats d [] s ≤ (s.client d).pool.toNat)
    (hstates : States d s) : States d s' := by
  have hjoined := (callback_served h).1.joined d
  have hidle : (s'.client d).pool = false ∨ d ∈ s'.pool.pending →
      (s.client d).pool = false ∨ d ∈ s.pool.pending := by
    rw [hjoined, callback_pool h]
    exact id
  have howns : ∀ w, s'.lws.owns d w = true → s.lws.owns d w = true := fun w hw =>
    ((callback_relinks h huser henabled).owns_of hw).resolve_right (by simp)
  -- The connection of the callback is the one place of its client.
  have hlink : r ≠ .WSI_DESTROY → s.lws.link w = some (d, r.phase) := fun hr =>
    lws_context.link_of_phase huser (lws_context.phase_of_enables_ne henabled hr)
  have hplace : r ≠ .WSI_DESTROY → r.phase ≠ .closed → (s.client d).pool = true ∧
      d ∉ s.pool.pending ∧ (s.client d).sul = none ∧ s.lws.lives d = 1 := fun hr hp =>
    seats_owned (hb.lives_pos (lws_context.owns_eq_true.mpr ⟨_, hlink hr, hp⟩)) hseats
  have hsame : (s'.client d).phase = (s.client d).phase → States d s' := fun hphase => by
    obtain ⟨hstate, hsul⟩ := wsp_client.phase_eq hphase
    exact hstates.same hstate (hsul ▸ id) howns hidle
  cases r with
  | CLIENT_ESTABLISHED =>
    obtain ⟨hpool, hnew, hnosul, _⟩ := hplace (by simp) (by simp [Reason.phase])
    cases h
    refine ⟨fun _ _ => .inr ?_, fun harmed => ?_, fun hwaits => ?_⟩
    · simp [established]
    · have hnone : (established (s.client d) w).1.sul = none := hnosul
      rw [Sys.act_client, if_pos rfl, hnone] at harmed
      cases harmed
    · rcases hidle hwaits with hout | hmem
      · rw [hpool] at hout
        cases hout
      · exact absurd hmem hnew
  | CLIENT_CLOSED =>
    obtain ⟨_, _, hnosul, hlives⟩ := hplace (by simp) (by simp [Reason.phase])
    have hclosed := hb.lives_close (hlink (by simp)) (by simp [Reason.phase]) d
    have hlast : s'.lws.lives d = 0 := by
      simp only [Sys.callback, Option.some.injEq, Prod.mk.injEq] at h
      obtain ⟨_, rfl⟩ := h
      rw [Sys.act_lives, Sys.setLws_lws]
      rw [beq_self_eq_true, Bool.toNat_true] at hclosed
      omega
    have hb' := (callback_relinks h huser henabled).bounded hb
    simp only [Sys.callback, Option.some.injEq, Prod.mk.injEq] at h
    obtain ⟨_, rfl⟩ := h
    obtain ⟨_, _, _, hc, _⟩ := closed_client (s.client d)
    refine ⟨fun v hv => absurd hv (hb'.not_owns hlast v), fun harmed => ?_, fun _ => ?_⟩
    · rw [Sys.act_client, if_pos rfl, hc] at harmed
      rw [hnosul] at harmed
      cases harmed
    · rw [Sys.act_client, if_pos rfl, hc]
  | CLIENT_CONNECTION_ERROR msg =>
    obtain ⟨_, _, _, hc, _⟩ := connection_error_client (s.client d) msg
    cases h
    exact hsame (by rw [Sys.act_client, if_pos rfl, hc]; rfl)
  | WSI_DESTROY =>
    obtain ⟨_, _, hc, _⟩ := wsi_destroy_client (s.client d) w
    cases h
    exact hsame (by rw [Sys.act_client, if_pos rfl, hc]; rfl)
  | CLIENT_RECEIVE _ | CLIENT_WRITEABLE | TIMER | CLIENT_RECEIVE_PONG
  | CLIENT_APPEND_HANDSHAKE_HEADER => exact hsame (callback_quiet h rfl).1

theorem deliver_states {e : Event} (h : s.deliver e = some (fs, s')) (hb : s.lws.Bounded)
    (hseats : seats d [] s ≤ (s.client d).pool.toNat) (hstates : States d s) : States d s' := by
  have hjoined := (deliver_served h).1.joined d
  have hidle : (s'.client d).pool = false ∨ d ∈ s'.pool.pending →
      (s.client d).pool = false ∨ d ∈ s.pool.pending := by
    rw [hjoined, deliver_pool h]
    exact id
  have howns : ∀ w, s'.lws.owns d w = true → s.lws.owns d w = true := fun w hw =>
    ((deliver_relinks h).owns_of hw).resolve_right (by simp)
  cases e with
  | callback c w r a =>
    simp only [Sys.deliver, Option.ite_none_right_eq_some, Bool.and_eq_true] at h
    by_cases hd : c = d
    · subst hd
      exact callback_states h.2 hb h.1.1 h.1.2 hseats hstates
    · have hclient := (callback_keeps h.2).2 d (Ne.symm hd)
      exact hstates.same (by rw [hclient]) (by rw [hclient]; exact id) howns hidle
  | service_thread | event_wait_cancelled _ | exit =>
    simp only [Sys.deliver, Option.ite_none_right_eq_some, Option.some.injEq, Prod.mk.injEq] at h
    obtain ⟨_, _, rfl⟩ := h
    exact hstates.same rfl id howns hidle
  | sul_reconnect_cb c =>
    simp only [Sys.deliver, Option.ite_none_right_eq_some, Option.some.injEq, Prod.mk.injEq] at h
    obtain ⟨_, _, rfl⟩ := h
    refine hstates.same ?_ ?_ howns hidle
    · rw [Sys.act_client]
      split
      · next hd => rw [hd]
      · rfl
    · rw [Sys.act_client]
      split
      · simp
      · exact id
  | context_destroyed =>
    simp only [Sys.deliver, Option.ite_none_right_eq_some, Option.some.injEq, Prod.mk.injEq] at h
    obtain ⟨_, _, rfl⟩ := h
    exact hstates.same rfl (by simp) howns hidle

variable {ok : Config → Label → Prop} {client : ClientId → wsp_client} {cfg cfg' : Config} {l : Label}

theorem States.step (hmove : system.Moves cfg l cfg') (hlife : Lifecycle cfg) (hlinked : Linked d cfg)
    (hadds : AddedOnce d cfg l) (hok : refuses d cfg l = false) (h : States d cfg.shared) :
    States d cfg'.shared := by
  cases hmove with
  | event hdeliver => exact deliver_states hdeliver hlinked.joined.bounded hlinked.seats h
  | svc hsvc =>
    refine svc_states hsvc hlinked.joined.bounded hlinked.seats (fun hf hasks => ?_) h
    subst hf
    by_contra hneg
    simp [refuses, Frame.arms, hasks] at hok
    omega
  | call _ _ => exact h
  | @app t f a s s' svc app rest fs htop happ =>
    have hadvance := app_advance happ d
    refine h.same hadvance.state (fun harmed => ?_) (fun w hw => ?_) fun hwaits => ?_
    · rcases hadvance.sul with hsame | hnone
      · exact hsame ▸ harmed
      · dsimp only at harmed
        rw [hnone] at harmed
        cases harmed
    · rwa [lws_context.owns_congr (hlinked.links htop happ hlife w)] at hw
    · cases app_registers happ with
      | same _ hs hpending | start _ hs hpending =>
        rwa [hs.joined, hpending] at hwaits
      | clear _ hs hpending =>
        rw [hs.joined, hpending] at hwaits
        exact hwaits.imp_right (by simp)
      | @add c _ _ hpending hjoined =>
        by_cases hd : d = c
        · subst hd
          exact .inl (hadds ⟨_, htop⟩)
        · rw [hjoined, if_neg hd, hpending, List.mem_append] at hwaits
          exact hwaits.imp_right fun hmem => hmem.resolve_right (by simpa using hd)

/-- The frame leads client `d` to a connection or to an armed timer. -/
def Frame.leads (d : ClientId) : Frame → Bool
  | .do_connect c | .connect_return c _ | .schedule_reconnect c | .schedule_arm c => c == d
  | .wc_connect pend => pend.contains d
  | _ => false

/-- The service thread is not done with the pool. -/
def Sys.Serving (s : Sys) : Prop := s.freed = false ∧ s.thread ≠ .destroying ∧ s.thread ≠ .exited

/-- Client `d` is pending, has a connection or an armed timer, or is on its way
    to one of them. -/
def Place (d : ClientId) (svc : List Frame) (s : Sys) : Prop :=
  d ∈ s.pool.pending ∨ (∃ f ∈ svc, f.leads d = true) ∨ (s.client d).sul.isSome = true ∨
    (s.client d).wsi.isSome = true

/-- The client keeps its place, or is led to another. -/
theorem Place.pass {f : Frame} (h : Place d (f :: rest) s)
    (hpending : d ∈ s.pool.pending → d ∈ s'.pool.pending)
    (hsul : (s.client d).sul.isSome = true → (s'.client d).sul.isSome = true)
    (hwsi : (s.client d).wsi.isSome = true → (s'.client d).wsi.isSome = true)
    (hleads : f.leads d = true → Place d (fs ++ rest) s') : Place d (fs ++ rest) s' := by
  rcases h with hmem | ⟨g, hg, hlead⟩ | harmed | hup
  · exact .inl (hpending hmem)
  · rcases List.mem_cons.mp hg with rfl | hg
    · exact hleads hlead
    · exact .inr (.inl ⟨g, List.mem_append_right _ hg, hlead⟩)
  · exact .inr (.inr (.inl (hsul harmed)))
  · exact .inr (.inr (.inr (hwsi hup)))

theorem Place.of_frame {f : Frame} {svc : List Frame} (hf : f ∈ svc) (hleads : f.leads d = true) :
    Place d svc s :=
  .inr (.inl ⟨f, hf, hleads⟩)

theorem svc_place {f : Frame} {a : Answer} (h : s.svc f a = some (fs, s'))
    (hjoined : Joined d (f :: rest) s) (hone : seats d (f :: rest) s ≤ 1)
    (hok : f = .schedule_arm d → (s.client d).asks = true → 0 ≤ a.ret)
    (hstop : (s.client d).stopping = false) (hplace : Place d (f :: rest) s) :
    Place d (fs ++ rest) s' := by
  -- A section that touches no client but in its counters, and leads none.
  have hsame : f.leads d = false → s'.pool = s.pool → (s'.client d).sul = (s.client d).sul →
      (s'.client d).wsi = (s.client d).wsi → Place d (fs ++ rest) s' := by
    intro hf hpool hsul hwsi
    refine hplace.pass (hpool ▸ id) (hsul ▸ id) (hwsi ▸ id) fun hlead => ?_
    rw [hf] at hlead
    cases hlead
  -- Inside a failing connect call there is no connection to forget.
  have hforget : f.retries d = true → f.leads d = false → s'.pool = s.pool →
      (s'.client d).sul = (s.client d).sul → Place d (fs ++ rest) s' := by
    intro hretries hf hpool hsul
    have hnone := (hjoined.no_wsi (lives_of_retries hretries hone)).1
    refine hplace.pass (hpool ▸ id) (hsul ▸ id) (fun hup => ?_) fun hlead => ?_
    · rw [hnone] at hup
      cases hup
    · rw [hf] at hlead
      cases hlead
  cases f with
  | do_connect c =>
    obtain ⟨⟨hpool, _, hclient, _⟩, hspec⟩ := do_connect_spec h
    have hkept : (s'.client d).sul = (s.client d).sul ∧ (s'.client d).wsi = (s.client d).wsi := by
      rw [hclient]
      split
      · next hd => rw [hd]; exact ⟨rfl, rfl⟩
      · exact ⟨rfl, rfl⟩
    refine hplace.pass (hpool ▸ id) (hkept.1 ▸ id) (hkept.2 ▸ id) fun hlead => ?_
    rcases hspec with ⟨rfl, _⟩ | ⟨error, destroyed, rfl, _⟩
    · exact .of_frame (f := .connect_return c (some s.lws.next)) (by simp) hlead
    · exact .of_frame (f := .connect_return c none) (by simp) hlead
  | connection_error c msg =>
    obtain ⟨_, _, _, hc, _⟩ := connection_error_client (s.client c) msg
    cases h
    by_cases hd : c = d
    · subst hd
      exact hforget (by simp [Frame.retries]) rfl rfl (Sys.act_sul (by rw [hc]) c)
    · have hclient : (s.act c (connection_error (s.client c) msg)).client d = s.client d := by
        rw [Sys.act_client, if_neg (Ne.symm hd)]
      exact hsame rfl rfl (by rw [hclient]) (by rw [hclient])
  | wsi_destroy c w =>
    obtain ⟨_, _, hc, _⟩ := wsi_destroy_client (s.client c) w
    cases h
    by_cases hd : c = d
    · subst hd
      exact hforget (by simp [Frame.retries]) rfl rfl (Sys.act_sul (by rw [hc]) c)
    · have hclient : (s.act c (wsi_destroy (s.client c) w, [])).client d = s.client d := by
        rw [Sys.act_client, if_neg (Ne.symm hd)]
      exact hsame rfl rfl (by rw [hclient]) (by rw [hclient])
  | connect_return c wsi =>
    cases h
    by_cases hd : c = d
    · subst hd
      cases wsi with
      | none => exact .of_frame (f := .schedule_reconnect c) (by simp) (by simp [Frame.leads])
      | some w => exact .inr (.inr (.inr (by simp)))
    · have hclient : (s.act c ({ s.client c with wsi }, [])).client d = s.client d := by
        rw [Sys.act_client, if_neg (Ne.symm hd)]
      exact hsame (by simpa [Frame.leads] using hd) rfl (by rw [hclient]) (by rw [hclient])
  | schedule_reconnect c =>
    cases h
    refine hplace.pass id id id fun hlead => ?_
    obtain rfl : c = d := beq_iff_eq.mp hlead
    rw [hstop]
    exact .of_frame (f := .schedule_arm c) (by simp) hlead
  | schedule_arm c =>
    cases h
    by_cases hd : c = d
    · subst hd
      refine .inr (.inr (.inl ?_))
      rw [Sys.act_client, if_pos rfl]
      exact (schedule_reconnect_agreed (hok rfl)).2
    · have hclient : (s.act c (schedule_reconnect (s.client c) a.ret)).client d = s.client d := by
        rw [Sys.act_client, if_neg (Ne.symm hd)]
      exact hsame (by simpa [Frame.leads] using hd) rfl (by rw [hclient]) (by rw [hclient])
  | event_wait_cancelled =>
    cases h
    rcases hplace with hmem | hplace
    · exact .of_frame (f := .wc_connect s.pool.pending) (by simp) (by simpa [Frame.leads] using hmem)
    · rcases hplace with ⟨g, hg, hlead⟩ | hplace
      · rcases List.mem_cons.mp hg with rfl | hg
        · cases hlead
        · exact .of_frame (List.mem_append_right _ hg) hlead
      · exact .inr (.inr hplace)
  | wc_connect pend =>
    cases pend with
    | nil =>
      cases h
      exact hsame rfl rfl rfl rfl
    | cons c pend =>
      cases h
      have hview : ((s.act c ({ s.client c with state := .STATE_IDLE }, [])).client d).wsi =
          (s.client d).wsi := by
        rw [Sys.act_client]
        split
        · next hd => rw [hd]
        · rfl
      refine hplace.pass id ?_ (hview ▸ id) fun hlead => ?_
      · rw [Sys.act_sul (r := ({ s.client c with state := .STATE_IDLE }, [])) rfl d]
        exact id
      · simp only [Frame.leads, List.contains_cons, Bool.or_eq_true, beq_iff_eq] at hlead
        rcases hlead with rfl | hlead
        · exact .of_frame (f := .do_connect d) (by simp) (by simp [Frame.leads])
        · exact .of_frame (f := .wc_connect pend) (by simp) hlead
  | write c w n more =>
    have hsul : ((s.act c (s.client c, writeable_write n w)).client d).sul = (s.client d).sul :=
      Sys.act_sul rfl d
    have hwsi := (wsp_client.view_eq (Sys.act_view (s := s) (c := c)
      (r := (s.client c, writeable_write n w)) rfl d)).1
    simp only [Sys.svc] at h
    split at h <;> cases h <;> exact hsame rfl rfl hsul hwsi
  | lws_callback_on_writable c w =>
    cases h
    exact hsame rfl rfl (Sys.act_sul rfl d) (wsp_client.view_eq (Sys.act_view rfl d)).1
  | has_data_check _ _ | wc_snapshot =>
    cases h
    exact hsame rfl rfl rfl rfl
  | wc_visit snap =>
    cases snap with
    | nil =>
      cases h
      exact hsame rfl rfl rfl rfl
    | cons c snap =>
      simp only [Sys.svc] at h
      split at h
      · cases h
        exact hsame rfl rfl rfl rfl
      · split at h
        · cases h
          exact hsame rfl rfl (Sys.act_sul rfl d) (wsp_client.view_eq (Sys.act_view rfl d)).1
        · split at h <;> cases h <;> exact hsame rfl rfl rfl rfl

theorem callback_place {w : WsiId} {a : Answer} {r : Reason} (h : s.callback d w a r = some (fs, s'))
    (hjoined : Joined d [] s) (huser : (s.lws.wsi w).any (fun i => i.user == d) = true)
    (henabled : s.lws.enables s.thread w r = true) (hrun : s.thread = .running)
    (hstop : (s.client d).stopping = false) (hplace : Place d [] s) : Place d fs s' := by
  have hsame : (s'.client d).sul = (s.client d).sul → (s'.client d).wsi = (s.client d).wsi →
      Place d fs s' := by
    intro hsul hwsi
    rw [Place, callback_pool h, hsul, hwsi]
    exact hplace.imp_right (Or.imp_left fun ⟨_, hf, _⟩ => by cases hf)
  cases r with
  | CLIENT_CONNECTION_ERROR _ | CLIENT_CLOSED =>
    cases h
    rw [hstop]
    exact .of_frame (f := .schedule_reconnect d) (by simp) (by simp [Frame.leads])
  | WSI_DESTROY =>
    -- The client has already forgotten a connection that is closed.
    have hphase : s.lws.phase w = some .closed := by
      rw [hrun] at henabled
      exact lws_context.phase_of_enables henabled
    have hlink := lws_context.link_of_phase huser hphase
    have hwsi : (s.client d).wsi ≠ some w := by
      intro hw
      obtain ⟨p, hlink', hp⟩ := lws_context.owns_eq_true.mp (hjoined.owned w hw)
      rw [hlink] at hlink'
      cases hlink'
      exact hp rfl
    obtain ⟨_, _, hc, _⟩ := wsi_destroy_client (s.client d) w
    cases h
    refine hsame ?_ ?_
    · rw [Sys.act_client, if_pos rfl, hc]
    · rw [Sys.act_client, if_pos rfl, hc]
      exact if_neg hwsi
  | CLIENT_ESTABLISHED =>
    cases h
    refine hsame ?_ ?_ <;> rw [Sys.act_client, if_pos rfl] <;> rfl
  | CLIENT_RECEIVE _ | CLIENT_WRITEABLE | TIMER | CLIENT_RECEIVE_PONG
  | CLIENT_APPEND_HANDSHAKE_HEADER =>
    obtain ⟨hphase, hwsi⟩ := callback_quiet h rfl
    exact hsame (wsp_client.phase_eq hphase).2 hwsi

theorem deliver_place {e : Event} (h : s.deliver e = some (fs, s')) (hjoined : Joined d [] s)
    (hserving : s'.Serving) (hstop : (s.client d).stopping = false) (hplace : Place d [] s) :
    Place d fs s' := by
  have hsame : s'.client d = s.client d → Place d fs s' := by
    intro hclient
    rw [Place, deliver_pool h, hclient]
    exact hplace.imp_right (Or.imp_left fun ⟨_, hf, _⟩ => by cases hf)
  have hran := deliver_ran h
  cases e with
  | callback c w r a =>
    simp only [Sys.deliver, Option.ite_none_right_eq_some, Bool.and_eq_true] at h
    obtain ⟨⟨huser, henabled⟩, h⟩ := h
    by_cases hd : c = d
    · subst hd
      have hrun : s.thread = .running := by
        rw [← (callback_served h).2]
        cases hcase : s'.thread with
        | running => rfl
        | none => exact absurd (.inl hcase) hran
        | created => exact absurd (.inr hcase) hran
        | exited => exact absurd hcase hserving.2.2
        | destroying => exact absurd hcase hserving.2.1
      exact callback_place h hjoined huser henabled hrun hstop hplace
    · exact hsame ((callback_keeps h).2 d (Ne.symm hd))
  | service_thread | event_wait_cancelled _ =>
    simp only [Sys.deliver, Option.ite_none_right_eq_some, Option.some.injEq, Prod.mk.injEq] at h
    obtain ⟨_, _, rfl⟩ := h
    exact hsame rfl
  | sul_reconnect_cb c =>
    simp only [Sys.deliver, Option.ite_none_right_eq_some, Option.some.injEq, Prod.mk.injEq] at h
    obtain ⟨_, rfl, rfl⟩ := h
    by_cases hd : c = d
    · subst hd
      rw [hstop]
      exact .of_frame (f := .do_connect c) (by simp) (by simp [Frame.leads])
    · exact hsame (by rw [Sys.act_client, if_neg (Ne.symm hd)])
  | exit | context_destroyed =>
    simp only [Sys.deliver, Option.ite_none_right_eq_some, Option.some.injEq, Prod.mk.injEq] at h
    obtain ⟨_, _, rfl⟩ := h
    exact absurd rfl hserving.2.2

/-- Client `d` has a place, when it is in a pool and not stopping. -/
def Placed (d : ClientId) (cfg : Config) : Prop :=
  cfg.shared.Serving → (cfg.shared.client d).pool = true → (cfg.shared.client d).stopping = false →
    Place d cfg.svc cfg.shared

/-- No API call makes a service thread that is done serve the pool again. -/
theorem app_serving {t : Nat} {f : AppFrame} {a : Answer} {svc : List Frame}
    {app : Nat → List AppFrame} {gs frames : List AppFrame} (htop : app t = f :: frames)
    (h : s.app f a = some (gs, s')) (hlife : Lifecycle ⟨s, svc, app⟩) (hserving : s'.Serving) :
    s.Serving := by
  refine ⟨?_, ?_⟩
  · rcases app_freed h with hsame | ⟨_, _, hgone⟩
    · exact hsame ▸ hserving.1
    · rw [hserving.1] at hgone
      cases hgone
  · rcases app_thread h with hsame | ⟨rfl, _⟩ | ⟨_, hdestroying⟩
    · rw [← hsame]
      exact hserving.2
    · rw [hlife.none htop (.inr rfl)]
      decide
    · exact absurd hdestroying hserving.2.1

/-- No event does either. -/
theorem Turns.serving (h : Turns s s')
    (hserving : s'.thread ≠ .destroying ∧ s'.thread ≠ .exited) :
    s.thread ≠ .destroying ∧ s.thread ≠ .exited := by
  cases h with
  | stay hsame => exact hsame ▸ hserving
  | run hcreated _ =>
    rw [hcreated]
    decide
  | exit _ _ hexited | destroyed _ hexited => exact absurd hexited hserving.2

theorem Placed.step (hmove : system.Moves cfg l cfg') (hlife : Lifecycle cfg) (hlinked : Linked d cfg)
    (hstops : ∀ t f, f ∈ cfg.app t → f.stops = some d → (cfg.shared.client d).stopping = true)
    (hadds : AddedOnce d cfg l) (hok : refuses d cfg l = false) (h : Placed d cfg) : Placed d cfg' := by
  intro hserving hpool hstop
  cases hmove with
  | event hdeliver =>
    obtain ⟨hserved, hturns, _⟩ := deliver_served hdeliver
    have hbefore : Sys.Serving _ := ⟨hserved.freed ▸ hserving.1, hturns.serving hserving.2⟩
    have hstopping := (hserved.stopping d).symm.trans hstop
    exact deliver_place hdeliver hlinked.joined hserving hstopping
      (h hbefore ((hserved.joined d).symm.trans hpool) hstopping)
  | svc hsvc =>
    obtain ⟨hserved, hthread⟩ := svc_served hsvc
    have hbefore : Sys.Serving _ := ⟨hserved.freed ▸ hserving.1, hthread ▸ hserving.2⟩
    have hstopping := (hserved.stopping d).symm.trans hstop
    refine svc_place hsvc hlinked.joined hlinked.one (fun hf hasks => ?_) hstopping
      (h hbefore ((hserved.joined d).symm.trans hpool) hstopping)
    subst hf
    by_contra hneg
    simp [refuses, Frame.arms, hasks] at hok
    omega
  | call _ _ => exact h hserving hpool hstop
  | @app t f a s s' svc app rest fs htop happ =>
    have hadvance := app_advance happ d
    have hstopping : (s.client d).stopping = false := by
      by_contra hstopped
      have hstill := hadvance.stopping (by simpa using hstopped)
      rw [hstop] at hstill
      cases hstill
    have hsul : (s'.client d).sul = (s.client d).sul := by
      refine (app_attempts happ d).2.1.resolve_right fun hf => ?_
      have hstopped := hstops t f (by simp [htop]) (by rw [hf]; rfl)
      rw [hstopping] at hstopped
      cases hstopped
    have hbefore := h (app_serving htop happ hlife hserving)
    have hkept : (s.client d).pool = true → (d ∈ s.pool.pending → d ∈ s'.pool.pending) →
        Place d svc s' := by
      intro hjoined hpending
      rw [Place, hsul, hadvance.wsi]
      exact (hbefore hjoined hstopping).imp_left hpending
    cases app_registers happ with
    | same _ hs hpending | start _ hs hpending =>
      exact hkept ((hs.joined d).symm.trans hpool) (hpending ▸ id)
    | clear _ _ _ =>
      simp only [system, Sys.app, Option.map_eq_some_iff, Prod.mk.injEq] at happ
      obtain ⟨_, _, _, rfl⟩ := happ
      cases hserving.1
    | @add c _ _ hpending hjoined =>
      by_cases hd : d = c
      · subst hd
        exact .inl (by simp [hpending])
      · refine hkept ?_ fun hmem => by simp [hpending, hmem]
        dsimp only at hpool
        rwa [hjoined, if_neg hd] at hpool

section runs

variable (hadds : ∀ cfg l, ok cfg l → AddedOnce d cfg l)
  (hagreed : ∀ cfg l, ok cfg l → refuses d cfg l = false)
  (hfresh : ∀ c, (client c).Fresh) (h : system.Reaches ok (initial client) cfg)

include hadds hagreed hfresh h

theorem Reaches.states : States d cfg.shared := by
  refine h.invariant_under (I := fun cfg => States d cfg.shared)
    (fun _ hmid => And.intro (Reaches.lifecycle hmid) (Reaches.linked hadds hfresh hmid)) ?_
    fun _ _ _ ⟨hlife, hlinked⟩ hok hmove =>
      States.step hmove hlife hlinked (hadds _ _ hok) (hagreed _ _ hok)
  refine ⟨fun w hw => (by cases hw), fun harmed => ?_, fun _ => (hfresh d).state⟩
  have hnone : ((initial client).shared.client d).sul = none := (hfresh d).sul
  rw [hnone] at harmed
  cases harmed

theorem Reaches.placed : Placed d cfg := by
  refine h.invariant_under (I := Placed d)
    (fun mid hmid => And.intro (Reaches.lifecycle hmid) (And.intro (Reaches.linked hadds hfresh hmid)
      fun t f hf hc => Reaches.stopping hmid (t := t) hf hc)) ?_
    fun _ _ _ ⟨hlife, hlinked, hstops⟩ hok hmove =>
      Placed.step hmove hlife hlinked hstops (hadds _ _ hok) (hagreed _ _ hok)
  intro _ hpool
  have hout : ((initial client).shared.client d).pool = false := (hfresh d).pool
  rw [hout] at hpool
  cases hpool

/-- Between two callbacks a client of the pool that is not stopping is pending, has
    one live connection, or its timer is armed, as `state` says. -/
theorem one_place (hserving : cfg.shared.Serving) (hidle : cfg.svc = [])
    (hpool : (cfg.shared.client d).pool = true) (hstop : (cfg.shared.client d).stopping = false) :
    (d ∈ cfg.shared.pool.pending ∧ (∀ v, cfg.shared.lws.owns d v = false) ∧
      (cfg.shared.client d).sul = none ∧ (cfg.shared.client d).state = .STATE_IDLE) ∨
    (d ∉ cfg.shared.pool.pending ∧ (∃ w, (cfg.shared.client d).wsi = some w ∧
        cfg.shared.lws.owns d w = true ∧ ∀ v, cfg.shared.lws.owns d v = true → v = w) ∧
      (cfg.shared.client d).sul = none ∧
      ((cfg.shared.client d).state = .STATE_CONNECTING ∨
        (cfg.shared.client d).state = .STATE_CONNECTED)) ∨
    (d ∉ cfg.shared.pool.pending ∧ (∀ v, cfg.shared.lws.owns d v = false) ∧
      (cfg.shared.client d).sul.isSome = true ∧
      (cfg.shared.client d).state = .STATE_RECONNECT_WAIT) := by
  have hstates := Reaches.states hadds hagreed hfresh h
  have hlinked := Reaches.linked hadds hfresh h
  have hjoined := hlinked.joined
  have hone := hlinked.one
  have hseats := hlinked.seats
  rw [hidle] at hone hseats
  simp only [seats, Sys.retrying, List.map_nil, List.sum_nil, List.any_nil, Bool.or_false] at hone
  rcases Reaches.placed hadds hagreed hfresh h hserving hpool hstop with hmem | ⟨f, hf, _⟩ | harmed | hup
  · have hcount := List.count_pos_iff.mpr hmem
    have hnosul : (cfg.shared.client d).sul.isSome = false := by
      rw [← Bool.toNat_eq_zero]
      omega
    exact .inl ⟨hmem, (hjoined.no_wsi (by omega)).2, by simpa using hnosul, hstates.idle (.inr hmem)⟩
  · rw [hidle] at hf
    cases hf
  · rw [harmed, Bool.toNat_true] at hone
    exact .inr (.inr ⟨List.count_eq_zero.mp (by omega), (hjoined.no_wsi (by omega)).2, harmed,
      hstates.armed harmed⟩)
  · obtain ⟨w, hw⟩ := Option.isSome_iff_exists.mp hup
    have howns := hjoined.owned w hw
    obtain ⟨_, hnew, hnosul, hlives⟩ := seats_owned (hjoined.bounded.lives_pos howns) hseats
    exact .inr (.inl ⟨hnew, ⟨w, hw, howns, fun v hv =>
      hjoined.bounded.unique (Nat.le_of_eq hlives) hv howns⟩, hnosul, hstates.owned w howns⟩)

end runs

end lws_client.ws_pool
