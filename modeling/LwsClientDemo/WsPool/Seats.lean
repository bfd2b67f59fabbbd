import LwsClientDemo.Population
import LwsClientDemo.WsPool.Lifecycle

open interleaving

namespace lws_client.ws_pool

/-- How often a frame holds the turn of client `d` to be connected. -/
def Frame.holds (d : ClientId) : Frame → Nat
  | .do_connect c => (c == d).toNat
  | .wc_connect pend => pend.count d
  | _ => 0

/-- The frame is on its way to arming the reconnect timer of client `d`. -/
def Frame.retries (d : ClientId) : Frame → Bool
  | .connection_error c _ | .wsi_destroy c _ | .connect_return c none | .schedule_reconnect c
  | .schedule_arm c => c == d
  | _ => false

/-- The reconnect timer of client `d` is armed, or about to be. -/
def Sys.retrying (s : Sys) (d : ClientId) (fs : List Frame) : Bool :=
  (s.client d).sul.isSome || fs.any (Frame.retries d)

/-- The places from which client `d` is or will be connected: `pending`, the
    batch taken from it, a connect call, the reconnect timer, a connection. -/
def seats (d : ClientId) (fs : List Frame) (s : Sys) : Nat :=
  s.pool.pending.count d + (fs.map (Frame.holds d)).sum + (s.retrying d fs).toNat + s.lws.lives d

variable {d : ClientId} {s s' : Sys} {fs rest : List Frame}

/-- A section that frees a place, or takes none. -/
theorem seats_le_of_retrying {gs : List Frame} (hpending : s'.pool.pending = s.pool.pending)
    (hlives : s'.lws.lives d ≤ s.lws.lives d)
    (hholds : (fs.map (Frame.holds d)).sum ≤ (gs.map (Frame.holds d)).sum)
    (hretrying : s'.retrying d fs = true → s.retrying d gs = true) :
    seats d (fs ++ rest) s' ≤ seats d (gs ++ rest) s := by
  have hle : (s'.retrying d (fs ++ rest)).toNat ≤ (s.retrying d (gs ++ rest)).toNat := by
    apply Bool.toNat_le_toNat
    intro h
    simp only [Sys.retrying, List.any_append, Bool.or_eq_true] at h hretrying ⊢
    tauto
  simp only [seats, List.map_append, List.sum_append, hpending]
  omega

theorem seats_le {gs : List Frame} (hpending : s'.pool.pending = s.pool.pending)
    (hsul : (s'.client d).sul.isSome = true → (s.client d).sul.isSome = true)
    (hlives : s'.lws.lives d ≤ s.lws.lives d)
    (hholds : (fs.map (Frame.holds d)).sum ≤ (gs.map (Frame.holds d)).sum)
    (hretries : fs.any (Frame.retries d) = true → gs.any (Frame.retries d) = true) :
    seats d (fs ++ rest) s' ≤ seats d (gs ++ rest) s := by
  apply seats_le_of_retrying hpending hlives hholds
  simp only [Sys.retrying, Bool.or_eq_true]
  exact Or.imp hsul hretries

theorem Sys.act_lives (s : Sys) (c : ClientId) (r : wsp_client × List Act) (d : ClientId) :
    (s.act c r).lws.lives d = s.lws.lives d :=
  (s.lws.sameLinks_performs r.2).lives d

/-- A client whose timer is left alone keeps it. -/
theorem Sys.act_sul {s : Sys} {c : ClientId} {r : wsp_client × List Act}
    (h : r.1.sul = (s.client c).sul) (d : ClientId) :
    ((s.act c r).client d).sul = (s.client d).sul :=
  Sys.act_field (·.sul) h d

/-- A section that is silent about the connections of all clients. -/
theorem seats_act_le {gs : List Frame} {c : ClientId} {r : wsp_client × List Act}
    (hsul : r.1.sul = (s.client c).sul)
    (hholds : (fs.map (Frame.holds d)).sum ≤ (gs.map (Frame.holds d)).sum)
    (hretries : fs.any (Frame.retries d) = true → gs.any (Frame.retries d) = true) :
    seats d (fs ++ rest) (s.act c r) ≤ seats d (gs ++ rest) s :=
  seats_le rfl (fun h => by rwa [Sys.act_sul hsul] at h) (Nat.le_of_eq (s.act_lives c r d)) hholds
    hretries

/-- A client that holds a turn to be connected trades it for the timer. -/
theorem seats_trade {gs : List Frame} (hpending : s'.pool.pending = s.pool.pending)
    (hlives : s'.lws.lives d ≤ s.lws.lives d)
    (hholds : (fs.map (Frame.holds d)).sum + 1 ≤ (gs.map (Frame.holds d)).sum) :
    seats d (fs ++ rest) s' ≤ seats d (gs ++ rest) s := by
  have hone := Bool.toNat_le (s'.retrying d (fs ++ rest))
  simp only [seats, List.map_append, List.sum_append, hpending]
  omega

/-- No section of the service thread gives a client a second place. -/
theorem svc_seats (d : ClientId) (rest : List Frame) {f : Frame} {a : Answer} (h : s.svc f a = some (fs, s')) (hb : s.lws.Bounded) :
    seats d (fs ++ rest) s' ≤ seats d ([f] ++ rest) s := by
  cases f with
  | do_connect c =>
    obtain ⟨⟨hpool, _, hclient, _⟩, hspec⟩ := do_connect_spec h
    have hsul : (s'.client d).sul = (s.client d).sul := by
      rw [hclient]
      split
      · next hd => rw [hd]
      · rfl
    have hturn : (([.do_connect c] : List Frame).map (Frame.holds d)).sum = (c == d).toNat := rfl
    rcases hspec with ⟨rfl, hlws⟩ | ⟨error, destroyed, rfl, hlws⟩
    · -- The turn becomes a connection.
      have hlives := lws_context.lives_connect s.lws c d
      have hretrying : s'.retrying d ([.connect_return c (some s.lws.next)] ++ rest) =
          s.retrying d ([.do_connect c] ++ rest) := by
        simp only [Sys.retrying, hsul]
        rfl
      have hnone : (([.connect_return c (some s.lws.next)] : List Frame).map (Frame.holds d)).sum = 0 :=
        rfl
      simp only [seats, List.map_append, List.sum_append, hturn, hnone, hretrying, hpool, hlws]
      omega
    · -- The turn becomes a retry.
      have hlives := lws_context.lives_skip hb d
      rw [← hlws] at hlives
      by_cases hd : c = d
      · have hnone : ((((error.map (Frame.connection_error c)).toList ++
            (if destroyed then [.wsi_destroy c s.lws.next] else []) ++
              [.connect_return c none]) : List Frame).map (Frame.holds d)).sum = 0 := by
          cases error <;> cases destroyed <;> rfl
        refine seats_trade (by rw [hpool]) (Nat.le_of_eq hlives) ?_
        rw [hnone, hturn, hd, beq_self_eq_true]
        rfl
      · refine seats_le (by rw [hpool]) (fun h => hsul ▸ h) (Nat.le_of_eq hlives) ?_ ?_
        · cases error <;> cases destroyed <;> simp [Frame.holds]
        · cases error <;> cases destroyed <;> simp [Frame.retries, hd]
  | connection_error c msg =>
    simp only [Sys.svc, Option.some.injEq, Prod.mk.injEq] at h
    obtain ⟨rfl, rfl⟩ := h
    obtain ⟨_, _, _, hc, _⟩ := connection_error_client (s.client c) msg
    refine seats_act_le (by rw [hc]) (by split <;> simp [Frame.holds]) ?_
    split <;> simp [Frame.retries]
  | wsi_destroy c w =>
    cases h
    obtain ⟨_, _, hc, _⟩ := wsi_destroy_client (s.client c) w
    exact seats_act_le (by rw [hc]) (by simp) (by simp)
  | connect_return c wsi =>
    simp only [Sys.svc, Option.some.injEq, Prod.mk.injEq] at h
    obtain ⟨rfl, rfl⟩ := h
    refine seats_act_le rfl (by split <;> simp [Frame.holds]) ?_
    cases wsi <;> simp [Frame.retries]
  | schedule_reconnect c =>
    simp only [Sys.svc, Option.some.injEq, Prod.mk.injEq] at h
    obtain ⟨rfl, rfl⟩ := h
    refine seats_le rfl id (Nat.le_refl _) (by split <;> simp [Frame.holds]) ?_
    split <;> simp [Frame.retries]
  | schedule_arm c =>
    cases h
    by_cases hd : c = d
    · subst hd
      exact seats_le_of_retrying rfl (Nat.le_of_eq (s.act_lives c _ c)) (by simp [Frame.holds])
        fun _ => by simp [Sys.retrying, Frame.retries]
    · have hclient : ((s.act c (schedule_reconnect (s.client c) a.ret)).client d) = s.client d := by
        simp [Ne.symm hd]
      exact seats_le rfl (fun h => hclient ▸ h) (Nat.le_of_eq (s.act_lives c _ d))
        (by simp [Frame.holds]) (by simp)
  | has_data_check c w =>
    simp only [Sys.svc, Option.some.injEq, Prod.mk.injEq] at h
    obtain ⟨rfl, rfl⟩ := h
    refine seats_le rfl id (Nat.le_refl _) (by split <;> simp [Frame.holds]) ?_
    split <;> simp [Frame.retries]
  | lws_callback_on_writable c w =>
    cases h
    exact seats_act_le rfl (by simp) (by simp)
  | write c w n more =>
    have hsul : ∀ e, ((s.act c (s.client c, writeable_write n w)).client e).sul = (s.client e).sul :=
      Sys.act_sul rfl
    have hlives := s.act_lives c (s.client c, writeable_write n w) d
    simp only [Sys.svc] at h
    split at h
    · cases h
      have hfail := (lws_context.sameLinks_fail (s.act c (s.client c, writeable_write n w)).lws w).lives d
      exact seats_le rfl (fun h => hsul d ▸ h) (Nat.le_of_eq (hfail.trans hlives)) (by simp) (by simp)
    · simp only [Option.some.injEq, Prod.mk.injEq] at h
      obtain ⟨rfl, rfl⟩ := h
      refine seats_le rfl (fun h => hsul d ▸ h) (Nat.le_of_eq hlives) ?_ ?_
      · split <;> simp [Frame.holds]
      · split <;> simp [Frame.retries]
  | event_wait_cancelled =>
    cases h
    -- The pending clients become the batch.
    have hretrying : Sys.retrying (s.setPool { s.pool with pending := [] }) d
        ([.wc_connect s.pool.pending] ++ rest) = s.retrying d ([.event_wait_cancelled] ++ rest) := rfl
    simp only [seats, List.map_append, List.sum_append, hretrying]
    simp [Frame.holds, Sys.setPool]
  | wc_connect pend =>
    cases pend with
    | nil =>
      cases h
      exact seats_le rfl id (Nat.le_refl _) (by simp [Frame.holds]) (by simp [Frame.retries])
    | cons c pend =>
      cases h
      refine seats_act_le rfl ?_ (by simp [Frame.retries])
      cases hcd : c == d <;> simp [Frame.holds, List.count_cons, hcd, Nat.add_comm]
  | wc_snapshot =>
    cases h
    exact seats_le rfl id (Nat.le_refl _) (by simp [Frame.holds]) (by simp [Frame.retries])
  | wc_visit snap =>
    cases snap with
    | nil =>
      cases h
      exact seats_le rfl id (Nat.le_refl _) (by simp) (by simp)
    | cons c snap =>
      simp only [Sys.svc] at h
      split at h
      · cases h
        exact seats_le rfl id (Nat.le_refl _) (by simp [Frame.holds]) (by simp [Frame.retries])
      · split at h
        · cases h
          exact seats_act_le rfl (by simp [Frame.holds]) (by simp [Frame.retries])
        · split at h <;> cases h <;>
            exact seats_le rfl id (Nat.le_refl _) (by simp [Frame.holds]) (by simp [Frame.retries])

/-- The end of a connection of client `c` frees its place; the retry that
    follows takes it. -/
theorem seats_close {c : ClientId} {w : WsiId} {p : WsiPhase} {r : wsp_client × List Act}
    {fs : List Frame} (hb : s.lws.Bounded) (hlink : s.lws.link w = some (c, p)) (hp : p ≠ .closed)
    (hsul : r.1.sul = (s.client c).sul) (hfs : fs = [] ∨ fs = [.schedule_reconnect c]) :
    seats d fs ((s.setLws (s.lws.setPhase w .closed)).act c r) ≤ seats d [] s := by
  have hlives := hb.lives_close hlink hp d
  have hact := (s.setLws (s.lws.setPhase w .closed)).act_lives c r d
  have hsul' : (((s.setLws (s.lws.setPhase w .closed)).act c r).client d).sul = (s.client d).sul :=
    Sys.act_sul hsul d
  rw [Sys.setLws_lws] at hact
  have hnone : (fs.map (Frame.holds d)).sum = 0 := by
    rcases hfs with rfl | rfl <;> rfl
  by_cases hd : c = d
  · subst hd
    have hone := Bool.toNat_le (((s.setLws (s.lws.setPhase w .closed)).act c r).retrying c fs)
    rw [beq_self_eq_true, Bool.toNat_true] at hlives
    simp only [seats, hact, hnone, List.map_nil, List.sum_nil]
    change s.pool.pending.count c + _ + _ + _ ≤ _
    omega
  · have hretries : fs.any (Frame.retries d) = false := by
      rcases hfs with rfl | rfl
      · rfl
      · simp [Frame.retries, hd]
    rw [beq_false_of_ne hd, Bool.toNat_false, Nat.add_zero] at hlives
    simp only [seats, hact, hnone, hlives, Sys.retrying, hsul', hretries]
    exact Nat.le_refl _

/-- An event that takes no place. -/
theorem seats_event {fs : List Frame} (hpending : s'.pool.pending = s.pool.pending)
    (hsul : (s'.client d).sul = (s.client d).sul) (hlives : s'.lws.lives d ≤ s.lws.lives d)
    (hfs : ∀ f ∈ fs, f.holds d = 0 ∧ f.retries d = false) : seats d fs s' ≤ seats d [] s := by
  have hnone : (fs.map (Frame.holds d)).sum = 0 := by
    rw [List.sum_eq_zero_iff]
    intro n hn
    obtain ⟨f, hf, rfl⟩ := List.mem_map.mp hn
    exact (hfs f hf).1
  have hretries : fs.any (Frame.retries d) = false :=
    List.any_eq_false.mpr fun f hf => by simp [(hfs f hf).2]
  simp only [seats, hpending, hnone, Sys.retrying, hsul, hretries, List.map_nil, List.sum_nil,
    List.any_nil]
  omega

theorem lws_context.link_of_phase {x : lws_context} {w : WsiId} {c : Nat} {p : WsiPhase}
    (huser : (x.wsi w).any (fun i => i.user == c) = true) (hphase : x.phase w = some p) :
    x.link w = some (c, p) := by
  simp only [lws_context.phase, Option.map_eq_some_iff] at hphase
  obtain ⟨i, hi, rfl⟩ := hphase
  have huser : i.user = c := by simpa [hi] using huser
  simp [lws_context.link, hi, huser]

theorem callback_seats {c : ClientId} {w : WsiId} {a : Answer} {r : Reason} {fs : List Frame}
    (h : s.callback c w a r = some (fs, s')) (hb : s.lws.Bounded)
    (huser : (s.lws.wsi w).any (fun i => i.user == c) = true)
    (henabled : s.lws.enables s.thread w r = true) : seats d fs s' ≤ seats d [] s := by
  cases r with
  | CLIENT_ESTABLISHED =>
    have hlink := lws_context.link_of_phase huser
      (lws_context.phase_of_enables_ne henabled (by simp))
    cases h
    refine seats_event rfl (Sys.act_sul rfl d) (Nat.le_of_eq ?_) (by simp)
    exact (Sys.act_lives _ c _ d).trans (lws_context.lives_establish hlink d)
  | CLIENT_RECEIVE chunk =>
    simp only [Sys.callback, Option.map_eq_some_iff, Prod.mk.injEq] at h
    obtain ⟨o, ho, rfl, rfl⟩ := h
    obtain ⟨frag, hc⟩ := receive_client ho
    have hsul : ((s.act c (o.client, o.acts)).client d).sul = (s.client d).sul :=
      Sys.act_sul (by rw [hc]) d
    have hlives := s.act_lives c (o.client, o.acts) d
    split
    · have hfail := ((s.act c (o.client, o.acts)).lws.sameLinks_fail w).lives d
      exact seats_event rfl hsul (Nat.le_of_eq (hfail.trans hlives)) (by simp)
    · exact seats_event rfl hsul (Nat.le_of_eq hlives) (by simp)
  | CLIENT_WRITEABLE =>
    have htaken := (s.lws.sameLinks_modify w (f := fun i => { i with writable := false })
      fun _ => ⟨rfl, rfl⟩).lives d
    simp only [Sys.callback] at h
    split at h
    · cases h
      refine seats_event rfl (Sys.act_sul rfl d) (Nat.le_of_eq ?_) (by simp [Frame.holds, Frame.retries])
      exact (Sys.act_lives _ c _ d).trans htaken
    · split at h <;> cases h
      · exact seats_event rfl rfl (Nat.le_of_eq htaken) (by simp)
      · refine seats_event rfl (Sys.act_sul rfl d) (Nat.le_of_eq ?_)
          (by simp [Frame.holds, Frame.retries])
        exact (Sys.act_lives _ c _ d).trans htaken
  | TIMER =>
    obtain ⟨send_ping, hc⟩ := timer_client (s.client c) w a.ret
    have hfired := (s.lws.sameLinks_modify w (f := fun i => { i with timer := none })
      fun _ => ⟨rfl, rfl⟩).lives d
    simp only [Sys.callback, Option.some.injEq, Prod.mk.injEq] at h
    obtain ⟨rfl, rfl⟩ := h
    have hsul := Sys.act_sul (s := s.setLws (s.lws.modify w fun i => { i with timer := none }))
      (c := c) (r := ((timer (s.client c) w a.ret).client, (timer (s.client c) w a.ret).acts))
      (by rw [hc]; rfl) d
    have hlives := (Sys.act_lives (s.setLws (s.lws.modify w fun i => { i with timer := none })) c
      ((timer (s.client c) w a.ret).client, (timer (s.client c) w a.ret).acts) d).trans hfired
    split
    · refine seats_event rfl hsul (Nat.le_of_eq ?_) (by simp)
      exact ((lws_context.sameLinks_fail _ w).lives d).trans hlives
    · exact seats_event rfl hsul (Nat.le_of_eq hlives) (by simp)
  | CLIENT_RECEIVE_PONG | CLIENT_APPEND_HANDSHAKE_HEADER =>
    cases h
    exact seats_event rfl (Sys.act_sul rfl d) (Nat.le_of_eq (s.act_lives c _ d)) (by simp)
  | CLIENT_CONNECTION_ERROR msg =>
    have hlink := lws_context.link_of_phase huser
      (lws_context.phase_of_enables_ne henabled (by simp))
    simp only [Sys.callback, Option.some.injEq, Prod.mk.injEq] at h
    obtain ⟨rfl, rfl⟩ := h
    obtain ⟨_, _, _, hc, _⟩ := connection_error_client (s.client c) msg
    refine seats_close hb hlink (by simp [Reason.phase]) (by rw [hc]) ?_
    split
    · exact .inl rfl
    · exact .inr rfl
  | CLIENT_CLOSED =>
    have hlink := lws_context.link_of_phase huser
      (lws_context.phase_of_enables_ne henabled (by simp))
    simp only [Sys.callback, Option.some.injEq, Prod.mk.injEq] at h
    obtain ⟨rfl, rfl⟩ := h
    obtain ⟨_, _, _, hc, _⟩ := closed_client (s.client c)
    refine seats_close hb hlink (by decide) (by rw [hc]) ?_
    split
    · exact .inl rfl
    · exact .inr rfl
  | WSI_DESTROY =>
    cases h
    obtain ⟨_, _, hc, _⟩ := wsi_destroy_client (s.client c) w
    refine seats_event rfl (Sys.act_sul (by rw [hc]; rfl) d) ?_ (by simp)
    rw [Sys.act_lives]
    exact s.lws.lives_remove_le w d

theorem deliver_seats {e : Event} {fs : List Frame} (h : s.deliver e = some (fs, s'))
    (hb : s.lws.Bounded) : seats d fs s' ≤ seats d [] s := by
  cases e with
  | callback c w r a =>
    simp only [Sys.deliver, Option.ite_none_right_eq_some, Bool.and_eq_true] at h
    exact callback_seats h.2 hb h.1.1 h.1.2
  | event_wait_cancelled wsi =>
    simp only [Sys.deliver, Option.ite_none_right_eq_some, Option.some.injEq, Prod.mk.injEq] at h
    obtain ⟨_, rfl, rfl⟩ := h
    refine seats_event rfl rfl (Nat.le_refl _) ?_
    split <;> simp [Frame.holds, Frame.retries]
  | sul_reconnect_cb c =>
    simp only [Sys.deliver, Option.ite_none_right_eq_some, Option.some.injEq, Prod.mk.injEq] at h
    obtain ⟨⟨_, harmed⟩, rfl, rfl⟩ := h
    have hlives := s.act_lives c ({ s.client c with sul := none }, []) d
    by_cases hd : c = d
    · -- The armed timer becomes the turn.
      subst hd
      have hfs : ((if (s.client c).stopping then [] else [Frame.do_connect c]).map
          (Frame.holds c)).sum ≤ 1 := by
        split <;> simp [Frame.holds]
      have hgone : Sys.retrying (s.act c ({ s.client c with sul := none }, [])) c
          (if (s.client c).stopping then [] else [.do_connect c]) = false := by
        split <;> simp [Sys.retrying, Frame.retries]
      have hbefore : s.retrying c [] = true := by simp [Sys.retrying, harmed]
      simp only [seats, hgone, hbefore, hlives, Sys.act_pool, List.map_nil, List.sum_nil,
        Bool.toNat_true, Bool.toNat_false]
      omega
    · have hclient : (s.act c ({ s.client c with sul := none }, [])).client d = s.client d := by
        simp [Ne.symm hd]
      refine seats_event rfl (by rw [hclient]) (Nat.le_of_eq hlives) ?_
      split <;> simp [Frame.holds, Frame.retries, hd]
  | service_thread | exit =>
    simp only [Sys.deliver, Option.ite_none_right_eq_some, Option.some.injEq, Prod.mk.injEq] at h
    obtain ⟨_, rfl, rfl⟩ := h
    exact seats_event rfl rfl (Nat.le_refl _) (by simp)
  | context_destroyed =>
    simp only [Sys.deliver, Option.ite_none_right_eq_some, Option.some.injEq, Prod.mk.injEq] at h
    obtain ⟨_, rfl, rfl⟩ := h
    simp [seats, Sys.retrying, lws_context.lives_destroy]
    omega

/-- An API call takes a place for a client only by registering it. -/
theorem app_seats {f : AppFrame} {a : Answer} {fs : List AppFrame} {gs : List Frame}
    (h : s.app f a = some (fs, s'))
    (honce : f = .pool_add_locked d → (s.client d).pool = false) :
    seats d gs s' + (s.client d).pool.toNat ≤ seats d gs s + (s'.client d).pool.toNat := by
  have hadvance := app_advance h d
  have hjoined := Bool.toNat_le_toNat hadvance.joined
  have hretrying : (s'.retrying d gs).toNat ≤ (s.retrying d gs).toNat := by
    apply Bool.toNat_le_toNat
    rcases hadvance.sul with hsul | hsul
    · simp [Sys.retrying, hsul]
    · intro hr
      simp only [Sys.retrying, hsul, Option.isSome_none, Bool.false_or] at hr
      simp [Sys.retrying, hr]
  unfold seats
  cases app_registers h with
  | same hcalls _ hpending =>
    rw [hpending, hcalls.sameLinks.lives]
    omega
  | @add c hlws _ hpending hpool =>
    rw [hpending, hlws, List.count_append, List.count_singleton]
    by_cases hd : c = d
    · subst hd
      rw [hpool c, if_pos rfl, honce rfl]
      simp
      omega
    · simp [hd]
      omega
  | start hlws _ hpending =>
    rw [hpending, hlws, lws_context.lives_destroy]
    omega
  | clear hcalls _ hpending =>
    rw [hpending, hcalls.sameLinks.lives, List.count_nil]
    omega

/-- The step is the locked section of a `wsp_pool_add` of client `d`. -/
def Adds (d : ClientId) (cfg : Config) : Label → Prop
  | .app t _ => ∃ rest, cfg.app t = .pool_add_locked d :: rest
  | _ => False

/-- No two `wsp_pool_add` of client `d` overlap: the test of `c->pool`, made
    before the lock, still holds inside it. -/
def AddedOnce (d : ClientId) (cfg : Config) (l : Label) : Prop :=
  Adds d cfg l → (cfg.shared.client d).pool = false

/-- No two `wsp_pool_add` of one client overlap. -/
def AddsOnce (cfg : Config) (l : Label) : Prop :=
  ∀ d, AddedOnce d cfg l

/-- The client that a step adds. -/
def adding (cfg : Config) : Label → Option ClientId
  | .app t _ =>
    match cfg.app t with
    | .pool_add_locked d :: _ => some d
    | _ => none
  | _ => none

theorem adds_iff {cfg : Config} {l : Label} : Adds d cfg l ↔ adding cfg l = some d := by
  cases l with
  | app t a =>
    unfold Adds adding
    dsimp only
    split
    · next c rest htop => simp [htop]
    · next hne =>
      simp only [reduceCtorEq, iff_false, not_exists]
      exact fun rest htop => hne d rest htop
  | event _ | svc _ | call _ _ => simp [Adds, adding]

instance (d : ClientId) (cfg : Config) (l : Label) : Decidable (AddedOnce d cfg l) :=
  decidable_of_iff (adding cfg l = some d → (cfg.shared.client d).pool = false)
    (by rw [AddedOnce, adds_iff])

instance (cfg : Config) (l : Label) : Decidable (AddsOnce cfg l) :=
  decidable_of_iff (∀ d ∈ adding cfg l, (cfg.shared.client d).pool = false)
    (by simp [AddsOnce, AddedOnce, adds_iff])

end lws_client.ws_pool
