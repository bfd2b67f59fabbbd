import LwsClientDemo.WsPool.Decisions
import LwsClientDemo.WsPool.Handshake
import LwsClientDemo.WsPool.Registry

open interleaving

namespace lws_client.ws_pool

/-- Nothing is left that connects client `d` or arms its timer, but retries that
    have not yet tested `stopping`. -/
structure Calm (d : ClientId) (svc : List Frame) (s : Sys) : Prop where
  pending : d ∉ s.pool.pending
  turns : ∀ f ∈ svc, f.holds d = 0
  arms : .schedule_arm d ∉ svc
  sul : (s.client d).sul = none
  lives : s.lws.lives d = 0

variable {s s' : Sys} {cfg cfg' : Config} {l : Label} {c d : ClientId} {fs rest : List Frame}

theorem Calm.of {f : Frame} (h : Calm d (f :: rest) s) (hpending : s'.pool.pending = s.pool.pending)
    (hsul : (s'.client d).sul = (s.client d).sul) (hlives : s'.lws.lives d = s.lws.lives d)
    (hfs : ∀ g ∈ fs, g.holds d = 0 ∧ g ≠ .schedule_arm d) : Calm d (fs ++ rest) s' := by
  refine ⟨hpending ▸ h.pending, fun g hg => ?_, fun hg => ?_, hsul.trans h.sul, hlives.trans h.lives⟩
  · rcases List.mem_append.mp hg with hg | hg
    · exact (hfs g hg).1
    · exact h.turns g (List.mem_cons_of_mem _ hg)
  · rcases List.mem_append.mp hg with hg | hg
    · exact (hfs _ hg).2 rfl
    · exact h.arms (List.mem_cons_of_mem _ hg)

/-- A section that is silent about the connections of all clients. -/
theorem Calm.act {f : Frame} {r : wsp_client × List Act} (h : Calm d (f :: rest) s)
    (hsul : r.1.sul = (s.client c).sul) (hfs : ∀ g ∈ fs, g.holds d = 0 ∧ g ≠ .schedule_arm d) :
    Calm d (fs ++ rest) (s.act c r) :=
  h.of rfl (Sys.act_sul hsul d) (s.act_lives c r d) hfs

/-- The service thread leaves a stopping client calm. -/
theorem svc_calm {f : Frame} {a : Answer} (h : s.svc f a = some (fs, s')) (hb : s.lws.Bounded)
    (hstop : (s.client d).stopping = true) (hcalm : Calm d (f :: rest) s) :
    Calm d (fs ++ rest) s' := by
  cases f with
  | do_connect c =>
    have hd : c ≠ d := by
      have hturn := hcalm.turns (.do_connect c) (by simp)
      simpa [Frame.holds] using hturn
    obtain ⟨⟨hpool, _, hclient, _⟩, hspec⟩ := do_connect_spec h
    have hsul : (s'.client d).sul = (s.client d).sul := by rw [hclient, if_neg (Ne.symm hd)]
    rcases hspec with ⟨rfl, hlws⟩ | ⟨error, destroyed, rfl, hlws⟩
    · refine hcalm.of (by rw [hpool]) hsul ?_ (by simp [Frame.holds])
      rw [hlws, lws_context.lives_connect, beq_false_of_ne hd]
      rfl
    · refine hcalm.of (by rw [hpool]) hsul (by rw [hlws]; exact lws_context.lives_skip hb d) ?_
      cases error <;> cases destroyed <;> simp [Frame.holds]
  | connection_error c msg =>
    simp only [Sys.svc, Option.some.injEq, Prod.mk.injEq] at h
    obtain ⟨rfl, rfl⟩ := h
    obtain ⟨_, _, _, hc, _⟩ := connection_error_client (s.client c) msg
    refine hcalm.act (by rw [hc]) ?_
    split <;> simp [Frame.holds]
  | wsi_destroy c w =>
    cases h
    obtain ⟨_, _, hc, _⟩ := wsi_destroy_client (s.client c) w
    exact hcalm.act (by rw [hc]) (by simp)
  | connect_return c wsi =>
    simp only [Sys.svc, Option.some.injEq, Prod.mk.injEq] at h
    obtain ⟨rfl, rfl⟩ := h
    refine hcalm.act rfl ?_
    split <;> simp [Frame.holds]
  | schedule_reconnect c =>
    simp only [Sys.svc, Option.some.injEq, Prod.mk.injEq] at h
    obtain ⟨rfl, rfl⟩ := h
    refine hcalm.of rfl rfl rfl ?_
    split
    · simp
    · next hrunning =>
      have hd : c ≠ d := by
        rintro rfl
        exact hrunning hstop
      simp [Frame.holds, hd]
  | schedule_arm c =>
    have hd : d ≠ c := by
      rintro rfl
      exact hcalm.arms (by simp)
    cases h
    refine hcalm.of rfl (by simp [hd]) (s.act_lives c _ d) (by simp)
  | has_data_check c w =>
    simp only [Sys.svc, Option.some.injEq, Prod.mk.injEq] at h
    obtain ⟨rfl, rfl⟩ := h
    refine hcalm.of rfl rfl rfl ?_
    split <;> simp [Frame.holds]
  | lws_callback_on_writable c w =>
    cases h
    exact hcalm.act rfl (by simp)
  | write c w n more =>
    have hsul : ((s.act c (s.client c, writeable_write n w)).client d).sul = (s.client d).sul :=
      Sys.act_sul rfl d
    have hlives := s.act_lives c (s.client c, writeable_write n w) d
    simp only [Sys.svc] at h
    split at h
    · cases h
      have hfail := (lws_context.sameLinks_fail (s.act c (s.client c, writeable_write n w)).lws w).lives d
      exact hcalm.of rfl hsul (hfail.trans hlives) (by simp)
    · simp only [Option.some.injEq, Prod.mk.injEq] at h
      obtain ⟨rfl, rfl⟩ := h
      refine hcalm.of rfl hsul hlives ?_
      split <;> simp [Frame.holds]
  | event_wait_cancelled =>
    cases h
    refine ⟨by simp [Sys.setPool], fun g hg => ?_, fun hg => ?_, hcalm.sul, hcalm.lives⟩
    · rcases List.mem_append.mp hg with hg | hg
      · obtain rfl := List.mem_singleton.mp hg
        exact List.count_eq_zero.mpr hcalm.pending
      · exact hcalm.turns g (List.mem_cons_of_mem _ hg)
    · exact hcalm.arms (List.mem_cons_of_mem _ (by simpa using hg))
  | wc_connect pend =>
    cases pend with
    | nil =>
      cases h
      exact hcalm.of rfl rfl rfl (by simp [Frame.holds])
    | cons c pend =>
      cases h
      have hturn := hcalm.turns (.wc_connect (c :: pend)) (by simp)
      simp only [Frame.holds, List.count_cons, Nat.add_eq_zero_iff] at hturn
      refine hcalm.act rfl ?_
      cases hcd : c == d <;> simp [Frame.holds, hcd] at hturn ⊢
      exact hturn
  | wc_snapshot =>
    cases h
    exact hcalm.of rfl rfl rfl (by simp [Frame.holds])
  | wc_visit snap =>
    cases snap with
    | nil =>
      cases h
      exact hcalm.of rfl rfl rfl (by simp)
    | cons c snap =>
      simp only [Sys.svc] at h
      split at h
      · cases h
        exact hcalm.of rfl rfl rfl (by simp [Frame.holds])
      · split at h
        · cases h
          exact hcalm.act rfl (by simp [Frame.holds])
        · split at h <;> cases h <;> exact hcalm.of rfl rfl rfl (by simp [Frame.holds])

theorem Calm.of_seats {svc : List Frame} (h : seats d svc s = 0) : Calm d svc s := by
  simp only [seats, Nat.add_eq_zero_iff] at h
  obtain ⟨⟨⟨hpending, hturns⟩, hretrying⟩, hlives⟩ := h
  have hnot : s.retrying d svc = false := by simpa using hretrying
  simp only [Sys.retrying, Bool.or_eq_false_iff] at hnot
  refine ⟨List.count_eq_zero.mp hpending, fun f hf => ?_, fun hf => ?_, by simpa using hnot.1, hlives⟩
  · exact (List.sum_eq_zero_iff.mp hturns) _ (List.mem_map_of_mem hf)
  · have harm := List.any_eq_false.mp hnot.2 _ hf
    simp [Frame.retries] at harm

/-- While the service thread is idle a calm client has no place at all. -/
theorem Calm.seats (h : Calm d [] s) : ws_pool.seats d [] s = 0 := by
  simp [ws_pool.seats, Sys.retrying, List.count_eq_zero.mpr h.pending, h.sul, h.lives]

theorem deliver_calm {e : Event} (h : s.deliver e = some (fs, s')) (hb : s.lws.Bounded)
    (hcalm : Calm d [] s) : Calm d fs s' := by
  have hle := deliver_seats (d := d) h hb
  rw [hcalm.seats] at hle
  exact .of_seats (Nat.le_zero.mp hle)

/-- An API call other than an add leaves a client calm. -/
theorem app_calm {f : AppFrame} {a : Answer} {gs : List AppFrame} {svc : List Frame}
    (h : s.app f a = some (gs, s')) (hf : f ≠ .pool_add_locked d) (hcalm : Calm d svc s) :
    Calm d svc s' := by
  have hsul : (s'.client d).sul = none := by
    rcases (app_advance h d).sul with hsame | hnone
    · exact hsame.trans hcalm.sul
    · exact hnone
  have hkept : d ∉ s'.pool.pending ∧ s'.lws.lives d = 0 := by
    cases app_registers h with
    | same hcalls _ hpending => exact ⟨hpending ▸ hcalm.pending, (hcalls.sameLinks.lives d).trans hcalm.lives⟩
    | @add c hlws _ hpending _ =>
      have hd : d ≠ c := fun heq => hf (heq ▸ rfl)
      exact ⟨by simp [hpending, hcalm.pending, hd], hlws ▸ hcalm.lives⟩
    | start hlws _ hpending => exact ⟨hpending ▸ hcalm.pending, by rw [hlws, lws_context.lives_destroy]⟩
    | clear hcalls _ hpending => exact ⟨by simp [hpending], (hcalls.sameLinks.lives d).trans hcalm.lives⟩
  exact ⟨hkept.1, hcalm.turns, hcalm.arms, hsul, hkept.2⟩

/-- A stopping client that is calm stays so until it is added. -/
theorem Calm.step (hmove : system.Moves cfg l cfg') (hb : cfg.shared.lws.Bounded)
    (hstop : (cfg.shared.client c).stopping = true) (hadds : ¬ Adds c cfg l)
    (h : Calm c cfg.svc cfg.shared) : Calm c cfg'.svc cfg'.shared := by
  cases hmove with
  | event hdeliver => exact deliver_calm hdeliver hb h
  | svc hsvc => exact svc_calm hsvc hb hstop h
  | call _ _ => exact h
  | app htop happ => exact app_calm happ (fun hf => hadds ⟨_, hf ▸ htop⟩) h

/-- `wsp_client_stop` finds a connection to wait for. -/
def Sys.awaits (s : Sys) (c : ClientId) : Bool :=
  (s.client c).wsi.isSome && (s.client c).pool && s.pool.ctx && !(s.client c).stopped

/-- A WSI_DESTROY that comes to client `c` while it is stopping and not stopped is
    of its only connection. -/
def DestroysLast (c : ClientId) (cfg : Config) (l : Label) : Prop :=
  ∀ w a, l = .event (.callback c w .WSI_DESTROY a) → (cfg.shared.client c).stopping = true →
    (cfg.shared.client c).stopped = false → ∀ v, cfg.shared.lws.owns c v = true → v = w

/-- What keeps a stopped client quiescent: it is added once and before its stop, a
    stop that does not wait finds it calm, and the WSI_DESTROY that ends a stop
    is of its only connection. -/
structure StopsCalm (c : ClientId) (cfg : Config) (l : Label) : Prop where
  once : AddedOnce c cfg l
  joins : Adds c cfg l → (cfg.shared.client c).stopping = false
  locked : ∀ {t a rest}, l = .app t a → cfg.app t = .stop_locked c :: rest →
    cfg.shared.awaits c = false → Calm c cfg.svc cfg.shared
  last : DestroysLast c cfg l

theorem Sys.act_stopped {r : wsp_client × List Act} (h : r.1.stopped = (s.client c).stopped)
    (d : ClientId) : ((s.act c r).client d).stopped = (s.client d).stopped :=
  Sys.act_field (·.stopped) h d

theorem Bounded.lives_closed {p : WsiPhase} {w : WsiId} {r : wsp_client × List Act}
    (hb : s.lws.Bounded) (hlink : s.lws.link w = some (c, p)) (hp : p ≠ .closed) :
    ((s.setLws (s.lws.setPhase w .closed)).act c r).lws.lives c + 1 = s.lws.lives c := by
  have hclose := hb.lives_close hlink hp c
  rw [beq_self_eq_true, Bool.toNat_true] at hclose
  rw [Sys.act_lives, Sys.setLws_lws, hclose]

/-- A callback that stops a client ends a connection of it, and does no more. -/
theorem callback_ends {w : WsiId} {a : Answer} {r : Reason} {fs : List Frame}
    (h : s.callback c w a r = some (fs, s')) (hb : s.lws.Bounded)
    (huser : (s.lws.wsi w).any (fun i => i.user == c) = true)
    (henabled : s.lws.enables s.thread w r = true) (hstopping : (s.client d).stopping = true)
    (hbefore : (s.client d).stopped = false) (hafter : (s'.client d).stopped = true) :
    c = d ∧ fs = [] ∧ (s'.client d).sul = (s.client d).sul ∧
      ((r = .WSI_DESTROY ∧ s'.lws = s.lws.remove w) ∨ s'.lws.lives d + 1 = s.lws.lives d) := by
  have hsame : (s'.client d).stopped ≠ (s.client d).stopped := by
    rw [hbefore, hafter]
    simp
  have hother : ∀ {lws : lws_context} {r : wsp_client × List Act},
      (((s.setLws lws).act c r).client d).stopped ≠ (s.client d).stopped → c = d := by
    intro lws r hne
    by_contra hd
    exact hne (by simp [Sys.setLws, Ne.symm hd])
  cases r with
  | CLIENT_ESTABLISHED =>
    cases h
    exact absurd (Sys.act_stopped (s := s.setLws _) rfl d) hsame
  | CLIENT_RECEIVE chunk =>
    simp only [Sys.callback, Option.map_eq_some_iff, Prod.mk.injEq] at h
    obtain ⟨o, ho, _, rfl⟩ := h
    obtain ⟨frag, hc⟩ := receive_client ho
    have hkept := Sys.act_stopped (s := s) (c := c) (r := (o.client, o.acts)) (by rw [hc]) d
    refine absurd ?_ hsame
    split <;> exact hkept
  | CLIENT_WRITEABLE =>
    simp only [Sys.callback] at h
    split at h
    · cases h
      exact absurd (Sys.act_stopped (s := s.setLws _) rfl d) hsame
    · split at h <;> cases h
      · exact absurd rfl hsame
      · exact absurd (Sys.act_stopped (s := s.setLws _) rfl d) hsame
  | TIMER =>
    obtain ⟨_, hc⟩ := timer_client (s.client c) w a.ret
    have hkept := Sys.act_stopped (s := s.setLws (s.lws.modify w fun i => { i with timer := none }))
      (c := c) (r := ((timer (s.client c) w a.ret).client, (timer (s.client c) w a.ret).acts))
      (by rw [hc]; rfl) d
    simp only [Sys.callback, Option.some.injEq, Prod.mk.injEq] at h
    obtain ⟨_, rfl⟩ := h
    refine absurd ?_ hsame
    split <;> exact hkept
  | CLIENT_RECEIVE_PONG | CLIENT_APPEND_HANDSHAKE_HEADER =>
    cases h
    exact absurd (Sys.act_stopped rfl d) hsame
  | CLIENT_CONNECTION_ERROR msg =>
    have hlink := lws_context.link_of_phase huser
      (lws_context.phase_of_enables_ne henabled (by simp))
    cases h
    obtain rfl := hother hsame
    obtain ⟨_, _, _, hc, _⟩ := connection_error_client (s.client c) msg
    exact ⟨rfl, if_pos hstopping, Sys.act_sul (s := s.setLws _) (by rw [hc]; rfl) c,
      .inr (Bounded.lives_closed hb hlink (by simp [Reason.phase]))⟩
  | CLIENT_CLOSED =>
    have hlink := lws_context.link_of_phase huser
      (lws_context.phase_of_enables_ne henabled (by simp))
    cases h
    obtain rfl := hother hsame
    obtain ⟨_, _, _, hc, _⟩ := closed_client (s.client c)
    exact ⟨rfl, if_pos hstopping, Sys.act_sul (s := s.setLws _) (by rw [hc]; rfl) c,
      .inr (Bounded.lives_closed hb hlink (by simp [Reason.phase]))⟩
  | WSI_DESTROY =>
    cases h
    obtain rfl := hother hsame
    obtain ⟨_, _, hc, _⟩ := wsi_destroy_client (s.client c) w
    exact ⟨rfl, rfl, Sys.act_sul (s := s.setLws _) (by rw [hc]; rfl) c, .inl ⟨rfl, rfl⟩⟩

/-- A client with a connection has no other place. -/
theorem Linked.connected_only {svc : List Frame} {app : Nat → List AppFrame}
    (h : Linked c ⟨s, svc, app⟩) {w : WsiId} (hwsi : (s.client c).wsi = some w) :
    s.lws.lives c = 1 ∧ c ∉ s.pool.pending ∧ (s.client c).sul = none ∧
      ∀ f ∈ svc, f.retries c = false := by
  have hpos := h.joined.bounded.lives_pos (h.joined.owned w hwsi)
  have hone := h.one
  dsimp only at hpos hone
  unfold ws_pool.seats at hone
  have hcount : s.pool.pending.count c = 0 := by omega
  have hnot : s.retrying c svc = false := by
    cases hretrying : s.retrying c svc with
    | false => rfl
    | true =>
      rw [hretrying, Bool.toNat_true] at hone
      omega
  simp only [Sys.retrying, Bool.or_eq_false_iff] at hnot
  exact ⟨by omega, List.count_eq_zero.mp hcount, by simpa using hnot.1, fun f hf => by
    simpa using List.any_eq_false.mp hnot.2 f hf⟩

/-- An event that stops client `c` ends its only connection, and does no more. -/
theorem deliver_ends {e : Event} {app : Nat → List AppFrame} (h : s.deliver e = some (fs, s'))
    (hlast : DestroysLast c ⟨s, [], app⟩ (.event e)) (hlinked : Linked c ⟨s, [], app⟩)
    (hstopping : (s.client c).stopping = true) (hbefore : (s.client c).stopped = false)
    (hafter : (s'.client c).stopped = true) :
    fs = [] ∧ (s'.client c).sul = (s.client c).sul ∧ s'.lws.lives c = 0 := by
  have hone : s.lws.lives c ≤ 1 := Nat.le_trans lives_le_seats hlinked.one
  cases e with
  | callback b w r a =>
    simp only [Sys.deliver, Option.ite_none_right_eq_some, Bool.and_eq_true] at h
    obtain ⟨⟨huser, henabled⟩, h⟩ := h
    obtain ⟨rfl, rfl, hsul, hends⟩ :=
      callback_ends h hlinked.joined.bounded huser henabled hstopping hbefore hafter
    refine ⟨rfl, hsul, ?_⟩
    rcases hends with ⟨rfl, hlws⟩ | hlives
    · have honly := hlast w a rfl hstopping hbefore
      refine List.countP_eq_zero.mpr fun u _ howns => ?_
      rw [hlws] at howns
      by_cases hu : u = w
      · subst hu
        simp [lws_context.owns, lws_context.link_remove] at howns
      · rw [lws_context.owns, lws_context.link_remove, if_neg hu] at howns
        exact hu (honly u howns)
    · omega
  | sul_reconnect_cb b =>
    simp only [Sys.deliver, Option.ite_none_right_eq_some, Option.some.injEq, Prod.mk.injEq] at h
    obtain ⟨_, _, rfl⟩ := h
    rw [Sys.act_stopped rfl, hbefore] at hafter
    cases hafter
  | service_thread | event_wait_cancelled _ | exit | context_destroyed =>
    simp only [Sys.deliver, Option.ite_none_right_eq_some, Option.some.injEq, Prod.mk.injEq] at h
    obtain ⟨_, _, rfl⟩ := h
    exact absurd (hbefore.symm.trans hafter) (by simp)

/-- An event that signals the thread that waits for client `c` leaves the client calm. -/
theorem deliver_settles {e : Event} {app : Nat → List AppFrame} (h : s.deliver e = some (fs, s'))
    (hok : StopsCalm c ⟨s, [], app⟩ (.event e)) (hlinked : Linked c ⟨s, [], app⟩)
    (hshake : Handshake c ⟨s, [], app⟩) (hstopping : (s.client c).stopping = true)
    (hbefore : (s.client c).waiting = true) (hafter : (s'.client c).waiting = false) :
    Calm c fs s' := by
  obtain ⟨hrunning, hwsi⟩ := hshake.blocked hbefore
  obtain ⟨v, hwsi⟩ := Option.isSome_iff_exists.mp hwsi
  obtain ⟨_, hpending, hnosul, _⟩ := hlinked.connected_only hwsi
  have hstopped : (s'.client c).stopped = true := by
    cases deliver_signals h c with
    | quiet _ _ hsame | ended _ _ hsame =>
      rw [hsame, hbefore] at hafter
      cases hafter
    | signalled hstopped _ => exact hstopped
  obtain ⟨rfl, hsul, hlives⟩ := deliver_ends h hok.last hlinked hstopping hrunning hstopped
  exact ⟨deliver_pool h ▸ hpending, by simp, by simp, hsul.trans hnosul, hlives⟩

/-- The service thread signals no thread from within a connect call: a client it
    connects has no connection to wait for. -/
theorem svc_waiting {f : Frame} {a : Answer} {app : Nat → List AppFrame}
    (h : s.svc f a = some (fs, s')) (hlinked : Linked c ⟨s, f :: rest, app⟩)
    (hshake : Handshake c ⟨s, f :: rest, app⟩) (hbefore : (s.client c).waiting = true) :
    (s'.client c).waiting = true := by
  obtain ⟨hrunning, hwsi⟩ := hshake.blocked hbefore
  obtain ⟨v, hwsi⟩ := Option.isSome_iff_exists.mp hwsi
  obtain ⟨_, _, _, hnot⟩ := hlinked.connected_only hwsi
  have hnot := hnot f (by simp)
  rcases svc_signals h c with hsignals | ⟨wsi, _, hstore⟩
  · cases hsignals with
    | quiet _ _ hsame | ended _ _ hsame => exact hsame.trans hbefore
    | signalled hstopped _ =>
      have hsame : (s'.client c).stopped = (s.client c).stopped := by
        cases svc_relinks h with
        | still _ hview _ _ => exact (wsp_client.view_eq (hview c)).2.2
        | @report f d _ _ fs hf _ _ hviews _ _ _ _ =>
          have hd : c ≠ d := by
            rintro rfl
            rw [hnot] at hf
            cases hf
          exact (hviews.other hd).2.2
        | @connect d _ hviews | @refuse d _ _ hviews _ | @store d _ _ hviews
        | @idle _ d _ _ _ _ hviews _ _ =>
          by_cases hd : c = d
          · subst hd
            exact hviews.self.2.2
          · exact (hviews.other hd).2.2
      dsimp only at hrunning
      rw [hsame, hrunning] at hstopped
      cases hstopped
  · rw [hstore]
    exact hbefore

/-- A stop comes to its flush from its wait, or without one. -/
theorem leads_stop_flush {clients : List ClientId} {f : AppFrame} {fs : List AppFrame}
    (h : fs ∈ f.leads clients) (hmem : .stop_flush c ∈ fs) : f = .stop_locked c ∨ f = .stop_wait c := by
  cases f with
  | stop_locked d | stop_wait d =>
    simp only [AppFrame.leads, List.mem_cons, List.not_mem_nil, or_false] at h
    rcases h with rfl | rfl
    · simp only [List.mem_singleton, AppFrame.stop_flush.injEq] at hmem
      simp [hmem]
    · simp at hmem
  | enqueue d data is_binary =>
    cases data <;> simp only [AppFrame.leads, List.mem_singleton] at h <;> subst h <;> simp at hmem
  | destroy_stop snap | destroy_clients snap =>
    cases snap <;> simp only [AppFrame.leads, List.mem_singleton] at h <;> subst h <;> simp at hmem
  | _ =>
    simp only [AppFrame.leads, List.mem_cons, List.not_mem_nil, or_false] at h
    rcases h with rfl | rfl <;> simp at hmem

/-- The timeout of the stop of client `c` has fired, or the client is calm. -/
def Settled (c : ClientId) (cfg : Config) : Prop :=
  .stop_times_out ∈ cfg.shared.trace c ∨ Calm c cfg.svc cfg.shared

/-- Client `c` is settled from where its stop has been signalled, or does not wait. -/
structure Settles (c : ClientId) (cfg : Config) : Prop where
  signalled : ∀ t, .stop_wait c ∈ cfg.app t → (cfg.shared.client c).waiting = false →
    Calm c cfg.svc cfg.shared
  flushing : ∀ t, .stop_flush c ∈ cfg.app t → Settled c cfg
  returned : .stop_returns ∈ cfg.shared.trace c → Settled c cfg

/-- What is known of client `c` in every configuration reached. -/
structure Stopping (c : ClientId) (cfg : Config) : Prop where
  linked : Linked c cfg
  shake : Handshake c cfg
  one : Exclusive (AppFrame.handles c) cfg.app
  marked : ∀ {t : Nat} {f : AppFrame}, f ∈ cfg.app t → f.stops = some c →
    (cfg.shared.client c).stopping = true
  returned : .stop_returns ∈ cfg.shared.trace c → (cfg.shared.client c).stopping = true

theorem Settled.step (hmove : system.Moves cfg l cfg') (hok : StopsCalm c cfg l)
    (hlinked : Linked c cfg) (hstop : (cfg.shared.client c).stopping = true) (h : Settled c cfg) :
    Settled c cfg' := by
  refine h.imp (fun hmem => (trace_grows hmove c).subset hmem) fun hcalm =>
    hcalm.step hmove hlinked.joined.bounded hstop fun hadds => ?_
  have hrunning := hok.joins hadds
  rw [hstop] at hrunning
  cases hrunning

theorem Settles.serve {svc svc' : List Frame} {app : Nat → List AppFrame}
    (hmove : system.Moves ⟨s, svc, app⟩ l ⟨s', svc', app⟩) (hok : StopsCalm c ⟨s, svc, app⟩ l)
    (hknown : Stopping c ⟨s, svc, app⟩) (hunmarked : Unmarked s s' c)
    (hsignals : ∀ t, .stop_wait c ∈ app t → (s.client c).waiting = true →
      (s'.client c).waiting = false → Calm c svc' s')
    (h : Settles c ⟨s, svc, app⟩) : Settles c ⟨s', svc', app⟩ := by
  have hstep := fun hstop hsettled => Settled.step hmove hok hknown.linked hstop hsettled
  refine ⟨fun t hf hafter => ?_, fun t hf => hstep (hknown.marked hf rfl) (h.flushing t hf),
    fun hreturned => ?_⟩
  · cases hbefore : (s.client c).waiting with
    | true => exact hsignals t hf hbefore hafter
    | false =>
      have hstop := hknown.marked hf rfl
      refine (h.signalled t hf hbefore).step hmove hknown.linked.joined.bounded hstop fun hadds => ?_
      have hrunning := hok.joins hadds
      rw [hstop] at hrunning
      cases hrunning
  · have hbefore := (hunmarked.mem_iff (show Act.milestone .stop_returns = true from rfl)).mp hreturned
    exact hstep (hknown.returned hbefore) (h.returned hbefore)

variable {svc : List Frame} {app : Nat → List AppFrame} {t : Nat} {f : AppFrame} {a : Answer}
  {gs rests : List AppFrame}

/-- A stop goes on to its flush timed out, or with the client calm. -/
theorem app_flushes (htop : app t = f :: rests) (happ : s.app f a = some (gs, s'))
    (hok : StopsCalm c ⟨s, svc, app⟩ (.app t a)) (h : Settles c ⟨s, svc, app⟩)
    (hmem : .stop_flush c ∈ gs) : .stop_times_out ∈ s'.trace c ∨ Calm c svc s := by
  rcases leads_stop_flush (app_leads happ) hmem with rfl | rfl
  · refine .inr (hok.locked rfl htop ?_)
    simp only [Sys.app] at happ
    simp only [Sys.awaits]
    split at happ
    · next hcond =>
      split at happ
      · next hstopped => simp [hstopped]
      · cases happ
        simp at hmem
    · next hcond =>
      have hnot := Bool.eq_false_iff.mpr hcond
      rw [hnot, Bool.false_and]
  · simp only [Sys.app] at happ
    split at happ
    · cases happ
      exact .inl (by simp)
    · split at happ
      · cases happ
      · next hwaiting =>
        split at happ
        · exact .inr (h.signalled t (by dsimp only; rw [htop]; simp) (by simpa using hwaiting))
        · cases happ
          simp at hmem

/-- A thread that begins to wait, or goes on waiting, waits. -/
theorem app_begins_wait (happ : s.app f a = some (gs, s')) (hmem : .stop_wait c ∈ gs) :
    (s'.client c).waiting = true := by
  rcases leads_stop_wait (app_leads happ) hmem with rfl | rfl
  · simp only [Sys.app] at happ
    split at happ
    · split at happ <;> cases happ
      · simp at hmem
      · simp
    · cases happ
      simp at hmem
  · simp only [Sys.app] at happ
    split at happ
    · cases happ
      simp at hmem
    · split at happ
      · cases happ
      · split at happ <;> cases happ
        · simp at hmem
        · simp

theorem Settles.ask (htop : app t = f :: rests) (happ : s.app f a = some (gs, s'))
    (hok : StopsCalm c ⟨s, svc, app⟩ (.app t a)) (hknown : Stopping c ⟨s, svc, app⟩)
    (h : Settles c ⟨s, svc, app⟩) :
    Settles c ⟨s', svc, Function.update app t (gs ++ rests)⟩ := by
  have hmove : system.Moves ⟨s, svc, app⟩ (.app t a) ⟨s', svc, Function.update app t (gs ++ rests)⟩ :=
    .app htop happ
  have hcalm : (s.client c).stopping = true → Calm c svc s → Calm c svc s' := fun hstop hcalm => by
    refine hcalm.step hmove hknown.linked.joined.bounded hstop fun hadds => ?_
    have hrunning := hok.joins hadds
    rw [hstop] at hrunning
    cases hrunning
  have hsettled := fun hstop hsettled => Settled.step hmove hok hknown.linked hstop hsettled
  have hbefore : ∀ {u g}, g ∈ Function.update app t (gs ++ rests) u → g ∉ gs → g ∈ app u := by
    intro u g hmem hnew
    rcases mem_update_app.mp hmem with ⟨hut, hin⟩ | ⟨_, hin⟩
    · rw [hut, htop]
      exact List.mem_cons_of_mem _ ((List.mem_append.mp hin).resolve_left hnew)
    · exact hin
  refine ⟨fun u hu hafter => ?_, fun u hu => ?_, fun hreturned => ?_⟩
  · have hnew : .stop_wait c ∉ gs := fun hmem => by
      dsimp only at hafter
      rw [app_begins_wait happ hmem] at hafter
      cases hafter
    have hold := hbefore hu hnew
    have hstop := hknown.marked hold rfl
    by_cases hf : f = .stop_locked c ∨ f = .stop_wait c
    · -- The one stop of the client is the thread that moves.
      have hstops : f.stops = some c := by rcases hf with rfl | rfl <;> rfl
      obtain ⟨hothers, hrest⟩ := stops_alone hknown.one htop hstops (g := .stop_wait c) rfl
      rcases mem_update_app.mp hu with ⟨_, hmem⟩ | ⟨hut, hmem⟩
      · exact absurd ((List.mem_append.mp hmem).resolve_left hnew) hrest
      · exact absurd hmem (hothers u hut)
    · rw [not_or] at hf
      refine hcalm hstop (h.signalled u hold ?_)
      exact (app_waits happ hf.1 hf.2).2 ▸ hafter
  · by_cases hnew : .stop_flush c ∈ gs
    · have hstops : f.stops = some c := by
        rcases leads_stop_flush (app_leads happ) hnew with rfl | rfl <;> rfl
      exact (app_flushes htop happ hok h hnew).imp id
        (hcalm (hknown.marked (t := t) (by dsimp only; rw [htop]; simp) hstops))
    · have hold := hbefore hu hnew
      exact hsettled (hknown.marked hold rfl) (h.flushing u hold)
  · by_cases hf : f = .stop_flush c
    · subst hf
      have hold : .stop_flush c ∈ app t := by simp [htop]
      exact hsettled (hknown.marked hold rfl) (h.flushing t hold)
    · have hold := ((app_marks happ c).returns_iff hf).mp hreturned
      exact hsettled (hknown.returned hold) (h.returned hold)

theorem Settles.step (hmove : system.Moves cfg l cfg') (hok : StopsCalm c cfg l)
    (hknown : Stopping c cfg) (h : Settles c cfg) : Settles c cfg' := by
  cases hmove with
  | event hdeliver =>
    exact h.serve (.event hdeliver) hok hknown (deliver_unmarked hdeliver c) fun t hf =>
      deliver_settles hdeliver hok hknown.linked hknown.shake (hknown.marked hf rfl)
  | svc hsvc =>
    refine h.serve (.svc hsvc) hok hknown (svc_unmarked hsvc c) fun t hf hbefore hafter => ?_
    rw [svc_waiting hsvc hknown.linked hknown.shake hbefore] at hafter
    cases hafter
  | @call t f s svc app hidle hcall =>
    have hold : ∀ {u g}, g ∈ Function.update app t [f] u → g.stops = some c → g ∈ app u := by
      intro u g hmem hstops
      rcases mem_update_app.mp hmem with ⟨_, hin⟩ | ⟨_, hin⟩
      · obtain rfl := List.mem_singleton.mp hin
        cases g with
        | stop_sul_cancel _ | stop_locked _ | stop_wait _ | stop_flush _ =>
          simp [system, Sys.call] at hcall
        | _ => cases hstops
      · exact hin
    exact ⟨fun u hu => h.signalled u (hold hu rfl), fun u hu => h.flushing u (hold hu rfl), h.returned⟩
  | app htop happ => exact h.ask htop happ hok hknown

theorem Reaches.settles {client : ClientId → wsp_client} (hfresh : ∀ c, (client c).Fresh)
    (h : system.Reaches (StopsCalm c) (initial client) cfg) : Stopping c cfg ∧ Settles c cfg := by
  have hadds : ∀ cfg l, StopsCalm c cfg l → AddedOnce c cfg l := fun _ _ hok => hok.once
  have hknown : ∀ mid, system.Reaches (StopsCalm c) (initial client) mid → Stopping c mid :=
    fun mid hmid => ⟨Reaches.linked hadds hfresh hmid, Reaches.handshake hadds hfresh hmid,
      Reaches.one_stop hmid c, fun hf hc => Reaches.stopping hmid hf hc,
      fun hreturned => (Reaches.flushed hfresh hmid c hreturned).1⟩
  refine ⟨hknown cfg h, h.invariant_under (I := Settles c) hknown
    ⟨fun t hf => (by cases hf), fun t hf => (by cases hf), fun hreturned => (by cases hreturned)⟩
    fun _ _ _ hknown hok hmove => Settles.step hmove hok hknown⟩

/-- Only a connect call and `schedule_reconnect` retry. -/
theorem svc_retries {f : Frame} {a : Answer} (h : s.svc f a = some (fs, s'))
    (hconnect : f ≠ .do_connect d) (harm : f ≠ .schedule_arm d) :
    retries (s'.trace d) = retries (s.trace d) := by
  cases hf : f.schedules d with
  | false => exact (svc_others h hf hconnect).2.2.2
  | true =>
    cases f with
    | connection_error c msg =>
      cases h
      exact Inner.retries (Makes.act (connection_error_acts (fun _ => rfl) rfl _ msg) d)
    | connect_return _ _ =>
      cases h
      exact Sys.act_retries rfl d
    | schedule_reconnect _ =>
      cases h
      rfl
    | schedule_arm c => exact absurd (by rw [beq_iff_eq.mp hf]) harm
    | _ => cases hf

/-- A calm client is not connected, nor is its hook asked or its timer armed. -/
theorem Calm.retries (hmove : system.Moves cfg l cfg') (h : Calm c cfg.svc cfg.shared) :
    retries (cfg'.shared.trace c) = retries (cfg.shared.trace c) := by
  cases hmove with
  | event hdeliver => exact (deliver_inner hdeliver c).retries
  | svc hsvc =>
    refine svc_retries hsvc ?_ fun hf => h.arms (by simp [hf])
    rintro rfl
    have hturn := h.turns (.do_connect c) (by simp)
    simp [Frame.holds] at hturn
  | call _ _ => rfl
  | app _ happ => exact (app_attempts happ c).2.2

theorem Calm.connects (hmove : system.Moves cfg l cfg') (h : Calm c cfg.svc cfg.shared) :
    connects (cfg'.shared.trace c) = connects (cfg.shared.trace c) := by
  rw [← connects_retries, h.retries hmove, connects_retries]

/-- Once a stop of client `c` has returned in time, the client has no connection,
    is not connected any more, has no timer armed and is not pending. -/
theorem stopped_quiescent {client : ClientId → wsp_client} (hfresh : ∀ c, (client c).Fresh)
    (h : system.Reaches (StopsCalm c) (initial client) cfg)
    (hreturned : .stop_returns ∈ cfg.shared.trace c)
    (hintime : .stop_times_out ∉ cfg.shared.trace c)
    (hlater : system.Reaches (StopsCalm c) cfg cfg') :
    (∀ w, cfg'.shared.lws.owns c w = false) ∧
      connects (cfg'.shared.trace c) = connects (cfg.shared.trace c) ∧
      (cfg'.shared.client c).sul = none ∧ c ∉ cfg'.shared.pool.pending := by
  obtain ⟨hknown, hsettles⟩ := Reaches.settles hfresh h
  have hcalm : Calm c cfg.svc cfg.shared := (hsettles.returned hreturned).resolve_left hintime
  have hstill : Calm c cfg'.svc cfg'.shared ∧
      connects (cfg'.shared.trace c) = connects (cfg.shared.trace c) := by
    refine hlater.invariant_under (I := fun mid => Calm c mid.svc mid.shared ∧
        connects (mid.shared.trace c) = connects (cfg.shared.trace c))
      (J := fun mid => Linked c mid ∧ (mid.shared.client c).stopping = true) (fun mid hmid => ?_)
      ⟨hcalm, rfl⟩ fun mid l next hknown hok hmove hbefore => ⟨?_, (hbefore.1.connects hmove).trans hbefore.2⟩
    · have hstopping := (Reaches.settles hfresh (h.trans hmid)).1
      exact ⟨hstopping.linked, hstopping.returned ((Reaches.trace_grows hmid c).subset hreturned)⟩
    · refine hbefore.1.step hmove hknown.1.joined.bounded hknown.2 fun hadds => ?_
      have hrunning := hok.joins hadds
      rw [hknown.2] at hrunning
      cases hrunning
  have hlinked := (Reaches.settles hfresh (h.trans hlater)).1.linked
  exact ⟨(hlinked.joined.no_wsi hstill.1.lives).2, hstill.2, hstill.1.sul, hstill.1.pending⟩

/-- A step of which `StopsCalm 0` is plain: no WSI_DESTROY comes to a stopping
    client, and a stop waits. -/
def waits_out (cfg : Config) : Label → Bool
  | .event (.callback _ _ .WSI_DESTROY _) =>
    !(cfg.shared.client 0).stopping || (cfg.shared.client 0).stopped
  | .app t _ =>
    match cfg.app t with
    | .pool_add_locked _ :: _ => !(cfg.shared.client 0).stopping
    | .stop_locked _ :: _ => cfg.shared.awaits 0
    | _ => true
  | _ => true

theorem stopsCalm_of_waits_out (honce : AddedOnce 0 cfg l) (h : waits_out cfg l = true) :
    StopsCalm 0 cfg l := by
  refine ⟨honce, fun hadds => ?_, fun {t a rest} hl htop hnot => ?_, fun w a hl hstopping hrunning => ?_⟩
  · cases l with
    | app t a =>
      obtain ⟨rest, htop⟩ := hadds
      simpa [waits_out, htop] using h
    | event _ | svc _ | call _ _ => exact hadds.elim
  · subst hl
    simp [waits_out, htop, hnot] at h
  · subst hl
    simp [waits_out, hstopping, hrunning] at h

/-- The connection that a stop of client 0 waits for is closed, and the stop
    returns. -/
def closed_run : List Label :=
  blocked_run ++ [.event (.callback 0 0 .CLIENT_CLOSED {}), .app 1 {}, .app 1 {}]

theorem stopped_quiescent_closed : ∃ cfg cfg' : Config,
    system.Reaches Any (initial fresh_client) cfg ∧
      system.step cfg (.event (.callback 0 0 .WSI_DESTROY {})) = some cfg' ∧
      (∀ w, cfg'.shared.lws.owns 0 w = false) ∧ (cfg'.shared.client 0).sul = none := by
  obtain ⟨cfg, hfollows, hreturned, hstopped, hnext⟩ : ∃ cfg,
      system.Follows (fun cfg l => waits_out cfg l = true) (initial fresh_client) closed_run cfg ∧
        (cfg.shared.trace 0).any Act.stop_returned = true ∧
        ((cfg.shared.trace 0).any Act.stop_timed_out = false ∧
          (cfg.shared.client 0).stopped = true) ∧
        (system.step cfg (.event (.callback 0 0 .WSI_DESTROY {}))).isSome = true :=
    System.exists_follows_of_run (by decide)
  obtain ⟨cfg', hstep⟩ := Option.isSome_iff_exists.mp hnext
  have hfresh : ∀ c, (fresh_client c).Fresh := fun _ => wsp_client_create_fresh _ _ _ _
  have honce := Follows.adds_once hfresh hfollows (by decide)
  have hcalm := honce.reaches.mono fun _ _ hok => stopsCalm_of_waits_out (hok.2 0) hok.1
  have hlast : StopsCalm 0 cfg (.event (.callback 0 0 .WSI_DESTROY {})) :=
    stopsCalm_of_waits_out (fun hadds => hadds.elim) (by simp [waits_out, hstopped.2])
  obtain ⟨hlives, _, hsul, _⟩ :=
    stopped_quiescent hfresh hcalm (any_stop_returned.mp hreturned)
      (any_stop_timed_out.mp hstopped.1) (System.Reaches.refl.step hlast hstep)
  exact ⟨cfg, cfg', hfollows.reaches.mono fun _ _ _ => trivial, hstep, hlives, hsul⟩

/-- Client 0 is stopped while it waits in `pending` for its first connection. -/
def pending_stop_run : List Label :=
  connected_run.take 10 ++ [.call 1 (.wsp_client_stop 0), .app 1 {}, .app 1 {}, .app 1 {}, .app 1 {}]

/-- The service thread takes the pending clients. -/
def pending_connect_run : List Label :=
  [.event (.event_wait_cancelled true), .svc {}, .svc {}, .svc { connect := .accepted }, .svc {}]

theorem stopped_client_connected : ∃ cfg cfg' : Config,
    system.Follows Any (initial fresh_client) pending_stop_run cfg ∧
      (cfg.shared.trace 0 matches [.add_returns .LWS_OK, .lws_sul_cancel, .stop_returns]) = true ∧
      (cfg.shared.client 0).stopping = true ∧
      system.Follows Any cfg pending_connect_run cfg' ∧
      connects (cfg'.shared.trace 0) = 1 ∧ cfg'.shared.lws.owns 0 0 = true := by
  obtain ⟨cfg, hfollows, htrace, hstopping, hlater⟩ : ∃ cfg,
      system.Follows Any (initial fresh_client) pending_stop_run cfg ∧
        (cfg.shared.trace 0 matches [.add_returns .LWS_OK, .lws_sul_cancel, .stop_returns]) = true ∧
        (cfg.shared.client 0).stopping = true ∧
        (system.run Any cfg pending_connect_run).any (fun cfg' => decide
          (connects (cfg'.shared.trace 0) = 1 ∧ cfg'.shared.lws.owns 0 0 = true)) = true :=
    System.exists_follows_of_run (by decide)
  obtain ⟨cfg', hfollows', hconnected⟩ := System.exists_follows_of_run hlater
  exact ⟨cfg, cfg', hfollows, htrace, hstopping, hfollows', hconnected⟩

end lws_client.ws_pool
