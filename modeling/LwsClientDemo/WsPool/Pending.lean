import LwsClientDemo.WsPool.Registry
import LwsClientDemo.WsPool.Wakeup

open interleaving

namespace lws_client.ws_pool

/-- The client the service thread connects from the pending batch in the step. -/
def batched (cfg : Config) : Label → List ClientId
  | .svc _ =>
    match cfg.svc with
    | .wc_connect (c :: _) :: _ => [c]
    | _ => []
  | _ => []

/-- How often client `c` is still to be connected from a batch. -/
def Frame.batch (c : ClientId) : Frame → Nat
  | .wc_connect pend => pend.count c
  | _ => 0

variable {c : ClientId} {s s' : Sys} {ls : List Label} {cfg : Config}

/-- A section of the service thread takes the pending clients as a batch, or
    connects the first client of one, or leaves them alone. -/
theorem svc_batch {f : Frame} {a : Answer} {fs : List Frame} (rest : List Frame)
    (app : Nat → List AppFrame) (h : s.svc f a = some (fs, s')) :
    (batched ⟨s, f :: rest, app⟩ (.svc a)).count c + (fs.map (Frame.batch c)).sum +
      s'.pool.pending.count c = f.batch c + s.pool.pending.count c := by
  cases f with
  | event_wait_cancelled =>
    cases h
    simp [batched, Frame.batch, Sys.setPool]
  | do_connect d =>
    obtain ⟨⟨hpool, _⟩, hspec⟩ := do_connect_spec h
    rw [hpool]
    rcases hspec with ⟨rfl, _⟩ | ⟨error, destroyed, rfl, _⟩
    · simp [batched, Frame.batch]
    · cases error <;> cases destroyed <;> simp [batched, Frame.batch]
  | wc_connect pend =>
    cases pend with
    | nil =>
      cases h
      simp [batched, Frame.batch]
    | cons d pend =>
      cases h
      simp [batched, Frame.batch, List.count_cons, Nat.add_comm]
  | wc_visit snap =>
    cases snap with
    | nil =>
      cases h
      simp [batched, Frame.batch]
    | cons d snap =>
      simp only [Sys.svc] at h
      split at h
      · cases h
        simp [batched, Frame.batch]
      · split at h
        · cases h
          simp [batched, Frame.batch]
        · split at h <;> cases h <;> simp [batched, Frame.batch]
  | write d w n more =>
    simp only [Sys.svc] at h
    split at h <;> cases h
    · simp [batched, Sys.setLws, Frame.batch]
    · cases more <;> simp [batched, Frame.batch]
  | wsi_destroy _ _ | schedule_arm _ | lws_callback_on_writable _ _ | wc_snapshot =>
    cases h
    simp [batched, Frame.batch]
  | connection_error _ _ | connect_return _ _ | schedule_reconnect _ | has_data_check _ _ =>
    simp only [Sys.svc, Option.some.injEq, Prod.mk.injEq] at h
    obtain ⟨rfl, rfl⟩ := h
    split <;> simp [batched, Frame.batch]

/-- An event is the start of no batch. -/
theorem deliver_batch {e : Event} {fs : List Frame} (h : s.deliver e = some (fs, s')) :
    (fs.map (Frame.batch c)).sum = 0 := by
  cases e with
  | callback d w r a =>
    simp only [Sys.deliver, Option.ite_none_right_eq_some] at h
    obtain ⟨_, h⟩ := h
    cases r with
    | CLIENT_RECEIVE chunk =>
      simp only [Sys.callback, Option.map_eq_some_iff, Prod.mk.injEq] at h
      obtain ⟨_, _, rfl, _⟩ := h
      rfl
    | CLIENT_WRITEABLE =>
      simp only [Sys.callback] at h
      split at h
      · cases h
        rfl
      · split at h <;> cases h <;> rfl
    | CLIENT_CONNECTION_ERROR _ | CLIENT_CLOSED =>
      simp only [Sys.callback, Option.some.injEq, Prod.mk.injEq] at h
      obtain ⟨rfl, _⟩ := h
      split <;> rfl
    | CLIENT_ESTABLISHED | TIMER | CLIENT_RECEIVE_PONG | WSI_DESTROY
    | CLIENT_APPEND_HANDSHAKE_HEADER =>
      cases h
      rfl
  | event_wait_cancelled _ | sul_reconnect_cb _ =>
    simp only [Sys.deliver, Option.ite_none_right_eq_some, Option.some.injEq, Prod.mk.injEq] at h
    obtain ⟨_, rfl, _⟩ := h
    split <;> rfl
  | service_thread | exit | context_destroyed =>
    simp only [Sys.deliver, Option.ite_none_right_eq_some, Option.some.injEq, Prod.mk.injEq] at h
    obtain ⟨_, rfl, _⟩ := h
    rfl

/-- A client registers once, is pending once, and leaves `pending` for one batch. -/
theorem Follows.batched_le {ok : Config → Label → Prop} {client : ClientId → wsp_client}
    (h : system.Follows (fun cfg l => ok cfg l ∧ AddsOnce cfg l) (initial client) ls cfg)
    (c : ClientId) :
    (system.observe batched (initial client) ls).count c +
      (cfg.svc.map (Frame.batch c)).sum + cfg.shared.pool.pending.count c ≤
        (cfg.shared.client c).pool.toNat := by
  induction h with
  | nil => exact Nat.zero_le _
  | @snoc ls mid last l hmid hok hstep ih =>
    rw [hmid.observe_snoc, List.count_append]
    cases System.step_moves hstep with
    | event hdeliver =>
      have hnone := deliver_batch (c := c) hdeliver
      dsimp only at ih ⊢
      rw [hnone, deliver_pool hdeliver, (deliver_served hdeliver).1.joined]
      simpa [batched] using ih
    | @svc f a s s' app rest fs hsvc =>
      have hbatch := svc_batch (c := c) rest app hsvc
      dsimp only at ih ⊢
      rw [(svc_served hsvc).1.joined, List.map_append, List.sum_append]
      rw [List.map_cons, List.sum_cons] at ih
      omega
    | call _ _ => simpa [batched] using ih
    | @app t f a s s' svc app rest fs htop happ =>
      dsimp only at ih ⊢
      cases app_registers happ with
      | same _ hs hpending | start _ hs hpending =>
        rw [hs.joined, hpending]
        simpa [batched] using ih
      | clear _ hs hpending =>
        rw [hs.joined, hpending]
        simp [batched]
        omega
      | @add d _ _ hpending hjoined =>
        rw [hpending, hjoined, List.count_append]
        by_cases hd : c = d
        · subst hd
          have hfree : (s.client c).pool = false := hok.2 c ⟨rest, htop⟩
          rw [hfree] at ih
          simp [batched]
          simp at ih
          omega
        · simp [batched, hd, Ne.symm hd]
          omega

/-- The frame is part of `wsp_pool_destroy`. -/
def AppFrame.tears : AppFrame → Bool
  | .wsp_pool_destroy | .destroy_stop _ | .destroy_thread | .destroy_cancel | .destroy_join
  | .destroy_context | .destroy_context_return | .destroy_clients _ | .destroy_pending _ => true
  | _ => false

theorem tears_leads {clients : List ClientId} {f : AppFrame} {fs : List AppFrame}
    (h : fs ∈ f.leads clients) (hf : f.tears = false) : ∀ g ∈ fs, g.tears = false := by
  cases f with
  | enqueue c data is_binary =>
    cases data <;> simp only [AppFrame.leads, List.mem_singleton] at h <;> subst h <;>
      simp [AppFrame.tears]
  | wsp_pool_destroy | destroy_stop _ | destroy_thread | destroy_cancel | destroy_join
  | destroy_context | destroy_context_return | destroy_clients _ | destroy_pending _ => cases hf
  | _ =>
    simp only [AppFrame.leads, List.mem_cons, List.not_mem_nil, or_false] at h
    rcases h with rfl | rfl <;> simp [AppFrame.tears]

/-- The pool is not destroyed, and an EVENT_WAIT_CANCELLED comes with a
    connection, as lws gives it one. -/
def Standing (_ : Config) : Label → Prop
  | .call _ f => f.tears = false
  | .event (.event_wait_cancelled wsi) => wsi = true
  | _ => True

instance (cfg : Config) (l : Label) : Decidable (Standing cfg l) :=
  match l with
  | .call _ f => inferInstanceAs (Decidable (f.tears = false))
  | .event (.event_wait_cancelled wsi) => inferInstanceAs (Decidable (wsi = true))
  | .event .service_thread | .event (.callback _ _ _ _) | .event (.sul_reconnect_cb _)
  | .event .exit | .event .context_destroyed | .svc _ | .app _ _ => .isTrue trivial

/-- Nobody destroys the pool. -/
structure Stands (cfg : Config) : Prop where
  app : ∀ t, ∀ f ∈ cfg.app t, f.tears = false
  freed : cfg.shared.freed = false

theorem Stands.step {cfg' : Config} {l : Label} (hmove : system.Moves cfg l cfg')
    (hok : Standing cfg l) (h : Stands cfg) : Stands cfg' := by
  cases hmove with
  | event hdeliver => exact ⟨h.app, (deliver_served hdeliver).1.freed.trans h.freed⟩
  | svc hsvc => exact ⟨h.app, (svc_served hsvc).1.freed.trans h.freed⟩
  | call _ _ =>
    refine ⟨fun u g hg => ?_, h.freed⟩
    rcases mem_update_app.mp hg with ⟨_, hmem⟩ | ⟨_, hmem⟩
    · obtain rfl := List.mem_singleton.mp hmem
      exact hok
    · exact h.app u g hmem
  | @app t f a s s' svc app rest fs htop happ =>
    have hf : f.tears = false := h.app t f (by simp [htop])
    have hleads := app_leads (f := f) (a := a) happ
    refine ⟨fun u g hg => ?_, ?_⟩
    · rcases mem_update_app.mp hg with ⟨rfl, hmem⟩ | ⟨_, hmem⟩
      · rcases List.mem_append.mp hmem with hmem | hmem
        · exact tears_leads hleads hf g hmem
        · exact h.app u g (by simp [htop, hmem])
      · exact h.app u g hmem
    · by_cases hguest : f.guest = true
      · exact (app_guest happ hguest).1.freed.trans h.freed
      · have happ' : s.app f a = some (fs, s') := happ
        cases f with
        | wsp_pool_start | start_thread =>
          simp only [Sys.app] at happ'
          split at happ' <;> cases happ' <;> exact h.freed
        | start_return | start_pending | start_cancel =>
          cases happ'
          exact h.freed
        | wsp_pool_destroy | destroy_stop _ | destroy_thread | destroy_cancel | destroy_join
        | destroy_context | destroy_context_return | destroy_clients _ | destroy_pending _ => cases hf
        | _ => exact absurd rfl hguest

/-- A pool that stands and whose thread has been started has its context. -/
theorem Owner.standing {fs : List AppFrame} (h : Owner fs s) (hfs : ∀ f ∈ fs, f.tears = false)
    (hfreed : s.freed = false) :
    (s.pool.thread_started = true → s.Started) ∧ s.thread ≠ .destroying := by
  have hup : s.Started → (s.pool.thread_started = true → s.Started) ∧ s.thread ≠ .destroying := by
    intro hstarted
    refine ⟨fun _ => hstarted, fun hthread => ?_⟩
    rcases hstarted.1 with heq | heq <;> rw [heq] at hthread <;> cases hthread
  have hdown : s.thread = .none → s.pool.thread_started = false →
      (s.pool.thread_started = true → s.Started) ∧ s.thread ≠ .destroying := by
    intro hthread hnot
    refine ⟨fun hstarted => ?_, by rw [hthread]; simp⟩
    rw [hnot] at hstarted
    cases hstarted
  cases h with
  | guests _ hidle =>
    rcases hidle with ⟨hthread, hnot⟩ | ⟨_, hstarted⟩
    · exact hdown hthread hnot
    · exact hup hstarted
  | start hthread hnot | create hthread hnot _ => exact hdown hthread hnot
  | created hstarted | notify _ _ hstarted => exact hup hstarted
  | freed _ _ hgone =>
    rw [hfreed] at hgone
    cases hgone
  | stop _ _ => exact absurd (hfs .destroy_thread (by simp)) (by simp [AppFrame.tears])
  | join _ _ _ => exact absurd (hfs .destroy_join (by simp)) (by simp [AppFrame.tears])
  | @free pre rem snap _ _ _ => exact absurd (hfs (.destroy_pending snap) (by simp)) (by simp [AppFrame.tears])
  | destroy _ | thread _ | context _ | context_return _ | last _ =>
    exact absurd (hfs _ (List.mem_cons_self ..)) (by simp [AppFrame.tears])

/-- The frame is on its way to an `lws_cancel_service`: an add behind its locked
    section, or `wsp_pool_start` after it has set `thread_started`. -/
def AppFrame.notifies : AppFrame → Bool
  | .pool_add_wake | .start_pending | .start_cancel => true
  | _ => false

/-- The started service thread will be told of the pending clients. -/
def Covered (cfg : Config) : Prop :=
  cfg.shared.pool.thread_started = true → cfg.shared.pool.pending ≠ [] →
    cfg.shared.lws.cancelled = true ∨ Pending cfg.app (fun f => f.notifies = true) ∨
      .event_wait_cancelled ∈ cfg.svc

theorem deliver_cancelled {e : Event} {fs : List Frame} (h : s.deliver e = some (fs, s'))
    (hok : e ≠ .event_wait_cancelled false) (hthread : s.thread ≠ .destroying)
    (hcancelled : s.lws.cancelled = true) :
    s'.lws.cancelled = true ∨ .event_wait_cancelled ∈ fs := by
  cases e with
  | callback c w r a =>
    simp only [Sys.deliver, Option.ite_none_right_eq_some] at h
    exact .inl ((callback_keeps h.2).1.cancelled hcancelled)
  | event_wait_cancelled wsi =>
    simp only [Sys.deliver, Option.ite_none_right_eq_some, Option.some.injEq, Prod.mk.injEq] at h
    obtain ⟨_, rfl, _⟩ := h
    cases wsi with
    | false => exact absurd rfl hok
    | true => exact .inr (by simp)
  | context_destroyed =>
    simp only [Sys.deliver, Option.ite_none_right_eq_some] at h
    exact absurd h.1.1 hthread
  | service_thread | sul_reconnect_cb _ | exit =>
    simp only [Sys.deliver, Option.ite_none_right_eq_some, Option.some.injEq, Prod.mk.injEq] at h
    obtain ⟨_, _, rfl⟩ := h
    exact .inl hcancelled

/-- Only `wsp_pool_start` sets `thread_started`. -/
theorem app_thread_started {f : AppFrame} {a : Answer} {fs : List AppFrame}
    (h : s.app f a = some (fs, s')) (hstarted : s'.pool.thread_started = true) :
    s.pool.thread_started = true ∨ (f = .start_return ∧ fs = [.start_pending]) := by
  by_cases hf : f.guest = true
  · exact .inl ((app_guest h hf).1.thread_started ▸ hstarted)
  · cases f with
    | start_return =>
      cases h
      exact .inr ⟨rfl, rfl⟩
    | wsp_pool_start | start_thread | destroy_thread | destroy_context =>
      simp only [Sys.app] at h
      split at h <;> cases h <;> exact .inl hstarted
    | destroy_cancel =>
      simp only [Sys.app, Option.some.injEq, Prod.mk.injEq] at h
      obtain ⟨_, rfl⟩ := h
      split at hstarted <;> exact .inl hstarted
    | destroy_join =>
      simp only [Sys.app, Option.ite_none_right_eq_some, Option.some.injEq, Prod.mk.injEq] at h
      obtain ⟨_, _, rfl⟩ := h
      cases hstarted
    | destroy_context_return =>
      simp only [Sys.app, Option.ite_none_right_eq_some, Option.some.injEq, Prod.mk.injEq] at h
      obtain ⟨_, _, rfl⟩ := h
      exact .inl hstarted
    | destroy_stop snap | destroy_clients snap => cases snap <;> cases h <;> exact .inl hstarted
    | destroy_pending snap =>
      simp only [Sys.app, Option.map_eq_some_iff, Prod.mk.injEq] at h
      obtain ⟨_, hdestroy, _, rfl⟩ := h
      exact .inl ((destroy_all_lent hdestroy).thread_started ▸ hstarted)
    | start_pending | start_cancel | wsp_pool_destroy =>
      cases h
      exact .inl hstarted
    | _ => exact absurd rfl hf

/-- A section that passes on a notification, or makes it. -/
theorem app_notifies {f : AppFrame} {a : Answer} {fs : List AppFrame}
    (h : s.app f a = some (fs, s')) (hf : f.notifies = true) (hpending : s'.pool.pending ≠ []) :
    s'.lws.cancelled = true ∨ ∃ g ∈ fs, g.notifies = true := by
  cases f with
  | pool_add_wake | start_cancel =>
    cases h
    exact .inl rfl
  | start_pending =>
    simp only [Sys.app, Option.some.injEq, Prod.mk.injEq] at h
    obtain ⟨rfl, rfl⟩ := h
    rw [if_neg (by simpa using hpending)]
    exact .inr ⟨.start_cancel, by simp, rfl⟩
  | _ => cases hf

theorem Covered.step {cfg' : Config} {l : Label} (hmove : system.Moves cfg l cfg')
    (hok : Standing cfg l) (hlife : Lifecycle cfg) (hstands : Stands cfg)
    (hb : cfg.shared.lws.Bounded) (h : Covered cfg) : Covered cfg' := by
  obtain ⟨hup, hthread⟩ := hlife.owner.standing (hstands.app 0) hstands.freed
  cases hmove with
  | @event e s s' app fs hdeliver =>
    intro hstarted hpending
    dsimp only at hstarted hpending ⊢
    rw [deliver_pool hdeliver] at hstarted hpending
    rcases h hstarted hpending with hcancelled | hnotify | hframe
    · have hlossless : e ≠ .event_wait_cancelled false := by
        rintro rfl
        cases hok
      rcases deliver_cancelled hdeliver hlossless hthread hcancelled with hkept | htaken
      · exact .inl hkept
      · exact .inr (.inr htaken)
    · exact .inr (.inl hnotify)
    · cases hframe
  | @svc f a s s' app rest fs hsvc =>
    intro hstarted hpending
    dsimp only at hstarted hpending ⊢
    rcases svc_pool hsvc with hpool | ⟨rfl, rfl, rfl⟩
    · rw [hpool] at hstarted hpending
      rcases h hstarted hpending with hcancelled | hnotify | hframe
      · exact .inl ((svc_keeps hsvc hb).cancelled hcancelled)
      · exact .inr (.inl hnotify)
      · rcases List.mem_cons.mp hframe with rfl | hrest
        · cases hsvc
          exact absurd rfl (hpool ▸ hpending)
        · exact .inr (.inr (List.mem_append_right _ hrest))
    · exact absurd rfl hpending
  | @call t f s svc app hidle hcall =>
    intro hstarted hpending
    exact (h hstarted hpending).imp_right (Or.imp_left fun hnotify => hnotify.call hidle)
  | @app t f a s s' svc app rest fs htop happ =>
    intro hstarted hpending
    dsimp only at hstarted hpending ⊢
    rcases app_thread_started happ hstarted with hbefore | ⟨rfl, rfl⟩
    · by_cases hf : f.notifies = true
      · rcases app_notifies happ hf hpending with hcancelled | ⟨g, hg, hnotifies⟩
        · exact .inl hcancelled
        · exact .inr (.inl (.of_pushed (List.mem_append_left _ hg) hnotifies))
      · cases app_registers happ with
        | same hcalls _ hsame =>
          rw [hsame] at hpending
          rcases h hbefore hpending with hcancelled | hnotify | hframe
          · exact .inl (hcalls.keeps.cancelled hcancelled)
          · exact .inr (.inl (hnotify.update htop hf fs))
          · exact .inr (.inr hframe)
        | @add c _ _ hadded _ =>
          -- The adder has seen the context.
          rcases app_add (a := a) happ with ⟨_, _, _, _, _, hfs⟩ | ⟨_, hpool, _⟩
          · have hctx : s.pool.ctx = true := (hup hbefore).2.1
            rw [hfs, if_pos hctx]
            exact .inr (.inl (.of_pushed (f := .pool_add_wake) (by simp) rfl))
          · have hlen := congrArg (fun p => p.pending.length) hpool
            simp [hadded] at hlen
        | start _ _ _ =>
          have hnone := hlife.none htop (.inl rfl)
          rcases (hup hbefore).1 with heq | heq <;> rw [hnone] at heq <;> cases heq
        | clear _ _ hnone => exact absurd hnone hpending
    · exact .inr (.inl (.of_pushed (f := .start_pending) (by simp) rfl))

theorem Reaches.bounded {ok : Config → Label → Prop} {client : ClientId → wsp_client}
    (h : system.Reaches ok (initial client) cfg) : cfg.shared.lws.Bounded :=
  h.invariant (I := fun cfg => cfg.shared.lws.Bounded) (fun _ _ => rfl)
    fun _ _ _ _ hmove => bounded_step hmove

theorem Reaches.covered {client : ClientId → wsp_client}
    (h : system.Reaches Standing (initial client) cfg) : Covered cfg := by
  refine h.invariant_under (I := Covered)
    (J := fun mid => Lifecycle mid ∧ Stands mid ∧ mid.shared.lws.Bounded)
    (fun mid hmid => ⟨Reaches.lifecycle hmid, ?_, Reaches.bounded hmid⟩) (fun hstarted => by cases hstarted)
    fun _ _ _ hknown hok hmove => Covered.step hmove hok hknown.1 hknown.2.1 hknown.2.2
  exact hmid.invariant ⟨fun _ _ hf => (by cases hf), rfl⟩ fun _ _ _ hok hmove => Stands.step hmove hok

/-- In every run that adds distinct clients, no client is lost on its way from
    `wsp_pool_add` to its first connection or connected twice on it, and the
    arrays stay in bounds. -/
theorem adds_kept {client : ClientId → wsp_client} (hfresh : ∀ c, (client c).Fresh)
    (h : system.Follows Standing (initial client) ls cfg) (hdistinct : (added ls).Nodup) :
    cfg.shared.pool.clients.Nodup ∧
    (∀ c ∈ cfg.shared.pool.pending, c ∈ cfg.shared.pool.clients) ∧
    cfg.shared.pool.pending.length ≤ cfg.shared.pool.clients.length ∧
    cfg.shared.pool.clients.length ≤ WSP_MAX_CLIENTS ∧
    (∀ c, (system.observe batched (initial client) ls).count c ≤ 1) ∧
    (cfg.shared.pool.thread_started = true → (∀ t, ∀ f ∈ cfg.app t, f.notifies = false) →
      cfg.shared.pool.pending ≠ [] →
        cfg.shared.lws.cancelled = true ∨ .event_wait_cancelled ∈ cfg.svc) := by
  have honce := Follows.adds_once hfresh h hdistinct
  have hregistry := Reaches.registry h.reaches
  refine ⟨?_, fun c hc => hregistry.pending.subset hc, hregistry.pending.length_le, hregistry.room,
    fun c => ?_, fun hstarted hquiet hpending => ?_⟩
  · exact (Reaches.members (fun _ _ hok => hok.2) hfresh honce.reaches).nodup
  · have hle := Follows.batched_le honce c
    have hone := Bool.toNat_le (cfg.shared.client c).pool
    omega
  · rcases Reaches.covered h.reaches hstarted hpending with hcancelled | ⟨t, f, hf, hnotifies⟩ | hframe
    · exact .inl hcancelled
    · rw [hquiet t f hf] at hnotifies
      cases hnotifies
    · exact .inr hframe

/-- Client 0 is added to the started pool, up to the return of `wsp_pool_add`. -/
def added_run : List Label := connected_run.take 10

theorem adds_kept_added : ∃ cfg, system.Follows Standing (initial fresh_client) added_run cfg ∧
    cfg.shared.pool.pending = [0] ∧
    (cfg.shared.lws.cancelled = true ∨ .event_wait_cancelled ∈ cfg.svc) := by
  obtain ⟨cfg, hfollows, hpending, hstarted, hdone⟩ : ∃ cfg,
      system.Follows Standing (initial fresh_client) added_run cfg ∧
        cfg.shared.pool.pending = [0] ∧ cfg.shared.pool.thread_started = true ∧
        ((List.range 2).all fun t => (cfg.app t).isEmpty) = true :=
    System.exists_follows_of_run (by decide)
  have hidle : ∀ t, cfg.app t = [] := hfollows.idle (fun _ => rfl) (by decide) hdone
  have hfresh : ∀ c, (fresh_client c).Fresh := fun _ => wsp_client_create_fresh _ _ _ _
  have hdistinct : (added added_run).Nodup := by decide
  obtain ⟨_, _, _, _, _, hnotified⟩ := adds_kept hfresh hfollows hdistinct
  exact ⟨cfg, hfollows, hpending, hnotified hstarted (fun t f hf => by simp [hidle t] at hf)
    (by simp [hpending])⟩

end lws_client.ws_pool
