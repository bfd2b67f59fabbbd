import LwsClientDemo.FailureLimit
import LwsClientDemo.WsPool.Breaker
import LwsClientDemo.WsPool.Notifications

open interleaving

namespace lws_client.ws_pool

/-- A question to the hook of client `d` is answered by `hook`. -/
def answered (hook : Decision) (d : ClientId) (cfg : Config) : Label → Bool
  | .svc a =>
    !cfg.svc.head?.any (Frame.arms d) ||
      hook.answers (schedule_reconnect (cfg.shared.client d) a.ret).2 a.ret
  | _ => true

/-- No two `wsp_pool_add` of client `d` overlap, and `hook` is the hook of the
    client. -/
structure Obeys (hook : Decision) (d : ClientId) (cfg : Config) (l : Label) : Prop where
  once : AddedOnce d cfg l
  answered : answered hook d cfg l = true

theorem obeys_iff {hook : Decision} {d : ClientId} {cfg : Config} {l : Label} :
    Obeys hook d cfg l ↔ AddedOnce d cfg l ∧ answered hook d cfg l = true :=
  ⟨fun h => ⟨h.once, h.answered⟩, fun h => ⟨h.1, h.2⟩⟩

instance (hook : Decision) (d : ClientId) (cfg : Config) (l : Label) :
    Decidable (Obeys hook d cfg l) :=
  decidable_of_iff' _ obeys_iff

/-- Client `d` has had its last failure: what may be left of it are questions to
    its hook. -/
structure Tripped (d : ClientId) (svc : List Frame) (s : Sys) : Prop where
  pool : (s.client d).pool = true
  pending : d ∉ s.pool.pending
  turns : ∀ f ∈ svc, f.holds d = 0
  errors : ∀ msg, .connection_error d msg ∉ svc
  sul : (s.client d).sul = none
  lives : s.lws.lives d = 0

variable {d : ClientId} {s s' : Sys} {fs rest svc : List Frame} {max : Int} {hook : Decision}

/-- While the service thread is idle a tripped client has no place. -/
theorem Tripped.seats (h : Tripped d svc s) : ws_pool.seats d [] s = 0 := by
  simp [ws_pool.seats, Sys.retrying, List.count_eq_zero.mpr h.pending, h.sul, h.lives]

theorem Tripped.of_seats (hpool : (s'.client d).pool = true) (hseats : ws_pool.seats d fs s' = 0)
    (hturns : ∀ f ∈ rest, f.holds d = 0) (herrors : ∀ msg, .connection_error d msg ∉ rest) :
    Tripped d (fs ++ rest) s' := by
  have hcalm := Calm.of_seats hseats
  refine ⟨hpool, hcalm.pending, fun f hf => ?_, fun msg hmem => ?_, hcalm.sul, hcalm.lives⟩
  · rcases List.mem_append.mp hf with hf | hf
    · exact hcalm.turns f hf
    · exact hturns f hf
  · rcases List.mem_append.mp hmem with hmem | hmem
    · have hretrying : s'.retrying d fs = true := by
        rw [Sys.retrying, Bool.or_eq_true]
        exact .inr (List.any_eq_true.mpr ⟨_, hmem, by simp [Frame.retries]⟩)
      simp [ws_pool.seats, hretrying] at hseats
    · exact herrors msg hmem

/-- A section of a retry that arms nothing. -/
theorem Tripped.retry {f : Frame} (h : Tripped d (f :: rest) s)
    (hpool : (s'.client d).pool = (s.client d).pool) (hpending : s'.pool.pending = s.pool.pending)
    (hsul : (s'.client d).sul = (s.client d).sul) (hlives : s'.lws.lives d = s.lws.lives d)
    (hfs : ∀ g ∈ fs, g.holds d = 0 ∧ ∀ msg, g ≠ .connection_error d msg) :
    Tripped d (fs ++ rest) s' := by
  refine ⟨hpool.trans h.pool, hpending ▸ h.pending, fun g hg => ?_, fun msg hmem => ?_,
    hsul.trans h.sul, hlives.trans h.lives⟩
  · rcases List.mem_append.mp hg with hg | hg
    · exact (hfs g hg).1
    · exact h.turns g (List.mem_cons_of_mem _ hg)
  · rcases List.mem_append.mp hmem with hmem | hmem
    · exact (hfs _ hmem).2 msg rfl
    · exact h.errors msg (List.mem_cons_of_mem _ hmem)

theorem svc_tripped {f : Frame} {a : Answer} (h : s.svc f a = some (fs, s')) (hb : s.lws.Bounded)
    (hasks : (s.client d).asks = true) (hrefuses : f = .schedule_arm d → a.ret < 0)
    (htripped : Tripped d (f :: rest) s) :
    Tripped d (fs ++ rest) s' ∧ connects (s'.trace d) = connects (s.trace d) := by
  have hsame : (hf : f ≠ .schedule_arm d) → connects (s'.trace d) = connects (s.trace d) := by
    intro hf
    rw [← connects_retries, svc_retries h ?_ hf, connects_retries]
    rintro rfl
    have hturn := htripped.turns (.do_connect d) (by simp)
    simp [Frame.holds] at hturn
  by_cases hretries : f.retries d = true
  · cases f with
    | connection_error c msg =>
      obtain rfl : c = d := beq_iff_eq.mp hretries
      exact absurd (by simp) (htripped.errors msg)
    | wsi_destroy c w =>
      obtain ⟨_, _, hc, _⟩ := wsi_destroy_client (s.client c) w
      refine ⟨?_, hsame (by simp)⟩
      cases h
      exact htripped.retry (Sys.act_joined (by rw [hc]) d) rfl (Sys.act_sul (by rw [hc]) d)
        (s.act_lives c _ d) (by simp)
    | connect_return c wsi =>
      cases wsi with
      | some w => cases hretries
      | none =>
        refine ⟨?_, hsame (by simp)⟩
        cases h
        exact htripped.retry (Sys.act_joined rfl d) rfl (Sys.act_sul rfl d) (s.act_lives c _ d)
          (by simp [Frame.holds])
    | schedule_reconnect c =>
      refine ⟨?_, hsame (by simp)⟩
      simp only [Sys.svc, Option.some.injEq, Prod.mk.injEq] at h
      obtain ⟨rfl, rfl⟩ := h
      exact htripped.retry rfl rfl rfl rfl (by split <;> simp [Frame.holds])
    | schedule_arm c =>
      obtain rfl : c = d := beq_iff_eq.mp hretries
      have hneg := hrefuses rfl
      have hstopped : schedule_reconnect (s.client c) a.ret =
          ({ s.client c with state := .STATE_STOPPED },
            [.on_reconnect_decision (s.client c).reconnect_fail_count
              (if int_double (s.client c).reconnect_delay_ms > (s.client c).reconnect_max_ms then
                (s.client c).reconnect_max_ms else int_double (s.client c).reconnect_delay_ms)]) := by
        rw [wsp_client.asks] at hasks
        simp [schedule_reconnect, hasks, hneg]
      cases h
      rw [hstopped]
      refine ⟨htripped.retry (Sys.act_joined rfl c) rfl (Sys.act_sul rfl c) (s.act_lives c _ c)
        (by simp), ?_⟩
      simp [connects]
    | _ => cases hretries
  · have hnone : ws_pool.seats d ([f] ++ []) s = 0 := by
      have hturn := htripped.turns f (by simp)
      have hidle := htripped.seats
      simp only [ws_pool.seats, Sys.retrying, List.map_nil, List.sum_nil, List.any_nil,
        Bool.or_false] at hidle
      simp only [ws_pool.seats, Sys.retrying, List.append_nil, List.map_cons, List.map_nil,
        List.sum_cons, List.sum_nil, List.any_cons, List.any_nil, hretries, Bool.or_false, hturn]
      omega
    have hle := svc_seats d [] h hb
    rw [hnone, List.append_nil] at hle
    refine ⟨?_, hsame ?_⟩
    · exact .of_seats (((svc_served h).1.joined d).trans htripped.pool) (Nat.le_zero.mp hle)
        (fun g hg => htripped.turns g (List.mem_cons_of_mem _ hg))
        fun msg hmem => htripped.errors msg (List.mem_cons_of_mem _ hmem)
    · rintro rfl
      simp [Frame.retries] at hretries

theorem deliver_tripped {e : Event} (h : s.deliver e = some (fs, s')) (hb : s.lws.Bounded)
    (htripped : Tripped d [] s) :
    Tripped d fs s' ∧ connects (s'.trace d) = connects (s.trace d) := by
  have hle := deliver_seats (d := d) h hb
  rw [htripped.seats] at hle
  refine ⟨?_, ?_⟩
  · rw [← List.append_nil fs]
    exact .of_seats (((deliver_served h).1.joined d).trans htripped.pool) (Nat.le_zero.mp hle)
      (by simp) (by simp)
  · rw [← connects_retries, (deliver_inner h d).retries, connects_retries]

theorem app_tripped {f : AppFrame} {a : Answer} {gs : List AppFrame}
    (h : s.app f a = some (gs, s')) (honce : f = .pool_add_locked d → (s.client d).pool = false)
    (htripped : Tripped d svc s) :
    Tripped d svc s' ∧ connects (s'.trace d) = connects (s.trace d) := by
  have hpool := (app_advance h d).joined htripped.pool
  have hle : ws_pool.seats d [] s' + _ ≤ ws_pool.seats d [] s + _ := app_seats h honce
  rw [htripped.seats, hpool, htripped.pool] at hle
  refine ⟨?_, ?_⟩
  · rw [← List.nil_append svc]
    exact .of_seats hpool (by omega) htripped.turns htripped.errors
  · rw [← connects_retries, (app_attempts h d).2.2, connects_retries]

/-- Client `d` has not failed more than `max` times in a row, and is tripped when
    it has failed so often. A connect call that fails finds no timer armed. -/
structure Counted (max : Int) (d : ClientId) (svc : List Frame) (s : Sys) : Prop where
  bound : (s.client d).reconnect_fail_count ≤ max
  tripped : (s.client d).reconnect_fail_count = max → Tripped d svc s
  failing : ∀ msg rest, svc = .connection_error d msg :: rest → (s.client d).sul = none

/-- The failure that uses the last place of the client. -/
theorem Counted.fail (hcount : (s'.client d).reconnect_fail_count ≤ max)
    (hpool : (s'.client d).pool = true) (hpending : d ∉ s'.pool.pending)
    (hturns : ∀ f ∈ svc, f.holds d = 0) (herrors : ∀ msg, .connection_error d msg ∉ svc)
    (hsul : (s'.client d).sul = none) (hlives : s'.lws.lives d = 0) : Counted max d svc s' :=
  ⟨hcount, fun _ => ⟨hpool, hpending, hturns, herrors, hsul, hlives⟩, fun _ _ _ => hsul⟩

/-- A client that has a connection is not tripped. -/
theorem Counted.below {w : WsiId} (h : Counted max d svc s) (hb : s.lws.Bounded)
    (howns : s.lws.owns d w = true) : (s.client d).reconnect_fail_count < max := by
  refine lt_of_le_of_ne h.bound fun heq => ?_
  have hpos := hb.lives_pos howns
  rw [(h.tripped heq).lives] at hpos
  exact absurd hpos (Nat.lt_irrefl 0)

/-- The end of the connection of client `d`, which `failed` reports. -/
theorem Counted.lost {w : WsiId} {p : WsiPhase} {r : wsp_client × List Act} (failed : Int)
    (h : Counted max d [] s) (hb : s.lws.Bounded)
    (hseats : seats d [] s ≤ (s.client d).pool.toNat) (hlink : s.lws.link w = some (d, p))
    (hp : p ≠ .closed) (hpool : r.1.pool = (s.client d).pool) (hsul : r.1.sul = (s.client d).sul)
    (hcount : r.1.reconnect_fail_count = (s.client d).reconnect_fail_count + failed)
    (hfailed : failed ≤ 1) :
    Counted max d (if (s.client d).stopping then [] else [.schedule_reconnect d])
      ((s.setLws (s.lws.setPhase w .closed)).act d r) := by
  have howns : s.lws.owns d w = true := lws_context.owns_eq_true.mpr ⟨p, hlink, hp⟩
  have hbelow := h.below hb howns
  obtain ⟨hjoined, hpending, hnosul, hone⟩ := seats_owned (hb.lives_pos howns) hseats
  have hlast := hb.lives_close hlink hp d
  rw [beq_self_eq_true, Bool.toNat_true, hone] at hlast
  refine .fail ?_ ?_ hpending ?_ ?_ ?_ ?_
  · rw [Sys.act_client, if_pos rfl, hcount]
    omega
  · rw [Sys.act_client, if_pos rfl, hpool, hjoined]
  · split <;> simp [Frame.holds]
  · split <;> simp
  · rw [Sys.act_client, if_pos rfl, hsul, hnosul]
  · rw [Sys.act_lives, Sys.setLws_lws]
    omega

/-- A step that keeps the failures. -/
theorem Counted.keep (h : Counted max d svc s) {svc' : List Frame}
    (hcount : (s'.client d).reconnect_fail_count = (s.client d).reconnect_fail_count)
    (htripped : (s.client d).reconnect_fail_count = max → Tripped d svc s → Tripped d svc' s')
    (hfailing : ∀ msg rest, svc' = .connection_error d msg :: rest → (s'.client d).sul = none) :
    Counted max d svc' s' := by
  refine ⟨hcount ▸ h.bound, fun heq => ?_, hfailing⟩
  have hbefore := hcount.symm.trans heq
  exact htripped hbefore (h.tripped hbefore)

theorem callback_counted {w : WsiId} {a : Answer} {r : Reason}
    (h : s.callback d w a r = some (fs, s')) (hmax : 1 ≤ max)
    (huser : (s.lws.wsi w).any (fun i => i.user == d) = true)
    (henabled : s.lws.enables s.thread w r = true) (hb : s.lws.Bounded)
    (hseats : seats d [] s ≤ (s.client d).pool.toNat)
    (htripped : Tripped d [] s → Tripped d fs s') (hcounted : Counted max d [] s) :
    Counted max d fs s' := by
  have hlink : r ≠ .WSI_DESTROY → s.lws.link w = some (d, r.phase) := fun hr =>
    lws_context.link_of_phase huser (lws_context.phase_of_enables_ne henabled hr)
  have hfailing : ∀ msg rest, fs ≠ .connection_error d msg :: rest := by
    intro msg rest hfs
    rcases callback_frames h with hnil | ⟨f, hone, hsingle, _⟩
    · rw [hnil] at hfs
      cases hfs
    · rw [hone] at hfs
      cases hfs
      cases hsingle
  have hkeep : (s'.client d).reconnect_fail_count = (s.client d).reconnect_fail_count →
      Counted max d fs s' := fun hcount =>
    hcounted.keep hcount (fun _ => htripped) fun msg rest hfs => absurd hfs (hfailing msg rest)
  cases r with
  | CLIENT_ESTABLISHED =>
    cases h
    have hzero : (((s.setLws (s.lws.setPhase w .established)).act d
        (established (s.client d) w)).client d).reconnect_fail_count = 0 := by
      rw [Sys.act_client, if_pos rfl]
      rfl
    refine ⟨?_, fun heq => ?_, fun msg rest hfs => absurd hfs (hfailing msg rest)⟩
    · rw [hzero]
      omega
    · rw [hzero] at heq
      omega
  | CLIENT_CONNECTION_ERROR msg =>
    obtain ⟨_, _, _, hc, _⟩ := connection_error_client (s.client d) msg
    simp only [Sys.callback, Option.some.injEq, Prod.mk.injEq] at h
    obtain ⟨rfl, rfl⟩ := h
    by_cases hstop : (s.client d).stopping = true
    · refine .lost 0 hcounted hb hseats (hlink (by simp)) (by simp [Reason.phase]) (by rw [hc])
        (by rw [hc]) ?_ (by omega)
      simp [connection_error_stopping hstop, signal_stopped]
    · have hgoing : (s.client d).stopping = false := by simpa using hstop
      exact .lost 1 hcounted hb hseats (hlink (by simp)) (by simp [Reason.phase]) (by rw [hc])
        (by rw [hc]) (connection_error_counts msg hgoing) (by omega)
  | CLIENT_CLOSED =>
    obtain ⟨_, _, _, hc, _⟩ := closed_client (s.client d)
    simp only [Sys.callback, Option.some.injEq, Prod.mk.injEq] at h
    obtain ⟨rfl, rfl⟩ := h
    by_cases hstop : (s.client d).stopping = true
    · refine .lost 0 hcounted hb hseats (hlink (by simp)) (by simp [Reason.phase]) (by rw [hc])
        (by rw [hc]) ?_ (by omega)
      simp [closed_stopping hstop, signal_stopped]
    · have hgoing : (s.client d).stopping = false := by simpa using hstop
      exact .lost 1 hcounted hb hseats (hlink (by simp)) (by simp [Reason.phase]) (by rw [hc])
        (by rw [hc]) (closed_counts hgoing) (by omega)
  | CLIENT_RECEIVE chunk =>
    refine hkeep ?_
    simp only [Sys.callback, Option.map_eq_some_iff, Prod.mk.injEq] at h
    obtain ⟨o, ho, _, rfl⟩ := h
    obtain ⟨frag, hc⟩ := receive_client ho
    split <;> simp [hc]
  | CLIENT_WRITEABLE =>
    refine hkeep ?_
    simp only [Sys.callback] at h
    split at h
    · cases h
      simp [writeable_ping]
    · split at h <;> cases h <;> simp
  | TIMER =>
    refine hkeep ?_
    obtain ⟨send_ping, hc⟩ := timer_client (s.client d) w a.ret
    simp only [Sys.callback, Option.some.injEq, Prod.mk.injEq] at h
    obtain ⟨_, rfl⟩ := h
    split <;> simp [hc]
  | WSI_DESTROY =>
    refine hkeep ?_
    obtain ⟨_, _, hc, _⟩ := wsi_destroy_client (s.client d) w
    cases h
    simp [hc]
  | CLIENT_RECEIVE_PONG | CLIENT_APPEND_HANDSHAKE_HEADER =>
    refine hkeep ?_
    cases h
    simp [receive_pong]

theorem deliver_counted {e : Event} (h : s.deliver e = some (fs, s')) (hmax : 1 ≤ max)
    (hb : s.lws.Bounded) (hseats : seats d [] s ≤ (s.client d).pool.toNat)
    (hcounted : Counted max d [] s) : Counted max d fs s' := by
  have htripped := fun ht => (deliver_tripped (d := d) h hb ht).1
  have hkeep : (s'.client d).reconnect_fail_count = (s.client d).reconnect_fail_count →
      (∀ msg rest, fs ≠ .connection_error d msg :: rest) → Counted max d fs s' := fun hcount hfs =>
    hcounted.keep hcount (fun _ => htripped) fun msg rest heq => absurd heq (hfs msg rest)
  cases e with
  | callback c w r a =>
    have hframes := h
    simp only [Sys.deliver, Option.ite_none_right_eq_some, Bool.and_eq_true] at h
    obtain ⟨⟨huser, henabled⟩, h⟩ := h
    by_cases hd : d = c
    · subst hd
      exact callback_counted h hmax huser henabled hb hseats htripped hcounted
    · refine hkeep (by rw [(callback_other h hd).1]) fun msg rest hfs => ?_
      rcases callback_frames h with hnil | ⟨f, hone, hsingle, _⟩
      · rw [hnil] at hfs
        cases hfs
      · rw [hone] at hfs
        cases hfs
        cases hsingle
  | sul_reconnect_cb c =>
    simp only [Sys.deliver, Option.ite_none_right_eq_some, Option.some.injEq, Prod.mk.injEq] at h
    obtain ⟨_, rfl, rfl⟩ := h
    refine hkeep (Sys.act_count rfl d) fun msg rest hfs => ?_
    split at hfs <;> cases hfs
  | event_wait_cancelled wsi =>
    simp only [Sys.deliver, Option.ite_none_right_eq_some, Option.some.injEq, Prod.mk.injEq] at h
    obtain ⟨_, rfl, rfl⟩ := h
    refine hkeep rfl fun msg rest hfs => ?_
    split at hfs <;> cases hfs
  | service_thread | exit | context_destroyed =>
    simp only [Sys.deliver, Option.ite_none_right_eq_some, Option.some.injEq, Prod.mk.injEq] at h
    obtain ⟨_, rfl, rfl⟩ := h
    exact hkeep rfl fun msg rest hfs => by cases hfs

/-- A CONNECTION_ERROR comes from a connect call. -/
theorem svc_errors {f : Frame} {a : Answer} {msg : Option String} {gs : List Frame}
    (h : s.svc f a = some (.connection_error d msg :: gs, s')) : f = .do_connect d := by
  cases f with
  | do_connect c =>
    obtain ⟨_, ⟨hfs, _⟩ | ⟨error, destroyed, hfs, _⟩⟩ := do_connect_spec h
    · cases hfs
    · cases error <;> cases destroyed <;> cases hfs
      · rfl
      · rfl
  | write c w n more =>
    simp only [Sys.svc] at h
    split at h
    · cases h
    · simp only [Option.some.injEq, Prod.mk.injEq] at h
      obtain ⟨hfs, _⟩ := h
      split at hfs <;> cases hfs
  | wc_connect pend => cases pend <;> cases h
  | wc_visit snap =>
    cases snap with
    | nil => cases h
    | cons c snap =>
      simp only [Sys.svc] at h
      split at h
      · cases h
      · split at h
        · cases h
        · split at h <;> cases h
  | connection_error _ _ | connect_return _ _ | schedule_reconnect _ | has_data_check _ _ =>
    simp only [Sys.svc, Option.some.injEq, Prod.mk.injEq] at h
    obtain ⟨hfs, _⟩ := h
    split at hfs <;> cases hfs
  | wsi_destroy _ _ | schedule_arm _ | lws_callback_on_writable _ _ | event_wait_cancelled
  | wc_snapshot => cases h

/-- A client that is about to be connected has no timer armed. -/
theorem sul_of_turn (hone : seats d (.do_connect d :: rest) s ≤ 1) : (s.client d).sul = none := by
  by_contra hsul
  have hretrying : s.retrying d (.do_connect d :: rest) = true := by
    simp [Sys.retrying, Option.isSome_iff_ne_none.mpr hsul]
  simp only [seats, List.map_cons, List.sum_cons, Frame.holds, beq_self_eq_true, Bool.toNat_true,
    hretrying] at hone
  omega

theorem svc_counted {f : Frame} {a : Answer} (h : s.svc f a = some (fs, s'))
    (hseats : seats d (f :: rest) s ≤ (s.client d).pool.toNat) (hbehind : ∀ g ∈ rest, g.behind = true)
    (htripped : (s.client d).reconnect_fail_count = max →
      Tripped d (f :: rest) s → Tripped d (fs ++ rest) s')
    (hcounted : Counted max d (f :: rest) s) : Counted max d (fs ++ rest) s' := by
  have hone : seats d (f :: rest) s ≤ 1 := Nat.le_trans hseats (Bool.toNat_le _)
  have hrest : ∀ msg, .connection_error d msg ∉ rest := fun msg hmem => by cases hbehind _ hmem
  have hkeep : (s'.client d).reconnect_fail_count = (s.client d).reconnect_fail_count →
      (f = .do_connect d → (s'.client d).sul = (s.client d).sul) →
      Counted max d (fs ++ rest) s' := by
    intro hcount hsul
    refine hcounted.keep hcount htripped fun msg gs hfs => ?_
    cases fs with
    | nil =>
      rw [List.nil_append] at hfs
      exact absurd (hfs ▸ List.mem_cons_self) (hrest msg)
    | cons g gs' =>
      obtain ⟨rfl, _⟩ := List.cons.inj hfs
      obtain rfl := svc_errors h
      exact (hsul rfl).trans (sul_of_turn hone)
  by_cases herror : ∃ msg, f = .connection_error d msg
  · obtain ⟨msg, rfl⟩ := herror
    have hretrying : s.retrying d (.connection_error d msg :: rest) = true := by
      simp [Sys.retrying, Frame.retries]
    have hpool := Bool.toNat_le (s.client d).pool
    simp only [seats, hretrying, Bool.toNat_true, List.map_cons, List.sum_cons, Frame.holds]
      at hseats
    have hbelow : (s.client d).reconnect_fail_count < max :=
      lt_of_le_of_ne hcounted.bound fun heq => (hcounted.tripped heq).errors msg (by simp)
    have hturns : ∀ g ∈ rest, g.holds d = 0 := fun g hg =>
      (List.sum_eq_zero_iff.mp (by omega)) _ (List.mem_map_of_mem hg)
    obtain ⟨_, _, _, hc, _⟩ := connection_error_client (s.client d) msg
    simp only [Sys.svc, Option.some.injEq, Prod.mk.injEq] at h
    obtain ⟨rfl, rfl⟩ := h
    refine .fail ?_ ?_ (List.count_eq_zero.mp (by rw [Sys.act_pool]; omega)) (fun g hg => ?_)
      (fun msg' hmem => ?_) ?_ ?_
    · rw [Sys.act_client, if_pos rfl]
      by_cases hstop : (s.client d).stopping = true
      · rw [connection_error_stopping hstop]
        exact hbelow.le
      · rw [connection_error_counts msg (by simpa using hstop)]
        omega
    · rw [Sys.act_joined (by rw [hc]), ← Bool.toNat_eq_one]
      omega
    · rcases List.mem_append.mp hg with hg | hg
      · split at hg
        · cases hg
        · rw [List.mem_singleton.mp hg]
          rfl
      · exact hturns g hg
    · rcases List.mem_append.mp hmem with hmem | hmem
      · split at hmem
        · cases hmem
        · cases List.mem_singleton.mp hmem
      · exact hrest msg' hmem
    · rw [Sys.act_sul (by rw [hc]), hcounted.failing msg rest rfl]
    · rw [Sys.act_lives]
      omega
  · by_cases harm : f = .schedule_arm d
    · subst harm
      obtain ⟨delay, state, sul, hc, _⟩ := schedule_reconnect_client (s.client d) a.ret
      refine hkeep ?_ (by simp)
      cases h
      exact Sys.act_count (by rw [hc]) d
    · refine hkeep (svc_unheard (l := .start) h (fun msg hf => herror ⟨msg, hf⟩) harm).2 fun hf => ?_
      subst hf
      rw [(do_connect_spec h).1.2.2.1, if_pos rfl]

theorem app_counted {f : AppFrame} {a : Answer} {gs : List AppFrame}
    (h : s.app f a = some (gs, s')) (htripped : Tripped d svc s → Tripped d svc s')
    (hcounted : Counted max d svc s) : Counted max d svc s' := by
  refine hcounted.keep (app_unheard (l := .start) h).2 (fun _ => htripped) fun msg rest hfs => ?_
  rcases (app_advance h d).sul with hsame | hnone
  · exact hsame.trans (hcounted.failing msg rest hfs)
  · exact hnone

theorem schedule_reconnect_asks {c : wsp_client} (hasks : c.asks = true) (ret : Int) :
    ∃ delay, .on_reconnect_decision c.reconnect_fail_count delay ∈ (schedule_reconnect c ret).2 := by
  rw [wsp_client.asks] at hasks
  unfold schedule_reconnect
  simp only [hasks, if_true]
  split <;> exact ⟨_, List.mem_cons_self⟩

section runs

variable {cfg cfg' : Config} {l : Label} {client : ClientId → wsp_client}

/-- A tripped client gets a negative answer. -/
theorem Obeys.refuses {f : Frame} {a : Answer} {app : Nat → List AppFrame}
    (hok : Obeys hook d ⟨s, f :: rest, app⟩ (.svc a)) (hlimits : hook.Limits max)
    (hasks : (s.client d).asks = true) (hcount : (s.client d).reconnect_fail_count = max)
    (hf : f = .schedule_arm d) : a.ret < 0 := by
  subst hf
  have hanswered := hok.answered
  simp only [ws_pool.answered, List.head?_cons, Option.any_some, Frame.arms, beq_self_eq_true,
    Bool.not_true, Bool.false_or] at hanswered
  obtain ⟨delay, hcall⟩ := schedule_reconnect_asks hasks a.ret
  exact hlimits.answer hanswered hcall hcount.ge

/-- While a client is tripped nothing changes its failures. -/
theorem tripped_count (hmove : system.Moves cfg l cfg') (htripped : Tripped d cfg.svc cfg.shared)
    (hb : cfg.shared.lws.Bounded) : (cfg'.shared.client d).reconnect_fail_count =
      (cfg.shared.client d).reconnect_fail_count := by
  cases hmove with
  | @event e s s' app fs hdeliver =>
    dsimp only at *
    cases e with
    | callback c w r a =>
      simp only [system, Sys.deliver, Option.ite_none_right_eq_some, Bool.and_eq_true] at hdeliver
      obtain ⟨⟨huser, henabled⟩, h⟩ := hdeliver
      by_cases hd : d = c
      · subst hd
        have hr : r = .WSI_DESTROY := by
          by_contra hr
          have hlink := lws_context.link_of_phase huser
            (lws_context.phase_of_enables_ne henabled hr)
          have howns : s.lws.owns d w = true :=
            lws_context.owns_eq_true.mpr ⟨_, hlink, by cases r <;> simp [Reason.phase] at hr ⊢⟩
          have hpos := hb.lives_pos howns
          rw [htripped.lives] at hpos
          exact absurd hpos (Nat.lt_irrefl 0)
        subst hr
        obtain ⟨_, _, hc, _⟩ := wsi_destroy_client (s.client d) w
        cases h
        simp [hc]
      · rw [(callback_other h hd).1]
    | sul_reconnect_cb c =>
      simp only [system, Sys.deliver, Option.ite_none_right_eq_some, Option.some.injEq,
        Prod.mk.injEq] at hdeliver
      obtain ⟨_, _, rfl⟩ := hdeliver
      exact Sys.act_count rfl d
    | service_thread | event_wait_cancelled _ | exit | context_destroyed =>
      simp only [system, Sys.deliver, Option.ite_none_right_eq_some, Option.some.injEq,
        Prod.mk.injEq] at hdeliver
      obtain ⟨_, _, rfl⟩ := hdeliver
      rfl
  | @svc f a s s' app rest fs hsvc =>
    dsimp only at *
    by_cases harm : f = .schedule_arm d
    · subst harm
      obtain ⟨delay, state, sul, hc, _⟩ := schedule_reconnect_client (s.client d) a.ret
      cases hsvc
      exact Sys.act_count (by rw [hc]) d
    · refine (svc_unheard (l := .start) hsvc (fun msg hf => ?_) harm).2
      exact htripped.errors msg (by simp [hf])
  | call _ _ => rfl
  | app _ happ => exact (app_unheard (l := .start) happ).2

theorem tripped_step (hmove : system.Moves cfg l cfg') (hlinked : Linked d cfg)
    (hasks : (cfg.shared.client d).asks = true) (hlimits : hook.Limits max)
    (hok : Obeys hook d cfg l) (hcount : (cfg.shared.client d).reconnect_fail_count = max)
    (htripped : Tripped d cfg.svc cfg.shared) :
    Tripped d cfg'.svc cfg'.shared ∧
      connects (cfg'.shared.trace d) = connects (cfg.shared.trace d) := by
  have hb := hlinked.joined.bounded
  have honce := hok.once
  cases hmove with
  | event hdeliver => exact deliver_tripped hdeliver hb htripped
  | svc hsvc => exact svc_tripped hsvc hb hasks (hok.refuses hlimits hasks hcount) htripped
  | call _ _ => exact ⟨htripped, rfl⟩
  | app htop happ => exact app_tripped happ (fun hadd => honce ⟨_, hadd ▸ htop⟩) htripped

theorem Counted.step (hmove : system.Moves cfg l cfg') (hmax : 1 ≤ max) (hlinked : Linked d cfg)
    (hbehind : ∀ f ∈ cfg.svc.tail, f.behind = true) (hasks : (cfg.shared.client d).asks = true)
    (hlimits : hook.Limits max) (hok : Obeys hook d cfg l)
    (h : Counted max d cfg.svc cfg.shared) : Counted max d cfg'.svc cfg'.shared := by
  have htripped := fun hcount ht => (tripped_step hmove hlinked hasks hlimits hok hcount ht).1
  have hb := hlinked.joined.bounded
  have honce := hok.once
  cases hmove with
  | event hdeliver => exact deliver_counted hdeliver hmax hb hlinked.seats h
  | svc hsvc => exact svc_counted hsvc hlinked.seats hbehind htripped h
  | call _ _ => exact h
  | app htop happ =>
    exact app_counted happ
      (fun ht => (app_tripped happ (fun hadd => honce ⟨_, hadd ▸ htop⟩) ht).1) h

theorem Reaches.asks (h : system.Reaches (Obeys hook d) (initial client) cfg)
    (hasks : (client d).asks = true) : (cfg.shared.client d).asks = true := by
  rw [wsp_client.asks, Reaches.config h d]
  exact hasks

theorem Reaches.counted (hfresh : ∀ c, (client c).Fresh) (hasks : (client d).asks = true)
    (hmax : 1 ≤ max) (hlimits : hook.Limits max)
    (h : system.Reaches (Obeys hook d) (initial client) cfg) :
    Counted max d cfg.svc cfg.shared := by
  have hzero : ((initial client).shared.client d).reconnect_fail_count = 0 := (hfresh d).fail_count
  refine h.invariant_under (I := fun mid => Counted max d mid.svc mid.shared)
    (J := fun mid => Linked d mid ∧ (∀ f ∈ mid.svc.tail, f.behind = true) ∧
      (mid.shared.client d).asks = true)
    (fun mid hmid => ⟨Reaches.linked (fun _ _ hok => hok.once) hfresh hmid, Reaches.behind hmid,
      Reaches.asks hmid hasks⟩) ?_
    fun _ _ _ ⟨hlinked, hbehind, hasking⟩ hok hmove =>
      Counted.step hmove hmax hlinked hbehind hasking hlimits hok
  refine ⟨?_, fun heq => ?_, fun msg rest hfs => (by cases hfs)⟩
  · rw [hzero]
    omega
  · rw [hzero] at heq
    omega

/-- A hook that refuses from `max` failures in a row on limits its client to so
    many, although a connect call that fails asks it twice: in every run in which
    adds of the client do not overlap, whatever happens to the other clients, the
    failure that reaches `max` is the last, and from then on the client is not
    connected and its timer is not armed. -/
theorem failures_limited (hfresh : ∀ c, (client c).Fresh) (hasks : (client d).asks = true)
    (hmax : 1 ≤ max) (hlimits : hook.Limits max)
    (h : system.Reaches (Obeys hook d) (initial client) cfg) :
    (cfg.shared.client d).reconnect_fail_count ≤ max ∧
      ((cfg.shared.client d).reconnect_fail_count = max →
        ∀ cfg', system.Reaches (Obeys hook d) cfg cfg' →
          (cfg'.shared.client d).reconnect_fail_count = max ∧
          connects (cfg'.shared.trace d) = connects (cfg.shared.trace d) ∧
          (cfg'.shared.client d).sul = none ∧ ∀ w, cfg'.shared.lws.owns d w = false) := by
  have hcounted := Reaches.counted hfresh hasks hmax hlimits h
  refine ⟨hcounted.bound, fun hcount cfg' hlater => ?_⟩
  have hlinks := fun mid (hmid : system.Reaches (Obeys hook d) cfg mid) =>
    Reaches.linked (fun _ _ hok => hok.once) hfresh (h.trans hmid)
  have hstill : (cfg'.shared.client d).reconnect_fail_count = max ∧
      Tripped d cfg'.svc cfg'.shared ∧
      connects (cfg'.shared.trace d) = connects (cfg.shared.trace d) := by
    refine hlater.invariant_under (I := fun mid => (mid.shared.client d).reconnect_fail_count = max ∧
        Tripped d mid.svc mid.shared ∧
        connects (mid.shared.trace d) = connects (cfg.shared.trace d))
      (J := fun mid => Linked d mid ∧ (mid.shared.client d).asks = true)
      (fun mid hmid => ⟨hlinks mid hmid, Reaches.asks (h.trans hmid) hasks⟩)
      ⟨hcount, hcounted.tripped hcount, rfl⟩
      fun mid l next ⟨hlinked, hasking⟩ hok hmove ⟨hsame, htripped, htrace⟩ => ?_
    obtain ⟨hnext, hconnects⟩ := tripped_step hmove hlinked hasking hlimits hok hsame htripped
    exact ⟨(tripped_count hmove htripped hlinked.joined.bounded).trans hsame, hnext,
      hconnects.trans htrace⟩
  obtain ⟨hsame, htripped, htrace⟩ := hstill
  exact ⟨hsame, htrace, htripped.sul, ((hlinks cfg' hlater).joined.no_wsi htripped.lives).2⟩

/-- A connect call that fails with a CONNECTION_ERROR, and the two answers to it. -/
def failing_attempt (ret ret' : Int) : List Label :=
  [.svc { connect := .refused (some none) true }, .svc {}, .svc {}, .svc { ret }, .svc {}, .svc {},
    .svc {}, .svc { ret := ret' }]

/-- The third failure of client 0, up to the report of it. -/
def third_failure : List Label :=
  first_attempt ++ failing_attempt 2000 4000 ++ List.replicate 4 (.svc {}) ++
  .event (.sul_reconnect_cb 0) :: failing_attempt 8000 16000 ++
  .event (.sul_reconnect_cb 0) :: (failing_attempt (-1) (-1)).take 2

theorem failures_limited_third : ∃ cfg : Config, cfg.svc = [] ∧
    (cfg.shared.client 0).reconnect_fail_count = 3 ∧ connects (cfg.shared.trace 0) = 3 ∧
    (cfg.shared.client 0).sul = none := by
  obtain ⟨mid, hfollows, hcount, hconnects, hlast⟩ : ∃ mid,
      system.Follows (Obeys (pool_hooks_demo.rc_reconnect_decision 3) 0) (initial asking_client)
        third_failure mid ∧
      (mid.shared.client 0).reconnect_fail_count = 3 ∧ connects (mid.shared.trace 0) = 3 ∧
      (system.run (Obeys (pool_hooks_demo.rc_reconnect_decision 3) 0) mid
        ((failing_attempt (-1) (-1)).drop 2)).any (fun cfg => cfg.svc.isEmpty) = true :=
    System.exists_follows_of_run (by decide)
  obtain ⟨cfg, hrun, hidle⟩ := (Option.any_eq_true _ _).mp hlast
  obtain ⟨_, htripped⟩ := failures_limited asking_client_fresh rfl (by decide)
    (refuse_from_limits 3) hfollows.reaches
  obtain ⟨hfails, hsame, hsul, _⟩ := htripped hcount cfg (System.Follows.of_run hrun).reaches
  exact ⟨cfg, List.isEmpty_iff.mp hidle, hfails, hsame.trans hconnects, hsul⟩

end runs

end lws_client.ws_pool
