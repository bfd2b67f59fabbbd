import LwsClientDemo.WsPool.Queue

open interleaving

namespace lws_client.ws_pool

/-- The sections of a WRITEABLE callback of connection `w` of client `c`. -/
def Frame.writeable (c : ClientId) (w : WsiId) : Frame → Bool
  | .has_data_check d v | .lws_callback_on_writable d v | .write d v _ _ => d == c && v == w
  | _ => false

/-- No event is delivered: the handler that runs has not returned. -/
def Inside (_ : Config) : Label → Prop
  | .event _ => False
  | _ => True

instance (cfg : Config) (l : Label) : Decidable (Inside cfg l) := by
  cases l <;> unfold Inside <;> infer_instance

/-- A WRITEABLE callback of connection `w` of client `c`, from its delivery to
    its return, with the application threads running in between. -/
def Writeable (c : ClientId) (w : WsiId) (cfg cfg' : Config) : Prop :=
  ∃ a mid, system.step cfg (.event (.callback c w .CLIENT_WRITEABLE a)) = some mid ∧
    system.Reaches Inside mid cfg' ∧ cfg'.svc = []

/-- A callback of connection `w` has returned nonzero in between. -/
def Fails (w : WsiId) (cfg cfg' : Config) : Prop :=
  ¬ cfg.shared.lws.Failed w ∧ cfg'.shared.lws.Failed w

/-- How far a WRITEABLE callback has come: it has handed no data to `lws_write`
    and not failed, or it has handed over one message. -/
inductive Turn (c : ClientId) (w : WsiId) (s : Sys) (cfg : Config) : Prop where
  | silent : frames (cfg.shared.trace c) = frames (s.trace c) →
      (cfg.shared.lws.Failed w → s.lws.Failed w) → cfg.svc.length ≤ 1 →
      (∀ f ∈ cfg.svc, f.writeable c w = true) → Turn c w s cfg
  | wrote {m : Message} : frames (cfg.shared.trace c) = frames (s.trace c) ++ [m] →
      (∀ f ∈ cfg.svc, f = .lws_callback_on_writable c w) → Turn c w s cfg

variable {c : ClientId} {w : WsiId} {s : Sys} {cfg cfg' : Config}

theorem Silent.frames {s s' : Sys} {d : ClientId} (h : Silent s s' d) :
    frames (s'.trace d) = frames (s.trace d) := by
  obtain ⟨acts, htrace, hmute⟩ := h.trace
  rw [htrace, frames_append, (Mute.plain hmute).quiet.frames, List.append_nil]

/-- The API hands nothing to `lws_write`. -/
theorem app_frames {f : AppFrame} {a : Answer} {s s' : Sys} {fs : List AppFrame}
    (h : s.app f a = some (fs, s')) (d : ClientId) : frames (s'.trace d) = frames (s.trace d) := by
  rcases app_spec h d with hsilent | ⟨freed, q, _, _, _, htrace⟩ | ⟨n, data, is_binary, _, _, _, htrace, _⟩
  · exact hsilent.frames
  · have hnone : frames (freed.map (fun n => .flush_node n.payload n.is_binary) ++
        [.stop_returns]) = [] := by
      simp [lws_client.frames, Act.frame, List.filterMap_map]
    rw [htrace, frames_append, hnone, List.append_nil]
  · have hnone : frames [.send_returns data is_binary .LWS_OK] = [] := rfl
    rw [htrace, frames_append, hnone, List.append_nil]

theorem app_failed {f : AppFrame} {a : Answer} {s s' : Sys} {fs : List AppFrame}
    (h : s.app f a = some (fs, s')) {w : WsiId} (hfailed : s'.lws.Failed w) : s.lws.Failed w := by
  rcases (app_registers h).calls with hcalls | hlws
  · exact hcalls.failed hfailed
  · rw [hlws] at hfailed
    cases hfailed

/-- The delivery takes the request, and it may write a PING or dequeue. -/
theorem Turn.deliver {a : Answer}
    (h : system.step cfg (.event (.callback c w .CLIENT_WRITEABLE a)) = some cfg') :
    Turn c w cfg.shared cfg' := by
  cases System.step_moves h with
  | @event e s s' app fs hdeliver =>
    have hdeliver' : s.deliver (.callback c w .CLIENT_WRITEABLE a) = some (fs, s') := hdeliver
    simp only [Sys.deliver, Option.ite_none_right_eq_some] at hdeliver'
    obtain ⟨_, hcallback⟩ := hdeliver'
    have htaken : ∀ acts, ((s.lws.modify w fun i => { i with writable := false }).performs acts).Failed w →
        s.lws.Failed w := by
      intro acts hfailed
      have hbefore := lws_context.failed_of_performs hfailed
      cases hi : s.lws.wsi w with
      | none => simp [lws_context.Failed, lws_context.modify, hi] at hbefore
      | some i => simpa [lws_context.Failed, lws_context.modify, hi] using hbefore
    have hframes : frames (s'.trace c) = frames (s.trace c) := by
      cases callback_spec hcallback c with
      | silent _ hsilent _ => exact hsilent.frames
      | ping _ htrace =>
        have hnone : frames (writeable_ping (s.client c) w).2 = [] := rfl
        rw [htrace, frames_append, hnone, List.append_nil]
      | dequeue _ _ htrace => rw [htrace]
    simp only [Sys.callback] at hcallback
    split at hcallback
    · cases hcallback
      exact .silent hframes (htaken _) (Nat.le_refl 1) (by simp [Frame.writeable])
    · split at hcallback <;> cases hcallback
      · exact .silent hframes (htaken []) (Nat.zero_le 1) (by simp)
      · exact .silent hframes (htaken []) (Nat.le_refl 1) (by simp [Frame.writeable])

/-- One section of the callback, or of another thread. -/
theorem Turn.step {l : Label} (hmove : system.Moves cfg l cfg') (hok : Inside cfg l)
    (h : Turn c w s cfg) : Turn c w s cfg' := by
  cases hmove with
  | event _ => cases hok
  | @svc f a s₁ s₂ app rest fs hsvc =>
    have hsvc' : s₁.svc f a = some (fs, s₂) := hsvc
    cases h with
    | silent hframes hfailed hlen hsections =>
      obtain rfl : rest = [] := by simpa using hlen
      have htop := hsections f (by simp)
      cases f with
      | has_data_check d v =>
        simp only [Frame.writeable, Bool.and_eq_true, beq_iff_eq] at htop
        obtain ⟨rfl, rfl⟩ := htop
        simp only [Sys.svc, Option.some.injEq, Prod.mk.injEq] at hsvc'
        obtain ⟨rfl, rfl⟩ := hsvc'
        refine .silent hframes hfailed ?_ fun g hg => ?_
        · split <;> simp
        · rw [List.append_nil, List.mem_ite_nil_right, List.mem_singleton] at hg
          rw [hg.2]
          simp [Frame.writeable]
      | lws_callback_on_writable d v =>
        cases hsvc'
        refine .silent ?_ (fun hnow => hfailed (lws_context.failed_of_performs hnow)) (by simp)
          (by simp)
        rw [← hframes]
        exact (Silent.act (.refl _) (Every.single rfl) c).frames
      | write d v n more =>
        simp only [Frame.writeable, Bool.and_eq_true, beq_iff_eq] at htop
        obtain ⟨rfl, rfl⟩ := htop
        rcases (svc_spec hsvc' d).2 with ⟨_, hnone⟩ | ⟨hconnect, _⟩ | ⟨v', n', more', hwrite, _, htrace⟩
        · simp [inflight] at hnone
        · cases hconnect
        · refine .wrote (m := n'.message) ?_ fun g hg => ?_
          · rw [htrace, frames_append, (write_node_outcome n' v').2.1]
            exact congrArg (· ++ [n'.message]) hframes
          · simp only [Sys.svc] at hsvc'
            split at hsvc' <;> simp only [Option.some.injEq, Prod.mk.injEq] at hsvc'
            · obtain ⟨rfl, _⟩ := hsvc'
              cases hg
            · obtain ⟨rfl, _⟩ := hsvc'
              rw [List.append_nil, List.mem_ite_nil_right, List.mem_singleton] at hg
              exact hg.2
      | _ => cases htop
    | @wrote m hframes hsections =>
      obtain rfl := hsections f (by simp)
      cases hsvc'
      refine .wrote (m := m) ?_ fun g hg => hsections g (List.mem_cons_of_mem _ hg)
      rw [← hframes]
      exact (Silent.act (.refl _) (Every.single rfl) c).frames
  | call _ _ =>
    cases h with
    | silent hframes hfailed hlen hsections => exact .silent hframes hfailed hlen hsections
    | wrote hframes hsections => exact .wrote hframes hsections
  | app htop happ =>
    have hframes' := app_frames happ c
    cases h with
    | silent hframes hfailed hlen hsections =>
      exact .silent (hframes'.trans hframes) (fun hnow => hfailed (app_failed happ hnow)) hlen hsections
    | wrote hframes hsections => exact .wrote (hframes'.trans hframes) hsections

theorem Writeable.turn (h : Writeable c w cfg cfg') : Turn c w cfg.shared cfg' := by
  obtain ⟨a, mid, hstep, hreach, _⟩ := h
  exact hreach.invariant (Turn.deliver hstep) fun _ _ _ hok hmove hturn => hturn.step hmove hok

/-- A WRITEABLE callback returns nonzero only for a message it has handed to
    `lws_write`. -/
theorem Writeable.fails (h : Writeable c w cfg cfg') (hfails : Fails w cfg cfg') :
    ∃ m, frames (cfg'.shared.trace c) = frames (cfg.shared.trace c) ++ [m] := by
  cases h.turn with
  | silent _ hfailed _ _ => exact absurd (hfailed hfails.2) hfails.1
  | @wrote m hframes _ => exact ⟨m, hframes⟩

/-- The connections whose close reason was set, in order. -/
def close_reasons (trace : List Act) : List WsiId :=
  trace.filterMap fun
    | .lws_close_reason w => some w
    | _ => none

/-- Client `c` is stopping while its connection `w` is open, and an
    EVENT_WAIT_CANCELLED has seen both and set the close reason. -/
structure Closing (c : ClientId) (w : WsiId) (cfg : Config) : Prop where
  stopping : (cfg.shared.client c).stopping = true
  wsi : (cfg.shared.client c).wsi = some w
  established : cfg.shared.lws.link w = some (c, .established)
  seen : w ∈ close_reasons (cfg.shared.trace c)

instance (c : ClientId) (w : WsiId) (cfg : Config) : Decidable (Closing c w cfg) :=
  decidable_of_iff
    ((cfg.shared.client c).stopping = true ∧ (cfg.shared.client c).wsi = some w ∧
      cfg.shared.lws.link w = some (c, .established) ∧ w ∈ close_reasons (cfg.shared.trace c))
    ⟨fun ⟨h₁, h₂, h₃, h₄⟩ => ⟨h₁, h₂, h₃, h₄⟩, fun ⟨h₁, h₂, h₃, h₄⟩ => ⟨h₁, h₂, h₃, h₄⟩⟩

/-- After that no WRITEABLE callback of the connection ends it in place of
    writing. The branch does not look at `stopping`, so none does in any other
    configuration either, and the three premises are not needed for it. -/
theorem stop_never_closes {mid : Config} : Reachable cfg → Closing c w cfg →
    system.Reaches Any cfg mid → Writeable c w mid cfg' →
      ¬ (Fails w mid cfg' ∧ frames (cfg'.shared.trace c) = frames (mid.shared.trace c)) := by
  intro _ _ _ hwriteable ⟨hfails, hsame⟩
  obtain ⟨m, hframes⟩ := hwriteable.fails hfails
  rw [hsame] at hframes
  simp at hframes

theorem Writeable.exists_of_run {a : Answer} {ls : List Label} {p : Config → Bool}
    (hrun : ((system.step cfg (.event (.callback c w .CLIENT_WRITEABLE a))).bind
      fun mid => system.run Inside mid ls).any (fun cfg' => cfg'.svc.isEmpty && p cfg') = true) :
    ∃ cfg', Writeable c w cfg cfg' ∧ p cfg' = true := by
  obtain ⟨cfg', hbind, hcfg'⟩ := (Option.any_eq_true ..).mp hrun
  rw [Bool.and_eq_true, List.isEmpty_iff] at hcfg'
  obtain ⟨mid, hstep, hrest⟩ := Option.bind_eq_some_iff.mp hbind
  exact ⟨cfg', ⟨a, mid, hstep, (System.Follows.of_run hrest).reaches, hcfg'.1⟩, hcfg'.2⟩

/-- A message is queued on the open connection of client 0; thread 1 stops the
    client, and an EVENT_WAIT_CANCELLED sees it. -/
def closing_run : List Label :=
  connected_run ++ [.call 1 (.enqueue 0 (some ⟨[104, 105], two_bytes⟩) false), .app 1 {}, .app 1 {},
    .app 1 {}, .app 1 {}, .call 1 (.wsp_client_stop 0), .app 1 {}, .app 1 {}, .app 1 {},
    .event (.event_wait_cancelled true), .svc {}, .svc {}, .svc {}, .svc {}, .svc {}]

theorem stop_never_closes_queued : ∃ cfg cfg', Reachable cfg ∧ Closing 0 0 cfg ∧
    Writeable 0 0 cfg cfg' ∧
      ¬ (Fails 0 cfg cfg' ∧ frames (cfg'.shared.trace 0) = frames (cfg.shared.trace 0)) := by
  obtain ⟨cfg, hfollows, hclosing, hwrite⟩ : ∃ cfg,
      system.Follows Any (initial fresh_client) closing_run cfg ∧ Closing 0 0 cfg ∧
        ((system.step cfg (.event (.callback 0 0 .CLIENT_WRITEABLE {}))).bind
          fun mid => system.run Inside mid [.svc {}]).any (fun cfg' => cfg'.svc.isEmpty && true) = true :=
    System.exists_follows_of_run (by decide)
  obtain ⟨cfg', hwriteable, _⟩ := Writeable.exists_of_run hwrite
  have hreach : Reachable cfg := ⟨_, fun _ => wsp_client_create_fresh _ _ _ _, hfollows.reaches⟩
  exact ⟨cfg, cfg', hreach, hclosing, hwriteable, stop_never_closes hreach hclosing .refl hwriteable⟩

/-- The next WRITEABLE hands the queued message to `lws_write` and returns 0. -/
theorem closing_writes : ∃ cfg cfg', Reachable cfg ∧ Closing 0 0 cfg ∧ ¬ cfg.shared.lws.Failed 0 ∧
    frames (cfg.shared.trace 0) = [] ∧ Writeable 0 0 cfg cfg' ∧ ¬ cfg'.shared.lws.Failed 0 ∧
    frames (cfg'.shared.trace 0) = [([104, 105], false)] := by
  obtain ⟨cfg, hfollows, hclosing, hok, hnone, hwrite⟩ : ∃ cfg,
      system.Follows Any (initial fresh_client) closing_run cfg ∧ Closing 0 0 cfg ∧
        ¬ cfg.shared.lws.Failed 0 ∧ frames (cfg.shared.trace 0) = [] ∧
        ((system.step cfg (.event (.callback 0 0 .CLIENT_WRITEABLE {}))).bind
          fun mid => system.run Inside mid [.svc {}]).any (fun cfg' => cfg'.svc.isEmpty &&
            decide (¬ cfg'.shared.lws.Failed 0 ∧
              frames (cfg'.shared.trace 0) = [([104, 105], false)])) = true :=
    System.exists_follows_of_run (by decide)
  obtain ⟨cfg', hwriteable, hcfg'⟩ := Writeable.exists_of_run hwrite
  exact ⟨cfg, cfg', ⟨_, fun _ => wsp_client_create_fresh _ _ _ _, hfollows.reaches⟩, hclosing, hok,
    hnone, hwriteable, of_decide_eq_true hcfg'⟩

end lws_client.ws_pool
