import LwsClientDemo.WsServer.Echo

open interleaving

namespace lws_client.ws_server

/-- The connections, pointers, lengths and kinds handed to `lws_write`. -/
def writes (trace : List Call) : List (WsiId × Ptr × Nat × lws_write_protocol) :=
  trace.filterMap fun
    | .lws_write wsi buf len wp => some (wsi, buf, len, wp)
    | _ => none

@[simp] theorem writes_append (xs ys : List Call) : writes (xs ++ ys) = writes xs ++ writes ys :=
  List.filterMap_append

/-- The message a last chunk completes on its connection. -/
def completes (cfg : Config) : Label → List (WsiId × Message)
  | .event (.receive w chunk _ _) =>
    (cfg.shared.wsi w).toList.flatMap fun x =>
      if chunk.is_final_fragment then [(w, (take ⟨x.user.frag.contents, []⟩ chunk).out.headD ([], false))]
      else []
  | _ => []

/-- Each echo is a completed message of its connection, in an object made for it. -/
structure Roomy (ms : List (WsiId × Message)) (s : Sys) : Prop where
  waiting : ∀ w x n, s.wsi w = some x → x.user.echo = some n → (w, n.message) ∈ ms
  written : ∀ w buf len wp, (w, buf, len, wp) ∈ writes s.trace →
    HasRoom buf len ∧ buf.object.bytes.length = LWS_PRE + len ∧
      (w, buf.read len, decide (wp = .LWS_WRITE_BINARY)) ∈ ms

variable {ms ms' : List (WsiId × Message)} {s s' : Sys}

/-- A step that writes nothing and prepares no echo. -/
theorem Roomy.quiet (h : Roomy ms s) (hms : ∀ m ∈ ms, m ∈ ms') (hwrites : writes s'.trace = writes s.trace)
    (hwaiting : ∀ w x n, s'.wsi w = some x → x.user.echo = some n → (w, n.message) ∈ ms') :
    Roomy ms' s' := by
  refine ⟨hwaiting, fun w buf len wp hmem => ?_⟩
  rw [hwrites] at hmem
  obtain ⟨hroom, hsize, hcarried⟩ := h.written w buf len wp hmem
  exact ⟨hroom, hsize, hms _ hcarried⟩

variable {srv : wss_server} {ps ps' : per_session_t} {w : WsiId} {chunk : Chunk}
  {realloc malloc : Bool} {calls : List Call} {ret : Int}

/-- A RECEIVE writes nothing; the echo it leaves is the one it found, or that of
    the message it completes. -/
theorem receive_echo (h : receive srv ps w chunk realloc malloc = some (ps', calls, ret)) :
    writes calls = [] ∧ ∀ n, ps'.echo = some n → ps.echo = some n ∨
      (chunk.is_final_fragment = true ∧
        (take ⟨ps.frag.contents, []⟩ chunk).out = [n.message]) := by
  simp only [receive, Option.map_eq_some_iff] at h
  obtain ⟨⟨r, f⟩, happend, h⟩ := h
  dsimp only at h
  split at h
  · cases h
    exact ⟨rfl, fun n hn => .inl hn⟩
  · next hr =>
    have hzero : r = 0 := by
      by_contra hne
      exact hr (by rw [(ws_frag_append_failed happend hne).1]; decide)
    subst hzero
    have hcontents : f.contents =
        (if chunk.is_first_fragment = true then [] else ps.frag.contents) ++ chunk.data.bytes := by
      rw [ws_frag_append_contents happend]
      split <;> rfl
    split at h
    · next hfinal =>
      rcases prepare_echo_spec { ps with frag := f } (per_session_t.payload { ps with frag := f })
          chunk.frame_is_binary malloc with ⟨m, hprepare, hmessage⟩ | hprepare
      · rw [hprepare] at h
        cases h
        refine ⟨by cases srv.rx_cb <;> rfl, fun n hn => .inr ⟨hfinal, ?_⟩⟩
        cases hn
        rw [hmessage]
        simp [take, hfinal, ← hcontents, per_session_t.payload]
      · rw [hprepare] at h
        cases h
        exact ⟨by cases srv.rx_cb <;> rfl, fun n hn => (by cases hn)⟩
    · cases h
      exact ⟨rfl, fun n hn => .inl hn⟩

theorem deliver_roomy {e : Event} {fs : List Empty} {app : Nat → List AppFrame}
    (hdeliver : s.deliver e = some (fs, s')) (h : Roomy ms s) :
    Roomy (ms ++ completes ⟨s, [], app⟩ (.event e)) s' := by
  have hms : ∀ more : List (WsiId × Message), ∀ m ∈ ms, m ∈ ms ++ more :=
    fun more m hm => List.mem_append_left more hm
  have hkept : ∀ more v y n, s.wsi v = some y → y.user.echo = some n → (v, n.message) ∈ ms ++ more :=
    fun more v y n hy hn => hms more _ (h.waiting v y n hy hn)
  cases e with
  | established v =>
    simp only [Sys.deliver, Option.ite_none_right_eq_some, Option.some.injEq, Prod.mk.injEq] at hdeliver
    obtain ⟨⟨_, rfl⟩, _, rfl⟩ := hdeliver
    refine h.quiet (hms _) ?_ fun v y n hy hn => ?_
    · simp only [Sys.set, established, writes_append]
      cases s.srv.conn_cb <;> exact List.append_nil _
    · by_cases hv : v = s.next
      · subst hv
        obtain rfl : _ = y := by simpa [Sys.set] using hy
        cases hn
      · exact hkept _ v y n (by simpa [Sys.set, hv] using hy) hn
  | receive v chunk realloc malloc =>
    simp only [Sys.deliver, Option.ite_none_right_eq_some, Option.bind_eq_some_iff,
      Option.map_eq_some_iff, Prod.mk.injEq] at hdeliver
    obtain ⟨_, x, hx, ⟨user, calls, ret⟩, hreceive, _, rfl⟩ := hdeliver
    obtain ⟨hnone, hecho⟩ := receive_echo hreceive
    refine h.quiet (hms _) (by simp [Sys.set, hnone]) fun u y n hy hn => ?_
    by_cases hu : u = v
    · subst hu
      obtain rfl : _ = y := by simpa [Sys.set] using hy
      rcases hecho n hn with hbefore | ⟨hfinal, hout⟩
      · exact hkept _ u x n hx hbefore
      · simp [completes, hx, hfinal, hout]
    · exact hkept _ u y n (by simpa [Sys.set, hu] using hy) hn
  | server_writeable v =>
    simp only [Sys.deliver, Option.ite_none_right_eq_some, Option.map_eq_some_iff,
      Prod.mk.injEq] at hdeliver
    obtain ⟨_, x, hx, _, rfl⟩ := hdeliver
    rw [show completes ⟨s, [], app⟩ (.event (.server_writeable v)) = [] from rfl, List.append_nil]
    refine ⟨fun u y n hy hn => ?_, fun u buf len wp hmem => ?_⟩
    · by_cases hu : u = v
      · subst hu
        obtain rfl : _ = y := by simpa [Sys.set] using hy
        rw [(writeable_frames (w := u) x.user u).2.1] at hn
        cases hn
      · exact h.waiting u y n (by simpa [Sys.set, hu] using hy) hn
    · simp only [Sys.set, writes_append, List.mem_append] at hmem
      rcases hmem with hmem | hmem
      · exact h.written u buf len wp hmem
      · unfold server_writeable at hmem
        cases hecho : x.user.echo with
        | none => simp [hecho, writes] at hmem
        | some n =>
          simp only [hecho, writes, List.filterMap_cons, List.filterMap_nil, List.mem_singleton,
            Prod.mk.injEq] at hmem
          obtain ⟨rfl, rfl, rfl, rfl⟩ := hmem
          refine ⟨n.hasRoom, n.size_eq, ?_⟩
          have hbinary : decide ((if n.is_binary = true then lws_write_protocol.LWS_WRITE_BINARY
              else .LWS_WRITE_TEXT) = .LWS_WRITE_BINARY) = n.is_binary := by
            cases n.is_binary <;> rfl
          rw [hbinary]
          exact h.waiting _ x n hx hecho
  | closed v =>
    simp only [Sys.deliver, Option.ite_none_right_eq_some, Option.map_eq_some_iff,
      Prod.mk.injEq] at hdeliver
    obtain ⟨_, x, hx, _, rfl⟩ := hdeliver
    refine h.quiet (hms _) ?_ fun u y n hy hn => ?_
    · simp only [Sys.set, closed, writes_append]
      cases s.srv.conn_cb <;> exact List.append_nil _
    · by_cases hu : u = v
      · simp [Sys.set, hu] at hy
      · exact hkept _ u y n (by simpa [Sys.set, hu] using hy) hn
  | exit =>
    simp only [Sys.deliver, Option.ite_none_right_eq_some, Option.some.injEq, Prod.mk.injEq] at hdeliver
    obtain ⟨_, _, rfl⟩ := hdeliver
    exact h.quiet (hms _) rfl (hkept _)
  | context_destroyed =>
    simp only [Sys.deliver, Option.ite_none_right_eq_some, Option.some.injEq, Prod.mk.injEq] at hdeliver
    obtain ⟨_, _, rfl⟩ := hdeliver
    exact h.quiet (hms _) rfl fun v y n hy => (by cases hy)

theorem app_roomy {f : AppFrame} {a : Answer} {fs : List AppFrame}
    (happ : s.app f a = some (fs, s')) (h : Roomy ms s) : Roomy ms s' := by
  cases f with
  | wss_start | wss_stop =>
    simp only [Sys.app] at happ
    split at happ <;> cases happ
    · exact h.quiet (fun _ => id) (by simp [writes]) h.waiting
    · exact h
  | stop_join | stop_context_destroyed =>
    simp only [Sys.app, Option.ite_none_right_eq_some, Option.some.injEq, Prod.mk.injEq] at happ
    obtain ⟨_, _, rfl⟩ := happ
    exact h.quiet (fun _ => id) rfl h.waiting

/-- Every echo has header room, and carries a message completed on its connection. -/
theorem Follows.headroom {ls : List Label} {cfg : Config}
    (h : system.Follows Any (initial srv) ls cfg) :
    Roomy (system.observe completes (initial srv) ls) cfg.shared := by
  refine h.observed (J := fun _ => True) (I := fun ms cfg => Roomy ms cfg.shared)
    (fun _ _ => trivial) ?_ fun ms cfg l cfg' _ _ hmove hbefore => ?_
  · exact ⟨fun w x n hx => (by cases hx), fun w buf len wp hmem => (by cases hmem)⟩
  · cases hmove with
    | event hdeliver => exact deliver_roomy hdeliver hbefore
    | @svc f _ _ _ _ _ _ _ => exact f.elim
    | call _ _ => simpa [completes] using hbefore
    | app _ happ => simpa [completes] using app_roomy happ hbefore

end lws_client.ws_server
