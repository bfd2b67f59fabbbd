import LwsClientDemo.Reassembly
import LwsClientDemo.WsServer.Server

open interleaving

namespace lws_client.ws_server

/-- The receiver of the server: a first chunk resets the buffer, and a last one
    completes the message. -/
def take (s : Assembler) (k : Chunk) : Assembler :=
  let buf := (if k.is_first_fragment then [] else s.buf) ++ k.data.bytes
  if k.is_final_fragment then { buf := [], out := s.out ++ [(buf, k.frame_is_binary)] }
  else { s with buf }

theorem take_receives : Receives Chunk.is_final_fragment take where
  whole s k hfirst hlast := by simp [take, hfirst, hlast]
  first s k hfirst hlast := by simp [take, hfirst, hlast]
  middle s k hfirst hlast := by simp [take, hfirst, hlast]
  final s k hfirst hlast := by simp [take, hfirst, hlast]

/-- The frame a call hands to `lws_write` on connection `w`. -/
def Call.frame (w : WsiId) : Call → Option Message
  | .lws_write wsi buf len wp =>
    if wsi = w then some (buf.read len, decide (wp = .LWS_WRITE_BINARY)) else none
  | _ => none

/-- The frames written on connection `w`, in order. -/
def frames (w : WsiId) (trace : List Call) : List Message := trace.filterMap (Call.frame w)

@[simp] theorem frames_append (w : WsiId) (xs ys : List Call) :
    frames w (xs ++ ys) = frames w xs ++ frames w ys :=
  List.filterMap_append

/-- The chunks received on connection `w`. -/
def received (w : WsiId) (ls : List Label) : List Chunk :=
  ls.filterMap fun
    | .event (.receive wsi chunk _ _) => if wsi = w then some chunk else none
    | _ => none

/-- The allocations of a RECEIVE succeed. -/
def granted (cfg : Config) : Label → Bool
  | .event (.receive w chunk realloc malloc) =>
    (cfg.shared.wsi w).all fun x =>
      (receive cfg.shared.srv x.user w chunk realloc malloc).any fun r =>
        r.2.2 == 0 && (!chunk.is_final_fragment || r.1.echo.isSome)
  | _ => true

/-- A RECEIVE that completes a message finds the echo of the last one written. -/
def settled (cfg : Config) : Label → Bool
  | .event (.receive w chunk _ _) =>
    !chunk.is_final_fragment || (cfg.shared.wsi w).all fun x => x.user.echo.isNone
  | _ => true

variable {srv : wss_server} {ps ps' : per_session_t} {w v : WsiId} {chunk : Chunk}
  {realloc malloc : Bool} {calls : List Call} {ret : Int}

theorem prepare_echo_spec (ps : per_session_t) (data : Data) (binary ok : Bool) :
    (∃ n, prepare_echo ps data binary ok = (0, { ps with echo := some n }) ∧
      n.message = (data.bytes, binary)) ∨
    prepare_echo ps data binary ok = (-1, { ps with echo := none }) := by
  unfold prepare_echo
  cases hnew : msg_node_new data binary ok with
  | none => exact .inr rfl
  | some n => exact .inl ⟨n, rfl, (msg_node_new_message hnew).1⟩

/-- A RECEIVE writes nothing. -/
theorem receive_frames (h : receive srv ps v chunk realloc malloc = some (ps', calls, ret)) :
    frames w calls = [] := by
  simp only [receive, Option.map_eq_some_iff] at h
  obtain ⟨⟨r, f⟩, _, h⟩ := h
  dsimp only at h
  split at h
  · cases h
    rfl
  · split at h
    · cases h
      cases srv.rx_cb <;> simp only [Bool.false_eq_true, if_false, if_true] <;> split <;> rfl
    · cases h
      rfl

/-- A RECEIVE whose allocations succeed takes its chunk as the receiver does, and
    prepares the echo of a message it completes. -/
theorem receive_take (h : receive srv ps w chunk realloc malloc = some (ps', calls, ret))
    (hret : ret = 0) (hecho : chunk.is_final_fragment = true → ps'.echo.isSome = true)
    (out : List Message) :
    ∃ done, take ⟨ps.frag.contents, out⟩ chunk = ⟨ps'.frag.contents, out ++ done⟩ ∧
      if chunk.is_final_fragment then
        ps'.echo.toList.map ws_msg_node_t.message = done ∧ .lws_callback_on_writable w ∈ calls
      else done = [] ∧ ps'.echo = ps.echo := by
  simp only [receive, Option.map_eq_some_iff] at h
  obtain ⟨⟨r, f⟩, happend, h⟩ := h
  dsimp only at h
  have hzero : r = 0 := by
    by_contra hne
    rw [(ws_frag_append_failed happend hne).1] at h
    cases h
    cases hret
  subst hzero
  have hcontents : f.contents =
      (if chunk.is_first_fragment = true then [] else ps.frag.contents) ++ chunk.data.bytes := by
    rw [ws_frag_append_contents happend]
    split <;> rfl
  simp only [Int.lt_irrefl, if_false] at h
  unfold take
  rw [← hcontents]
  split at h
  · next hfinal =>
    simp only [hfinal, if_true]
    rcases prepare_echo_spec { ps with frag := f } (per_session_t.payload { ps with frag := f })
        chunk.frame_is_binary malloc with ⟨n, hprepare, hmessage⟩ | hprepare
    · rw [hprepare] at h
      cases h
      exact ⟨[(f.contents, chunk.frame_is_binary)], rfl, congrArg (fun m => [m]) hmessage, by simp⟩
    · rw [hprepare] at h
      cases h
      exact absurd (hecho hfinal) (by simp)
  · next hfinal =>
    cases h
    simp only [hfinal, Bool.false_eq_true, if_false]
    exact ⟨[], by simp, rfl, trivial⟩

theorem writeable_frames (ps : per_session_t) (v : WsiId) :
    (server_writeable ps v).1.frag = ps.frag ∧ (server_writeable ps v).1.echo = none ∧
      frames w (server_writeable ps v).2 =
        if v = w then ps.echo.toList.map ws_msg_node_t.message else [] := by
  unfold server_writeable
  cases hecho : ps.echo with
  | none => simp [hecho, frames]
  | some n =>
    refine ⟨rfl, rfl, ?_⟩
    simp only [frames, List.filterMap_cons, Call.frame, List.filterMap_nil]
    by_cases hv : v = w
    · cases hbinary : n.is_binary <;>
        simp [hv, ws_msg_node_t.message, ws_msg_node_t.payload, hbinary]
    · simp [hv]

/-- What is known of connection `w` after the chunks `ks`: while it is open, the
    messages completed are those written and then the one in the echo slot, for
    which a SERVER_WRITEABLE is due. -/
structure Echoes (w : WsiId) (ks : List Chunk) (s : Sys) : Prop where
  unused : s.next ≤ w → ks = [] ∧ frames w s.trace = [] ∧ s.wsi w = none
  open_taken : ∀ x, s.wsi w = some x → ks.foldl take ⟨[], []⟩ =
    ⟨x.user.frag.contents, frames w s.trace ++ x.user.echo.toList.map ws_msg_node_t.message⟩
  requested : ∀ x, s.wsi w = some x → x.user.echo.isSome = true → x.writable = true
  ended : s.wsi w = none → ∃ rest, (ks.foldl take ⟨[], []⟩).out = frames w s.trace ++ rest

variable {s s' : Sys} {ks : List Chunk}

theorem Echoes.out (h : Echoes w ks s) :
    ∃ rest, (ks.foldl take ⟨[], []⟩).out = frames w s.trace ++ rest := by
  cases hw : s.wsi w with
  | none => exact h.ended hw
  | some x =>
    rw [h.open_taken x hw]
    exact ⟨_, rfl⟩

/-- A step on another connection, and one on none, changes nothing here. -/
theorem Echoes.other (h : Echoes w ks s) (hnext : s.next ≤ s'.next) (hwsi : s'.wsi w = s.wsi w)
    (hframes : frames w s'.trace = frames w s.trace) : Echoes w ks s' := by
  refine ⟨fun hle => ?_, fun x hx => ?_, fun x hx => ?_, fun hx => ?_⟩
  · rw [hwsi, hframes]
    exact h.unused (Nat.le_trans hnext hle)
  · rw [hframes]
    exact h.open_taken x (hwsi ▸ hx)
  · exact h.requested x (hwsi ▸ hx)
  · rw [hframes]
    exact h.ended (hwsi ▸ hx)

/-- The end of a connection leaves what was not written. -/
theorem Echoes.close (h : Echoes w ks s) (hnext : s'.next = s.next) (hwsi : s'.wsi w = none)
    (hframes : frames w s'.trace = frames w s.trace) : Echoes w ks s' := by
  refine ⟨fun hle => ?_, fun x hx => ?_, fun x hx => ?_, fun _ => ?_⟩
  · rw [hframes]
    obtain ⟨hks, hnone, _⟩ := h.unused (hnext ▸ hle)
    exact ⟨hks, hnone, hwsi⟩
  · rw [hwsi] at hx
    cases hx
  · rw [hwsi] at hx
    cases hx
  · rw [hframes]
    exact h.out

/-- A step on the connection that leaves it open. -/
theorem Echoes.set {x y : Wsi} {ks' : List Chunk} {calls : List Call} (h : Echoes w ks s)
    (hx : s.wsi w = some x)
    (htaken : ks'.foldl take ⟨[], []⟩ = ⟨y.user.frag.contents,
      frames w (s.trace ++ calls) ++ y.user.echo.toList.map ws_msg_node_t.message⟩)
    (hrequested : y.user.echo.isSome = true → y.writable = true) :
    Echoes w ks' (s.set w (some y) calls) := by
  refine ⟨fun hle => ?_, fun z hz => ?_, fun z hz => ?_, fun hz => ?_⟩
  · have hgone := (h.unused hle).2.2
    rw [hx] at hgone
    cases hgone
  · obtain rfl : y = z := by simpa [Sys.set] using hz
    exact htaken
  · obtain rfl : y = z := by simpa [Sys.set] using hz
    exact hrequested
  · simp [Sys.set] at hz

theorem conn_cb_frames (w : WsiId) (set connected : Bool) (id : Int) :
    frames w (if set then [.conn_cb id connected] else []) = [] := by
  cases set <;> rfl

theorem deliver_echoes {e : Event} {fs : List Empty} {app : Nat → List AppFrame}
    (hdeliver : s.deliver e = some (fs, s')) (hgranted : granted ⟨s, [], app⟩ (.event e) = true)
    (hsettled : settled ⟨s, [], app⟩ (.event e) = true) (h : Echoes w ks s) :
    Echoes w (ks ++ received w [.event e]) s' := by
  cases e with
  | established v =>
    simp only [Sys.deliver, Option.ite_none_right_eq_some, Option.some.injEq, Prod.mk.injEq] at hdeliver
    obtain ⟨⟨_, rfl⟩, _, rfl⟩ := hdeliver
    rw [show received w [.event (.established s.next)] = [] from rfl, List.append_nil]
    have hframes : frames w (s.trace ++ (established s.srv).2.2) = frames w s.trace := by
      rw [frames_append, established, conn_cb_frames, List.append_nil]
    by_cases hv : w = s.next
    · obtain ⟨rfl, hnone, _⟩ := h.unused hv.ge
      subst hv
      refine ⟨fun hle => absurd hle (Nat.not_succ_le_self _), fun x hx => ?_, fun x hx hecho => ?_,
        fun hx => ?_⟩
      · obtain rfl : _ = x := by simpa [Sys.set] using hx
        simp only [Sys.set, hframes, hnone]
        rfl
      · obtain rfl : _ = x := by simpa [Sys.set] using hx
        cases hecho
      · simp [Sys.set] at hx
    · exact h.other (Nat.le_succ _) (by simp [Sys.set, hv]) hframes
  | receive v chunk realloc malloc =>
    simp only [Sys.deliver, Option.ite_none_right_eq_some, Option.bind_eq_some_iff,
      Option.map_eq_some_iff, Prod.mk.injEq] at hdeliver
    obtain ⟨_, x, hx, ⟨user, calls, ret⟩, hreceive, _, rfl⟩ := hdeliver
    have hframes : frames w (s.trace ++ calls) = frames w s.trace := by
      rw [frames_append, receive_frames hreceive, List.append_nil]
    by_cases hv : v = w
    · subst hv
      have hreceived : received v [.event (.receive v chunk realloc malloc)] = [chunk] := by
        simp [received]
      simp only [granted, hx, Option.all_some, hreceive, Option.any_some, Bool.and_eq_true, beq_iff_eq,
        Bool.or_eq_true, Bool.not_eq_true'] at hgranted
      simp only [settled, hx, Option.all_some, Bool.or_eq_true, Bool.not_eq_true',
        Option.isNone_iff_eq_none] at hsettled
      obtain ⟨done, htake, hdone⟩ := receive_take hreceive hgranted.1
        (fun hfinal => hgranted.2.resolve_left (by simp [hfinal]))
        (frames v s.trace ++ x.user.echo.toList.map ws_msg_node_t.message)
      have hfold : (ks ++ [chunk]).foldl take ⟨[], []⟩ = ⟨user.frag.contents,
          frames v s.trace ++ user.echo.toList.map ws_msg_node_t.message⟩ ∧
          (user.echo.isSome = true → x.writable = true ∨ .lws_callback_on_writable v ∈ calls) := by
        rw [List.foldl_append, h.open_taken x hx, List.foldl_cons, List.foldl_nil, htake]
        split at hdone
        · next hfinal =>
          obtain ⟨rfl, hcalls⟩ := hdone
          -- The slot was free, so the message follows the frames directly.
          have hfree := hsettled.resolve_left (by simp [hfinal])
          exact ⟨by simp [hfree], fun _ => .inr hcalls⟩
        · obtain ⟨rfl, hecho⟩ := hdone
          rw [hecho]
          exact ⟨by simp, fun hsome => .inl (h.requested x hx hsome)⟩
      rw [hreceived]
      exact h.set hx (hframes ▸ hfold.1) fun hecho => by simpa using hfold.2 hecho
    · have hreceived : received w [.event (.receive v chunk realloc malloc)] = [] := by
        simp [received, hv]
      rw [hreceived, List.append_nil]
      exact h.other (Nat.le_refl _) (by simp [Sys.set, Ne.symm hv]) hframes
  | server_writeable v =>
    simp only [Sys.deliver, Option.ite_none_right_eq_some, Option.map_eq_some_iff,
      Prod.mk.injEq] at hdeliver
    obtain ⟨_, x, hx, _, rfl⟩ := hdeliver
    rw [show received w [.event (.server_writeable v)] = [] from rfl, List.append_nil]
    obtain ⟨hfrag, hnone, hcalls⟩ := writeable_frames (w := w) x.user v
    by_cases hv : v = w
    · subst hv
      rw [if_pos rfl] at hcalls
      refine h.set hx ?_ fun hecho => ?_
      · simp only [frames_append, hcalls, hfrag, hnone]
        simpa using h.open_taken x hx
      · rw [hnone] at hecho
        cases hecho
    · rw [if_neg hv] at hcalls
      exact h.other (Nat.le_refl _) (by simp [Sys.set, Ne.symm hv]) (by simp [Sys.set, hcalls])
  | closed v =>
    simp only [Sys.deliver, Option.ite_none_right_eq_some, Option.map_eq_some_iff,
      Prod.mk.injEq] at hdeliver
    obtain ⟨_, x, hx, _, rfl⟩ := hdeliver
    rw [show received w [.event (.closed v)] = [] from rfl, List.append_nil]
    have hframes : frames w (s.trace ++ closed s.srv x.user) = frames w s.trace := by
      rw [frames_append, closed, conn_cb_frames, List.append_nil]
    by_cases hv : w = v
    · exact h.close rfl (by simp [Sys.set, hv]) hframes
    · exact h.other (Nat.le_refl _) (by simp [Sys.set, hv]) hframes
  | exit =>
    simp only [Sys.deliver, Option.ite_none_right_eq_some, Option.some.injEq, Prod.mk.injEq] at hdeliver
    obtain ⟨_, _, rfl⟩ := hdeliver
    rw [show received w [.event .exit] = [] from rfl, List.append_nil]
    exact h.other (Nat.le_refl _) rfl rfl
  | context_destroyed =>
    simp only [Sys.deliver, Option.ite_none_right_eq_some, Option.some.injEq, Prod.mk.injEq] at hdeliver
    obtain ⟨_, _, rfl⟩ := hdeliver
    rw [show received w [.event .context_destroyed] = [] from rfl, List.append_nil]
    exact h.close rfl rfl rfl

/-- The owner's calls touch no connection. -/
theorem app_echoes {f : AppFrame} {a : Answer} {fs : List AppFrame}
    (happ : s.app f a = some (fs, s')) (h : Echoes w ks s) : Echoes w ks s' := by
  cases f with
  | wss_start | wss_stop =>
    simp only [Sys.app] at happ
    split at happ <;> cases happ
    · exact h.other (Nat.le_refl _) rfl (by simp [frames, Call.frame])
    · exact h
  | stop_join | stop_context_destroyed =>
    simp only [Sys.app, Option.ite_none_right_eq_some, Option.some.injEq, Prod.mk.injEq] at happ
    obtain ⟨_, _, rfl⟩ := happ
    exact h.other (Nat.le_refl _) rfl rfl

theorem Follows.echoes {ls : List Label} {cfg : Config}
    (h : system.Follows (fun cfg l => granted cfg l = true ∧ settled cfg l = true) (initial srv) ls cfg)
    (w : WsiId) : Echoes w (received w ls) cfg.shared := by
  refine h.invariant (I := fun ls cfg => Echoes w (received w ls) cfg.shared) ?_ ?_
  · exact ⟨fun _ => ⟨rfl, rfl, rfl⟩, fun x hx => (by cases hx), fun x hx => (by cases hx),
      fun _ => ⟨[], rfl⟩⟩
  · intro ls cfg l cfg' hok hmove hbefore
    rw [received, List.filterMap_append]
    change Echoes w (received w ls ++ received w [l]) cfg'.shared
    cases hmove with
    | event hdeliver => exact deliver_echoes hdeliver hok.1 hok.2 hbefore
    | @svc f _ _ _ _ _ _ _ => exact f.elim
    | call _ _ => simpa [received] using hbefore
    | app _ happ => simpa [received] using app_echoes happ hbefore

/-- With `malloc` answering, the echo of what the fragment buffer holds is prepared. -/
theorem prepare_echo_succeeds (ps : per_session_t) (binary : Bool) :
    (prepare_echo ps ps.payload binary true).2.echo.isSome = true := by
  have hcap := ps.frag.cap_le
  have hlen := ps.frag.len_le
  have hbytes : ps.payload.bytes.length = ps.frag.len := ps.frag.length_contents
  have hsize : size_add LWS_PRE ps.payload.bytes.length ≤ PTRDIFF_MAX := by
    rw [hbytes, size_add_of_lt (by simp only [LWS_PRE]; omega)]
    simp only [LWS_PRE, PTRDIFF_MAX]
    omega
  unfold prepare_echo
  cases hnew : msg_node_new ps.payload binary true with
  | some n => rfl
  | none =>
    unfold msg_node_new at hnew
    split at hnew
    · next hmalloc => simp [malloc, hsize] at hmalloc
    · cases hnew

/-- With the allocator answering, the allocations of a RECEIVE succeed as long as
    the message fits. -/
theorem granted_of_fits {cfg : Config} (hfits : ∀ x, cfg.shared.wsi w = some x →
      x.user.frag.len + chunk.data.bytes.length ≤ 2 ^ 62) :
    granted cfg (.event (.receive w chunk true true)) = true := by
  simp only [granted, Option.all_eq_true]
  intro x hx
  have hbase : (if chunk.is_first_fragment then x.user.frag.reset else x.user.frag).len +
      chunk.data.bytes.length ≤ 2 ^ 62 := by
    have hlen := hfits x hx
    split
    · simp only [ws_frag_buf_t.reset]
      omega
    · exact hlen
  obtain ⟨f, hf⟩ := ws_frag_append_succeeds _ chunk.data hbase
  simp only [receive, hf, Option.map_some, Int.lt_irrefl, if_false, Option.any_some]
  cases chunk.is_final_fragment with
  | false => rfl
  | true =>
    simp only [if_true, beq_self_eq_true, Bool.not_true, Bool.false_or, Bool.true_and]
    exact prepare_echo_succeeds { x.user with frag := f } chunk.frame_is_binary

/-- In a run whose allocations succeed, and in which a message is completed only
    after the echo of the last one was written, the frames written on each open
    connection are the messages received on it, up to those still to come; a
    SERVER_WRITEABLE is due for these, and the next one writes the first of them. -/
theorem echoes_in_order {ls : List Label} {cfg : Config} {conn : Connection}
    (h : system.Follows (fun cfg l => granted cfg l = true ∧ settled cfg l = true) (initial srv) ls cfg)
    (hwire : received w ls = conn.chunks) (hconn : conn.WellFormed Chunk.is_final_fragment) :
    ∃ rest, conn.messages.map Prod.fst = frames w cfg.shared.trace ++ rest ∧
      ∀ x m later, cfg.shared.wsi w = some x → rest = m :: later →
        x.writable = true ∧ (cfg.shared.thread = .running →
          ∃ next, system.step cfg (.event (.server_writeable w)) = some next ∧
            frames w next.shared.trace = frames w cfg.shared.trace ++ [m]) := by
  have hechoes := Follows.echoes h w
  rw [hwire] at hechoes
  have hmessages := take_receives.fold_connection hconn ⟨[], []⟩
  rw [List.nil_append] at hmessages
  cases hw : cfg.shared.wsi w with
  | none =>
    obtain ⟨rest, hrest⟩ := hechoes.ended hw
    exact ⟨rest, hmessages ▸ hrest, fun x m later hx => (by cases hx)⟩
  | some x =>
    have htaken := hechoes.open_taken x hw
    rw [htaken] at hmessages
    refine ⟨_, hmessages.symm, fun y m later hy hrest => ?_⟩
    cases hy
    cases hecho : x.user.echo with
    | none => simp [hecho] at hrest
    | some n =>
      obtain ⟨rfl, rfl⟩ : n.message = m ∧ [] = later := by simpa [hecho] using hrest
      refine ⟨hechoes.requested x hw (by simp [hecho]), fun hrun => ?_⟩
      obtain ⟨s, svc, app⟩ := cfg
      obtain rfl : svc = [] := by
        cases svc with
        | nil => rfl
        | cons f rest => exact f.elim
      obtain ⟨_, _, hcalls⟩ := writeable_frames (w := w) x.user w
      refine ⟨⟨s.set w (some { x with user := (server_writeable x.user w).1, writable := false })
        (server_writeable x.user w).2, [], app⟩, ?_, ?_⟩
      · simp only at hrun hw
        simp [System.step, system, Sys.deliver, hrun, hw]
      · rw [Sys.set, frames_append, hcalls, if_pos rfl, hecho]
        rfl

/-- A started server with connection 0. -/
def open_run : List Label := [.call 0 .wss_start, .app 0 {}, .event (.established 0)]

/-- A text message in one chunk. -/
def text (data : Data) : Chunk :=
  { data, is_first_fragment := true, is_final_fragment := true, remaining_packet_payload := 0
    frame_is_binary := false }

def receive_text (data : Data) : Label := .event (.receive 0 (text data) true true)

def ab : Data := ⟨[97, 98], two_bytes⟩

def cd : Data := ⟨[99, 100], two_bytes⟩

/-- `ab` and then `cd`, on one connection. -/
def two_messages : Connection :=
  { messages := [(([97, 98], false), [text ab]),
      (([99, 100], false), [text cd])]
    cut := [] }

theorem two_messages_split : two_messages.WellFormed Chunk.is_final_fragment := by
  refine ⟨fun m hm => ?_, .between⟩
  simp only [two_messages, List.mem_cons, List.not_mem_nil, or_false] at hm
  rcases hm with rfl | rfl
  · exact @Split.whole Chunk.is_final_fragment (text ab) rfl rfl
  · exact @Split.whole Chunk.is_final_fragment (text cd) rfl rfl

theorem echoes_in_order_written : ∃ cfg, Reachable cfg ∧
    frames 0 cfg.shared.trace = [([97, 98], false)] ∧
    ∃ next, system.step cfg (.event (.server_writeable 0)) = some next ∧
      frames 0 next.shared.trace = [([97, 98], false), ([99, 100], false)] := by
  obtain ⟨cfg, hfollows, hframes, hrun, hopen⟩ : ∃ cfg,
      system.Follows (fun cfg l => granted cfg l = true ∧ settled cfg l = true) (initial wss_create)
        (open_run ++ [receive_text ab, .event (.server_writeable 0),
          receive_text cd]) cfg ∧
      frames 0 cfg.shared.trace = [([97, 98], false)] ∧ cfg.shared.thread = .running ∧
      (cfg.shared.wsi 0).isSome = true :=
    System.exists_follows_of_run (by decide)
  obtain ⟨rest, hmessages, hdue⟩ :=
    echoes_in_order (w := 0) hfollows rfl two_messages_split
  obtain ⟨x, hx⟩ := Option.isSome_iff_exists.mp hopen
  rw [hframes] at hmessages hdue
  obtain rfl : [([99, 100], false)] = rest := by simpa [two_messages] using hmessages
  obtain ⟨_, hnext⟩ := hdue x _ _ hx rfl
  obtain ⟨next, hstep, hwritten⟩ := hnext hrun
  exact ⟨cfg, ⟨_, hfollows.reaches.mono fun _ _ _ => trivial⟩, hframes, next, hstep, hwritten⟩

/-- Two messages arrive before the first SERVER_WRITEABLE: only the second one is
    echoed. -/
theorem first_echo_lost : ∃ cfg,
    system.Follows (fun cfg l => granted cfg l = true) (initial wss_create)
      (open_run ++ [receive_text ab, receive_text cd,
        .event (.server_writeable 0)]) cfg ∧
    two_messages.WellFormed Chunk.is_final_fragment ∧
    received 0 (open_run ++ [receive_text ab, receive_text cd,
      .event (.server_writeable 0)]) = two_messages.chunks ∧
    frames 0 cfg.shared.trace = [([99, 100], false)] ∧
    ¬ frames 0 cfg.shared.trace <+: two_messages.messages.map Prod.fst := by
  obtain ⟨cfg, hfollows, hframes⟩ : ∃ cfg,
      system.Follows (fun cfg l => granted cfg l = true) (initial wss_create)
        (open_run ++ [receive_text ab, receive_text cd,
          .event (.server_writeable 0)]) cfg ∧
      frames 0 cfg.shared.trace = [([99, 100], false)] :=
    System.exists_follows_of_run (by decide)
  refine ⟨cfg, hfollows, two_messages_split, rfl, hframes, ?_⟩
  rw [hframes]
  decide

end lws_client.ws_server
