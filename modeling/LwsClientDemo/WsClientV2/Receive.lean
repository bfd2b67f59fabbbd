import LwsClientDemo.Reassembly
import LwsClientDemo.WsClientV2.Sections

open interleaving

namespace lws_client.ws_client_v2

/-- The receiver of this client: the buffer is reset by a last chunk only, and
    an empty buffer is not given to `rx_cb`. -/
def take_final (s : Assembler) (k : Chunk) : Assembler :=
  if k.is_first_fragment && k.is_final_fragment && k.remaining_packet_payload == 0 then
    { s with out := s.out ++ [(k.data.bytes, k.frame_is_binary)] }
  else
    let buf := s.buf ++ k.data.bytes
    if k.is_final_fragment then
      { buf := [], out := s.out ++ if buf = [] then [] else [(buf, k.frame_is_binary)] }
    else { s with buf }

/-- What arrives on the connections, in order: whole messages and cut ones. -/
inductive Arrival where
  | message (m : Message) (ks : List Chunk)
  | cut (ks : List Chunk)

def Arrival.chunks : Arrival → List Chunk
  | .message _ ks | .cut ks => ks

def Arrival.completed : Arrival → List Message
  | .message m _ => [m]
  | .cut _ => []

def arrivals (conns : List Connection) : List Arrival :=
  conns.flatMap fun conn => conn.messages.map (fun m => .message m.1 m.2) ++ [.cut conn.cut]

def Arrival.WellFormed : Arrival → Prop
  | .message m ks => Split Chunk.is_final_fragment m ks
  | .cut ks => Cut Chunk.is_final_fragment ks

/-- Every message that arrives in more than one chunk is not empty, and no byte
    of a cut message is left in front of it: `dirt` are the bytes of the cut
    messages since the last message in more than one chunk. -/
def Clean (dirt : List UInt8) : List Arrival → Prop
  | [] => True
  | .message m ks :: rest =>
    if 1 < ks.length then dirt = [] ∧ m.1 ≠ [] ∧ Clean [] rest else Clean dirt rest
  | .cut ks :: rest => Clean (dirt ++ payload ks) rest

theorem take_final_inner {ks : List Chunk} (h : Inner Chunk.is_final_fragment ks) (s : Assembler) :
    ks.foldl take_final s = { s with buf := s.buf ++ payload ks } := by
  induction ks generalizing s with
  | nil => simp [payload]
  | cons k ks ih =>
    obtain ⟨hfirst, hlast⟩ := h k (by simp)
    have htake : take_final s k = { s with buf := s.buf ++ k.data.bytes } := by
      simp [take_final, hfirst, hlast]
    rw [List.foldl_cons, htake, ih fun r hr => h r (by simp [hr])]
    simp [payload]

theorem take_final_cut {ks : List Chunk} (h : Cut Chunk.is_final_fragment ks) (s : Assembler) :
    ks.foldl take_final s = { s with buf := s.buf ++ payload ks } := by
  cases h with
  | between => simp [payload]
  | @inside k inner hfirst hlast hinner =>
    have htake : take_final s k = { s with buf := s.buf ++ k.data.bytes } := by
      simp [take_final, hlast]
    rw [List.foldl_cons, htake, take_final_inner hinner]
    simp [payload]

/-- A message in one chunk goes past the buffer; one in more chunks is given out
    behind what the buffer holds, unless both are empty. -/
theorem take_final_split {m : Message} {ks : List Chunk} (h : Split Chunk.is_final_fragment m ks)
    (hfinal : ∀ k ∈ ks, k.is_final_fragment = true → k.remaining_packet_payload = 0)
    (s : Assembler) :
    ks.foldl take_final s =
      if 1 < ks.length then
        { buf := [], out := s.out ++ if s.buf ++ m.1 = [] then [] else [(s.buf ++ m.1, m.2)] }
      else { s with out := s.out ++ [m] } := by
  cases h with
  | @whole k hfirst hlast =>
    have hremaining := hfinal k (by simp) hlast
    simp [take_final, hfirst, hlast, hremaining]
  | @parts k l inner is_binary hfirst hlast hinner hfirst' hlast' hbinary =>
    have htake : take_final s k = { s with buf := s.buf ++ k.data.bytes } := by
      simp [take_final, hlast]
    have hl : l.frame_is_binary = is_binary := hbinary l (by simp)
    rw [if_pos (by simp), List.cons_append, List.foldl_cons, List.foldl_append, htake,
      take_final_inner hinner]
    have hbuf : s.buf ++ k.data.bytes ++ payload inner ++ l.data.bytes =
        s.buf ++ payload (k :: (inner ++ [l])) := by
      simp [payload]
    simp only [List.foldl_cons, List.foldl_nil, take_final, hfirst', hlast', hl, Bool.false_and,
      Bool.false_eq_true, if_false, if_true, hbuf]

/-- The messages given out for the arrivals, when the buffer holds `dirt`. -/
def given (dirt : List UInt8) : List Arrival → List Message
  | [] => []
  | .message m ks :: rest =>
    if 1 < ks.length then
      (if dirt ++ m.1 = [] then [] else [(dirt ++ m.1, m.2)]) ++ given [] rest
    else m :: given dirt rest
  | .cut ks :: rest => given (dirt ++ payload ks) rest

theorem take_final_arrivals {items : List Arrival} (h : ∀ i ∈ items, i.WellFormed)
    (hfinal : ∀ i ∈ items, ∀ k ∈ i.chunks, k.is_final_fragment = true →
      k.remaining_packet_payload = 0) (s : Assembler) :
    ((items.flatMap Arrival.chunks).foldl take_final s).out = s.out ++ given s.buf items := by
  induction items generalizing s with
  | nil => simp [given]
  | cons i items ih =>
    have hi := h i (by simp)
    have hrest := ih (fun j hj => h j (by simp [hj])) fun j hj => hfinal j (by simp [hj])
    rw [List.flatMap_cons, List.foldl_append, hrest]
    cases i with
    | message m ks =>
      have hks : ∀ k ∈ ks, k.is_final_fragment = true → k.remaining_packet_payload = 0 :=
        hfinal (.message m ks) (by simp)
      rw [Arrival.chunks, take_final_split hi hks, given]
      split <;> simp
    | cut ks =>
      rw [Arrival.chunks, take_final_cut hi, given]

theorem given_length (items : List Arrival) (dirt : List UInt8) :
    (given dirt items).length ≤ (items.flatMap Arrival.completed).length := by
  induction items generalizing dirt with
  | nil => simp [given]
  | cons i items ih =>
    cases i with
    | message m ks =>
      have hnil := ih []
      have hdirt := ih dirt
      rw [given, List.flatMap_cons, Arrival.completed, List.length_append, List.length_singleton]
      split
      · rw [List.length_append]
        split
        · rw [List.length_nil]
          omega
        · rw [List.length_singleton]
          omega
      · rw [List.length_cons]
        omega
    | cut ks =>
      rw [given, List.flatMap_cons, Arrival.completed, List.nil_append]
      exact ih _

/-- Exactly the completed messages are given out if and only if the arrivals are
    clean: a message that is swallowed shortens the sequence for good. -/
theorem given_eq_iff (items : List Arrival) (dirt : List UInt8) :
    given dirt items = items.flatMap Arrival.completed ↔ Clean dirt items := by
  induction items generalizing dirt with
  | nil => simp [given, Clean]
  | cons i items ih =>
    cases i with
    | message m ks =>
      rw [given, Clean, List.flatMap_cons, Arrival.completed, List.singleton_append]
      split
      · by_cases hempty : dirt ++ m.1 = []
        · have hlen := given_length items []
          rw [if_pos hempty, List.nil_append]
          constructor
          · intro heq
            rw [heq, List.length_cons] at hlen
            omega
          · rintro ⟨_, hm, _⟩
            exact absurd (List.append_eq_nil_iff.mp hempty).2 hm
        · rw [if_neg hempty, List.singleton_append, List.cons.injEq, ih]
          constructor
          · rintro ⟨hm, hclean⟩
            have hdirt : dirt = [] := by
              have hbytes : dirt ++ m.1 = m.1 := congrArg Prod.fst hm
              simpa using hbytes
            exact ⟨hdirt, by simpa [hdirt] using hempty, hclean⟩
          · rintro ⟨rfl, _, hclean⟩
            exact ⟨rfl, hclean⟩
      · rw [List.cons.injEq, ih]
        simp
    | cut ks =>
      rw [given, Clean, List.flatMap_cons, Arrival.completed, List.nil_append]
      exact ih _

/-- No append of a RECEIVE fails, and the service thread stays in its loop. -/
def granted (cfg : Config) : Label → Prop
  | .event (.callback _ (.CLIENT_RECEIVE chunk) a) =>
    (receive cfg.shared.c chunk a.ok).any (fun o => o.ret == 0) = true
  | .event .exit => False
  | _ => True

instance (cfg : Config) (l : Label) : Decidable (granted cfg l) := by
  unfold granted
  split <;> infer_instance

/-- The chunks received in a run, over all its connections. -/
def received (ls : List Label) : List Chunk :=
  ls.filterMap fun
    | .event e => e.receives
    | _ => none

theorem deliveries_callIf (rx message : Bool) (data : List UInt8) (is_binary : Bool) :
    deliveries (callIf rx (.rx_cb data is_binary) ++ callIf message (.on_message data is_binary)) =
      if rx then [(data, is_binary)] else [] := by
  cases rx <;> cases message <;> rfl

/-- RECEIVE does what the receiver does. -/
theorem receive_take {c : wsl_client} {chunk : Chunk} {ok : Bool} {o : Out wsl_client}
    (h : receive c chunk ok = some o) (hret : o.ret = 0) (hrx : c.rx_cb = true)
    (out : List Message) :
    take_final ⟨c.frag.contents, out⟩ chunk =
      ⟨o.client.frag.contents, out ++ deliveries o.acts⟩ := by
  unfold receive at h
  dsimp only at h
  unfold take_final
  split at h
  · next hwhole =>
    cases h
    rw [if_pos hwhole, deliveries_callIf, hrx]
    rfl
  · next hwhole =>
    rw [if_neg hwhole]
    simp only [Option.map_eq_some_iff] at h
    obtain ⟨⟨ret, f⟩, happend, rfl⟩ := h
    dsimp only at hret ⊢
    obtain rfl := ws_frag_append_returned happend fun hneg => by simp [hneg] at hret
    have hcontents := ws_frag_append_contents happend
    simp only [Int.lt_irrefl, if_false]
    split
    · have hlen : f.len > 0 ↔ f.contents ≠ [] := by
        rw [← List.length_pos_iff, ws_frag_buf_t.length_contents]
      rw [deliveries_callIf, hrx, ws_frag_buf_t.reset_contents, ← hcontents]
      by_cases hempty : f.contents = []
      · simp [hempty, hlen]
      · simp [hempty, hlen]
    · rw [← hcontents]
      simp [deliveries]

/-- Over any run the buffer and the deliveries are those of the receiver on the
    chunks received so far. -/
theorem follows_take {c : wsl_client} (hc : c.Fresh) (hrx : c.rx_cb = true) {ls : List Label}
    {cfg : Config} (h : system.Follows granted (initial c) ls cfg) :
    cfg.shared.c.rx_cb = true ∧ (received ls).foldl take_final ⟨[], []⟩ =
      ⟨cfg.shared.c.frag.contents, deliveries cfg.shared.trace⟩ := by
  refine h.invariant (I := fun ls cfg => cfg.shared.c.rx_cb = true ∧
    (received ls).foldl take_final ⟨[], []⟩ =
      ⟨cfg.shared.c.frag.contents, deliveries cfg.shared.trace⟩) ⟨hrx, ?_⟩ ?_
  · change (⟨[], []⟩ : Assembler) = ⟨c.frag.contents, []⟩
    rw [hc.frag]
    rfl
  · rintro ls cfg l cfg' hok hmove ⟨hrx, htake⟩
    have hreceived : received (ls ++ [l]) = received ls ++ received [l] := List.filterMap_append
    rw [hreceived, List.foldl_append, htake]
    cases hmove with
    | @event e s s' app fs hdeliver =>
      obtain ⟨⟨_, _, _, _, _, _, _, _, _, _, _, _, hc'⟩, acts, htrace, heffect⟩ :=
        deliver_spec hdeliver
      have hrx' : s'.c.rx_cb = true := by rw [hc']; exact hrx
      refine ⟨hrx', ?_⟩
      dsimp only
      rw [htrace, deliveries_append]
      cases heffect with
      | plain hnone hplain _ hfrag _ =>
        rw [hfrag, hplain.deliveries]
        simp [received, hnone]
      | @receive w chunk a o ho hacts _ hfrag =>
        have hret : o.ret = 0 := by
          simp only [granted, ho, Option.any_some, beq_iff_eq] at hok
          exact hok
        rw [hfrag, hacts]
        exact receive_take ho hret hrx _
      | ping _ hacts _ hfrag =>
        rw [hfrag, hacts]
        simp [received, Event.receives, writeable_ping, deliveries]
      | dequeue _ _ hacts _ hfrag =>
        rw [hfrag, hacts]
        simp [received, Event.receives, deliveries]
      | exit _ _ _ _ _ => exact absurd hok id
    | svc hsvc =>
      obtain ⟨⟨_, _, _, _, _, _, _, _, _, _, _, _, hc'⟩, _, hfrag, _, acts, htrace, hacts⟩ :=
        svc_spec hsvc
      dsimp only at hrx ⊢
      refine ⟨by rw [hc']; exact hrx, ?_⟩
      rw [hfrag, htrace, deliveries_append]
      have hnone : deliveries acts = [] := by
        rcases hacts with ⟨hplain, _⟩ | ⟨w, n, _, rfl⟩
        · exact hplain.deliveries
        · rfl
      simp [hnone, received]
    | call _ _ => exact ⟨hrx, by simp [received]⟩
    | app htop happ =>
      obtain ⟨⟨_, _, _, _, _, _, _, _, _, _, _, _, hc'⟩, hfrag, acts, htrace, hacts⟩ :=
        app_spec happ
      dsimp only at hrx ⊢
      refine ⟨by rw [hc']; exact hrx, ?_⟩
      rw [hfrag, htrace, deliveries_append]
      have hnone : deliveries acts = [] := by
        rcases hacts with ⟨_, hplain⟩ | ⟨_, _, rfl⟩ | ⟨n, data, is_binary, _, _, _, rfl⟩
        · exact hplain.deliveries
        · rfl
        · rfl
      simp [hnone, received]

theorem arrivals_chunks (conns : List Connection) :
    (arrivals conns).flatMap Arrival.chunks = conns.flatMap Connection.chunks := by
  induction conns with
  | nil => rfl
  | cons conn conns ih =>
    rw [arrivals, List.flatMap_cons, List.flatMap_append]
    change _ ++ (arrivals conns).flatMap Arrival.chunks = _
    rw [ih, List.flatMap_cons, Connection.chunks]
    simp [List.flatMap_map, Arrival.chunks]

theorem arrivals_completed (conns : List Connection) :
    (arrivals conns).flatMap Arrival.completed = completed conns := by
  induction conns with
  | nil => rfl
  | cons conn conns ih =>
    rw [arrivals, List.flatMap_cons, List.flatMap_append]
    change _ ++ (arrivals conns).flatMap Arrival.completed = _
    rw [ih]
    simp [List.flatMap_map, Arrival.completed, completed, ← List.map_eq_flatMap]

theorem arrivals_wellFormed {conns : List Connection}
    (h : ∀ conn ∈ conns, conn.WellFormed Chunk.is_final_fragment) :
    ∀ i ∈ arrivals conns, i.WellFormed := by
  intro i hi
  obtain ⟨conn, hconn, hi⟩ := List.mem_flatMap.mp hi
  obtain ⟨hsplit, hcut⟩ := h conn hconn
  rcases List.mem_append.mp hi with hi | hi
  · obtain ⟨m, hm, rfl⟩ := List.mem_map.mp hi
    exact hsplit m hm
  · obtain rfl : i = .cut conn.cut := by simpa using hi
    exact hcut

/-- Over all connections of a running client `rx_cb` gets exactly the completed
    messages if and only if every message in more than one chunk is not empty
    and no byte of a cut message was left in front of it. -/
theorem delivers_completed_iff {c : wsl_client} (hc : c.Fresh) (hrx : c.rx_cb = true)
    {ls : List Label} {cfg : Config} (h : system.Follows granted (initial c) ls cfg)
    {conns : List Connection} (hwire : received ls = conns.flatMap Connection.chunks)
    (hconns : ∀ conn ∈ conns, conn.WellFormed Chunk.is_final_fragment)
    (hfinal : ∀ k ∈ received ls, k.is_final_fragment = true → k.remaining_packet_payload = 0) :
    deliveries cfg.shared.trace = completed conns ↔ Clean [] (arrivals conns) := by
  obtain ⟨_, htake⟩ := follows_take hc hrx h
  rw [hwire, ← arrivals_chunks] at htake hfinal
  have hgiven := take_final_arrivals (arrivals_wellFormed hconns)
    (fun i hi k hk => hfinal k (List.mem_flatMap.mpr ⟨i, hi, hk⟩)) ⟨[], []⟩
  rw [htake] at hgiven
  have hdelivered : deliveries cfg.shared.trace = given [] (arrivals conns) := by simpa using hgiven
  rw [← arrivals_completed, ← given_eq_iff, hdelivered]

/-- Connection 0 is lost and connection 1 takes its place. -/
def reconnected_run : List Label :=
  [.event (.callback 0 .CLIENT_CLOSED {}), .svc {}, .event (.callback 0 .WSI_DESTROY {}),
    .event .sul_reconnect_cb, .svc { connect := .accepted }, .svc {},
    .event (.callback 1 .CLIENT_ESTABLISHED {}), .svc {}]

def receive_run (w : WsiId) (ks : List Chunk) : List Label :=
  ks.map fun k => .event (.callback w (.CLIENT_RECEIVE k) {})

theorem two_chunks_split : Split Chunk.is_final_fragment ([99, 100], false) two_chunks :=
  @Split.pair Chunk.is_final_fragment (text_chunk ⟨[99], one_byte⟩ true false)
    (text_chunk ⟨[100], one_byte⟩ false true) ⟨rfl, rfl⟩ ⟨rfl, rfl⟩ rfl

/-- One connection that receives `cd`. -/
def whole_connection : Connection := { messages := [(([99, 100], false), two_chunks)], cut := [] }

theorem delivers_completed_iff_two_chunks : ∃ (ls : List Label) (cfg : Config),
    received ls = whole_connection.chunks ∧
      (deliveries cfg.shared.trace = completed [whole_connection] ↔
        Clean [] (arrivals [whole_connection])) := by
  obtain ⟨cfg, hfollows, _⟩ : ∃ cfg,
      system.Follows granted (initial (wsl_create "localhost" 9000 none true))
        (connected_run ++ receive_run 0 two_chunks) cfg ∧ True :=
    System.exists_follows_of_run (by decide)
  refine ⟨connected_run ++ receive_run 0 two_chunks, cfg, rfl,
    delivers_completed_iff (wsl_create_fresh _ _ _ _) rfl hfollows rfl ?_ (by decide)⟩
  intro conn hconn
  obtain rfl := List.mem_singleton.mp hconn
  refine ⟨fun m hm => ?_, .between⟩
  obtain rfl := List.mem_singleton.mp hm
  exact two_chunks_split

/-- `ab` without a last chunk. -/
def cut_chunk : Chunk := text_chunk ⟨[97, 98], two_bytes⟩ true false

/-- A message is cut off after `ab`; the next connection receives `cd`. -/
def cut_connections : List Connection := [{ messages := [], cut := [cut_chunk] }, whole_connection]

/-- The message after a cut one is delivered with the bytes of the cut one. -/
theorem cut_message_leaks : ∃ (c : wsl_client) (ls : List Label) (cfg : Config), c.Fresh ∧ c.rx_cb = true ∧
    system.Follows granted (initial c) ls cfg ∧
    received ls = cut_connections.flatMap Connection.chunks ∧
    (∀ conn ∈ cut_connections, conn.WellFormed Chunk.is_final_fragment) ∧
    (∀ k ∈ received ls, k.is_final_fragment = true → k.remaining_packet_payload = 0) ∧
    completed cut_connections = [([99, 100], false)] ∧
    deliveries cfg.shared.trace = [([97, 98, 99, 100], false)] := by
  obtain ⟨cfg, hfollows, hdelivered⟩ : ∃ cfg,
      system.Follows granted (initial (wsl_create "localhost" 9000 none true))
        (connected_run ++ receive_run 0 [cut_chunk] ++ reconnected_run ++
          receive_run 1 two_chunks) cfg ∧
        deliveries cfg.shared.trace = [([97, 98, 99, 100], false)] :=
    System.exists_follows_of_run (by decide)
  refine ⟨_, _, cfg, wsl_create_fresh _ _ _ _, rfl, hfollows, rfl, ?_, by decide, rfl, hdelivered⟩
  intro conn hconn
  simp only [cut_connections, List.mem_cons, List.not_mem_nil, or_false] at hconn
  rcases hconn with rfl | rfl
  · exact ⟨by simp, .inside rfl rfl (by simp [Inner])⟩
  · refine ⟨fun m hm => ?_, .between⟩
    obtain rfl := List.mem_singleton.mp hm
    exact two_chunks_split

end lws_client.ws_client_v2
