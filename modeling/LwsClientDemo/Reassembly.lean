import LwsClientDemo.Traffic

namespace lws_client

def payload (ks : List Chunk) : List UInt8 := ks.flatMap fun k => k.data.bytes

/-- Chunks between the first and the last one of a message. -/
def Inner (last : Chunk → Bool) (ks : List Chunk) : Prop :=
  ∀ k ∈ ks, k.is_first_fragment = false ∧ last k = false

/-- The chunks a message arrives in: `lws_is_first_fragment` holds on the first
    one only, `last` on the last one only, and `lws_frame_is_binary` is the type
    of the message on each. -/
inductive Split (last : Chunk → Bool) : Message → List Chunk → Prop where
  | whole {k : Chunk} : k.is_first_fragment = true → last k = true →
      Split last (k.data.bytes, k.frame_is_binary) [k]
  | parts {k l : Chunk} {inner : List Chunk} {is_binary : Bool} :
      k.is_first_fragment = true → last k = false → Inner last inner →
      l.is_first_fragment = false → last l = true →
      (∀ r ∈ k :: inner ++ [l], r.frame_is_binary = is_binary) →
      Split last (payload (k :: inner ++ [l]), is_binary) (k :: inner ++ [l])

/-- The chunks of a message cut off before its last one; none, when the
    connection is lost between two messages. -/
inductive Cut (last : Chunk → Bool) : List Chunk → Prop where
  | between : Cut last []
  | inside {k : Chunk} {inner : List Chunk} :
      k.is_first_fragment = true → last k = false → Inner last inner → Cut last (k :: inner)

/-- What one connection receives: whole messages, each with the chunks it
    arrives in, and the message cut off by the end of the connection. -/
structure Connection where
  messages : List (Message × List Chunk)
  cut : List Chunk

structure Connection.WellFormed (last : Chunk → Bool) (conn : Connection) : Prop where
  split : ∀ m ∈ conn.messages, Split last m.1 m.2
  cut : Cut last conn.cut

def Connection.chunks (conn : Connection) : List Chunk :=
  conn.messages.flatMap Prod.snd ++ conn.cut

/-- The messages whose last chunk arrived, in order. -/
def completed (conns : List Connection) : List Message :=
  conns.flatMap fun conn => conn.messages.map Prod.fst

/-- A receiver: the reassembly buffer, and the messages given to `rx_cb`. -/
structure Assembler where
  buf : List UInt8
  out : List Message

/-- `lws_is_final_fragment` and `lws_remaining_packet_payload == 0`. -/
def Chunk.last (k : Chunk) : Bool := k.is_final_fragment && k.remaining_packet_payload == 0

/-- The chunk is a message by itself, which goes past the buffer. -/
def Chunk.whole (k : Chunk) : Bool := k.is_first_fragment && k.last

/-- What RECEIVE tests for. -/
theorem Chunk.whole_eq (k : Chunk) : k.whole =
    (k.is_first_fragment && k.is_final_fragment && k.remaining_packet_payload == 0) :=
  (Bool.and_assoc ..).symm

/-- A first chunk resets the buffer; a message in one chunk goes past it. -/
def Assembler.take (s : Assembler) (k : Chunk) : Assembler :=
  if k.is_first_fragment && k.last then
    { s with out := s.out ++ [(k.data.bytes, k.frame_is_binary)] }
  else
    let buf := (if k.is_first_fragment then [] else s.buf) ++ k.data.bytes
    if k.last then { buf := [], out := s.out ++ [(buf, k.frame_is_binary)] } else { s with buf }

/-- What makes a function on assemblers a receiver of messages that end with
    `last`. A message in one chunk may go past the buffer. -/
structure Receives (last : Chunk → Bool) (take : Assembler → Chunk → Assembler) : Prop where
  whole : ∀ s k, k.is_first_fragment = true → last k = true →
    (take s k).out = s.out ++ [(k.data.bytes, k.frame_is_binary)]
  first : ∀ s k, k.is_first_fragment = true → last k = false →
    take s k = { s with buf := k.data.bytes }
  middle : ∀ s k, k.is_first_fragment = false → last k = false →
    take s k = { s with buf := s.buf ++ k.data.bytes }
  final : ∀ s k, k.is_first_fragment = false → last k = true →
    (take s k).out = s.out ++ [(s.buf ++ k.data.bytes, k.frame_is_binary)]

section
variable {last : Chunk → Bool} {take : Assembler → Chunk → Assembler} {ks : List Chunk}

theorem Receives.fold_inner (ht : Receives last take) (h : Inner last ks) (s : Assembler) :
    ks.foldl take s = { s with buf := s.buf ++ payload ks } := by
  induction ks generalizing s with
  | nil => simp [payload]
  | cons k ks ih =>
    obtain ⟨hfirst, hlast⟩ := h k (by simp)
    rw [List.foldl_cons, ht.middle s k hfirst hlast, ih fun r hr => h r (by simp [hr])]
    simp [payload]

/-- The chunks of a message deliver it once, whatever is left in the buffer. -/
theorem Receives.fold_split (ht : Receives last take) {m : Message} (h : Split last m ks)
    (s : Assembler) : (ks.foldl take s).out = s.out ++ [m] := by
  cases h with
  | @whole k hfirst hlast => exact ht.whole s k hfirst hlast
  | @parts k l inner is_binary hfirst hlast hinner hfirst' hlast' hbinary =>
    have hl : l.frame_is_binary = is_binary := hbinary l (by simp)
    rw [List.cons_append, List.foldl_cons, List.foldl_append, ht.first s k hfirst hlast,
      ht.fold_inner hinner, List.foldl_cons, List.foldl_nil, ht.final _ l hfirst' hlast', hl]
    simp [payload]

/-- The chunks of a message that is cut off deliver nothing. -/
theorem Receives.fold_cut (ht : Receives last take) (h : Cut last ks) (s : Assembler) :
    (ks.foldl take s).out = s.out := by
  cases h with
  | between => rfl
  | @inside k inner hfirst hlast hinner =>
    rw [List.foldl_cons, ht.first s k hfirst hlast, ht.fold_inner hinner]

theorem Receives.fold_messages (ht : Receives last take) {ms : List (Message × List Chunk)}
    (h : ∀ m ∈ ms, Split last m.1 m.2) (s : Assembler) :
    ((ms.flatMap Prod.snd).foldl take s).out = s.out ++ ms.map Prod.fst := by
  induction ms generalizing s with
  | nil => simp
  | cons m ms ih =>
    rw [List.flatMap_cons, List.foldl_append, ih fun r hr => h r (by simp [hr]),
      ht.fold_split (h m (by simp))]
    simp

/-- On the chunks of a connection a receiver completes its messages. -/
theorem Receives.fold_connection (ht : Receives last take) {conn : Connection}
    (h : conn.WellFormed last) (s : Assembler) :
    (conn.chunks.foldl take s).out = s.out ++ conn.messages.map Prod.fst := by
  rw [Connection.chunks, List.foldl_append, ht.fold_cut h.cut, ht.fold_messages h.split]

end

theorem Assembler.take_receives : Receives Chunk.last Assembler.take where
  whole s k hfirst hlast := by simp [take, hfirst, hlast]
  first s k hfirst hlast := by simp [take, hfirst, hlast]
  middle s k hfirst hlast := by simp [take, hfirst, hlast]
  final s k hfirst hlast := by simp [take, hfirst, hlast]

/-- Over any sequence of connections exactly the completed messages are
    delivered: a message cut off leaves no byte in a later one. -/
theorem Assembler.take_connections {conns : List Connection}
    (h : ∀ conn ∈ conns, conn.WellFormed Chunk.last) (s : Assembler) :
    ((conns.flatMap Connection.chunks).foldl Assembler.take s).out = s.out ++ completed conns := by
  induction conns generalizing s with
  | nil => simp [completed]
  | cons conn conns ih =>
    rw [List.flatMap_cons, List.foldl_append, ih fun r hr => h r (by simp [hr]),
      take_receives.fold_connection (h conn (by simp))]
    simp [completed]

/-- A message in two chunks. -/
theorem Split.pair {last : Chunk → Bool} {k l : Chunk} (hk : k.is_first_fragment = true ∧ last k = false)
    (hl : l.is_first_fragment = false ∧ last l = true) (hbinary : l.frame_is_binary = k.frame_is_binary) :
    Split last (payload [k, l], k.frame_is_binary) [k, l] := by
  have hinner : Inner last [] := by simp [Inner]
  exact .parts hk.1 hk.2 hinner hl.1 hl.2 (by simp [hbinary])

/-- A chunk of a text message that ends its frame. -/
def text_chunk (data : Data) (is_first is_final : Bool) : Chunk :=
  { data, is_first_fragment := is_first, is_final_fragment := is_final
    remaining_packet_payload := 0, frame_is_binary := false }

/-- `cd` in two chunks. -/
def two_chunks : List Chunk :=
  [text_chunk ⟨[99], one_byte⟩ true false, text_chunk ⟨[100], one_byte⟩ false true]

end lws_client
