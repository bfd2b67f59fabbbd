import LwsClientDemo.PercentEncoding
import LwsClientDemo.XfyunTts.Codec

namespace lws_client.xfyun_tts

variable {out inp bytes text object key : List UInt8} {j n outlen : Nat}

theorem buffer_length {n : Nat} : (buffer n).length = n := List.length_replicate

theorem store_eq (h : j + bytes.length ≤ out.length) :
    store out j bytes = some (out.take j ++ (bytes ++ out.drop (j + bytes.length))) :=
  if_pos h

/-- A write right after what has been written before. -/
theorem store_append {word rest : List UInt8} (hj : j = word.length)
    (h : bytes.length ≤ rest.length) :
    store (word ++ rest) j bytes = some (word ++ bytes ++ rest.drop bytes.length) := by
  subst hj
  rw [store_eq (by simp only [List.length_append]; omega), List.take_left' rfl, ← List.drop_drop,
    List.drop_left' rfl, List.append_assoc]

theorem c_str_append (h : 0 ∉ text) (rest : List UInt8) :
    c_str (text ++ 0 :: rest) = some text := by
  have htake : (text ++ 0 :: rest).takeWhile (· ≠ 0) = text := by
    rw [List.takeWhile_append_of_pos fun c hc => by simpa using ne_of_mem_of_not_mem hc h]
    simp
  rw [c_str, if_pos (by simp), htake]

/-- An object with a C string in it. -/
theorem c_str_eq_some (h : c_str object = some text) :
    0 ∉ text ∧ ∃ rest, object = text ++ 0 :: rest := by
  have hmem : 0 ∈ object := by
    by_contra hnot
    rw [c_str, if_neg hnot] at h
    cases h
  obtain ⟨before, rest, rfl, hbefore⟩ := List.eq_append_cons_of_mem hmem
  rw [c_str_append hbefore] at h
  cases h
  exact ⟨hbefore, rest, rfl⟩

theorem hex_of_fin : ∀ i : Fin 256,
    hex.getD (UInt8.ofFin i >>> 4).toNat 0 = percent_encoding.hexDigit (UInt8.ofFin i >>> 4) ∧
      hex.getD (UInt8.ofFin i &&& 0x0f).toNat 0 = percent_encoding.hexDigit (UInt8.ofFin i &&& 15) ∧
      unreserved (percent_encoding.hexDigit (UInt8.ofFin i >>> 4)) = true ∧
      unreserved (percent_encoding.hexDigit (UInt8.ofFin i &&& 15)) = true := by
  decide +kernel

open percent_encoding in
/-- A turn of the loop writes what stands for the next letter. -/
theorem url_encode_loop_step {c : UInt8} {word rest : List UInt8} (hc : c ≠ 0)
    (hroom : size_add word.length 4 < outlen) (hrest : 3 ≤ rest.length) :
    url_encode_loop outlen (c :: inp) word.length (word ++ rest) =
      url_encode_loop outlen inp (word ++ unit unreserved c).length
        (word ++ unit unreserved c ++ rest.drop (unit unreserved c).length) := by
  have hgo : ¬ (c = 0 ∨ ¬ size_add word.length 4 < outlen) := by
    rintro (h | h)
    · exact hc h
    · exact h hroom
  rw [url_encode_loop, if_neg hgo, unit]
  split
  · next hkept =>
    rw [store_append rfl (by simpa using Nat.le_trans (by decide) hrest)]
    simp
  · next hkept =>
    obtain ⟨hhigh, hlow, _, _⟩ := hex_of_fin c.toFin
    simp only [UInt8.ofFin_toFin] at hhigh hlow
    have hone : 1 ≤ rest.length := Nat.le_trans (by decide) hrest
    have htwo : 1 ≤ (rest.drop 1).length := by
      rw [List.length_drop]
      omega
    have hthree : 1 ≤ ((rest.drop 1).drop 1).length := by
      rw [List.length_drop, List.length_drop]
      omega
    simp only [hhigh, hlow, Option.bind_eq_bind]
    rw [store_append rfl (by simpa using hone), Option.bind_some,
      store_append (by simp) (by simpa using htwo), Option.bind_some,
      store_append (by simp) (by simpa using hthree), Option.bind_some]
    simp [escape]

open percent_encoding in
/-- The loop stops after the longest part of the string for which there was room. -/
theorem url_encode_loop_spec {s word rest : List UInt8} (hs : 0 ∉ s)
    (htotal : (word ++ rest).length ≤ PTRDIFF_MAX) (hrest : 0 < rest.length)
    (junk : List UInt8) :
    ∃ k ≤ s.length,
      url_encode_loop (word ++ rest).length (s ++ 0 :: junk) word.length (word ++ rest) =
        some ((word ++ encode unreserved (s.take k)).length,
          word ++ encode unreserved (s.take k) ++
            rest.drop (encode unreserved (s.take k)).length) ∧
      (encode unreserved (s.take k)).length < rest.length ∧
      (k < s.length → rest.length ≤ (encode unreserved (s.take k)).length + 4) ∧
      ∀ i < k, (encode unreserved (s.take i)).length + 4 < rest.length := by
  induction s generalizing word rest with
  | nil => exact ⟨0, by simp, by simp [url_encode_loop, encode], by simpa [encode] using hrest,
      by simp, by simp⟩
  | cons c s ih =>
    simp only [List.mem_cons, not_or] at hs
    obtain ⟨hc, hs⟩ := hs
    have hsize : size_add word.length 4 = word.length + 4 := by
      have hmax : PTRDIFF_MAX < 2 ^ 63 := by decide
      apply size_add_of_lt
      simp only [List.length_append] at htotal
      omega
    by_cases hroom : word.length + 4 < (word ++ rest).length
    · have hfour : 4 < rest.length := by
        simp only [List.length_append] at hroom
        omega
      have hunit : (unit unreserved c).length ≤ 3 := unit_length_le
      have hlength : (word ++ unit unreserved c ++ rest.drop (unit unreserved c).length).length =
          (word ++ rest).length := by
        simp only [List.length_append, List.length_drop]
        omega
      have hleft : 0 < (rest.drop (unit unreserved c).length).length := by
        rw [List.length_drop]
        omega
      obtain ⟨k, hk, hloop, hfits, hstop, hbefore⟩ := ih hs (hlength.trans_le htotal) hleft
      rw [hlength] at hloop
      have hencode (i : Nat) : encode unreserved ((c :: s).take (i + 1)) =
          unit unreserved c ++ encode unreserved (s.take i) := by
        simp [encode]
      simp only [List.length_drop] at hfits hstop hbefore
      refine ⟨k + 1, by simpa using hk, ?_, ?_, ?_, ?_⟩
      · rw [List.cons_append, url_encode_loop_step (Ne.symm hc) (by omega) (by omega), hloop,
          hencode]
        simp [List.drop_drop]
      · rw [hencode, List.length_append]
        omega
      · intro hlt
        have := hstop (by simpa using hlt)
        rw [hencode, List.length_append]
        omega
      · intro i hi
        cases i with
        | zero => simpa [encode] using hfour
        | succ i =>
          have := hbefore i (by omega)
          rw [hencode, List.length_append]
          omega
    · refine ⟨0, by simp, ?_, by simpa [encode] using hrest, ?_, by simp⟩
      · rw [List.cons_append, url_encode_loop, if_pos (.inr (by omega))]
        simp [encode]
      · intro _
        simp only [List.length_append] at hroom
        simp only [List.take_zero, encode, List.flatMap_nil, List.length_nil]
        omega

open percent_encoding in
/-- `url_encode` writes the encoding of a part of the string and its NUL, and nothing after it. -/
theorem url_encode_spec {s : List UInt8} (hinp : c_str inp = some s) (hout : 0 < out.length)
    (hmax : out.length ≤ PTRDIFF_MAX) :
    ∃ k ≤ s.length,
      url_encode inp out out.length = some (encode unreserved (s.take k) ++
        0 :: out.drop ((encode unreserved (s.take k)).length + 1)) ∧
      (encode unreserved (s.take k)).length < out.length ∧
      (k < s.length → out.length ≤ (encode unreserved (s.take k)).length + 4) ∧
      ∀ i < k, (encode unreserved (s.take i)).length + 4 < out.length := by
  obtain ⟨hs, junk, rfl⟩ := c_str_eq_some hinp
  obtain ⟨k, hk, hloop, hfits, hstop, hbefore⟩ :=
    url_encode_loop_spec hs (show ([] ++ out).length ≤ PTRDIFF_MAX from hmax) hout junk
  refine ⟨k, hk, ?_, hfits, hstop, hbefore⟩
  simp only [List.nil_append, List.length_nil] at hloop
  have hroom : ([0] : List UInt8).length ≤
      (out.drop (encode unreserved (s.take k)).length).length := by
    rw [List.length_drop, List.length_singleton]
    omega
  have hlast := store_append (Eq.refl (encode unreserved (s.take k)).length) hroom
  simpa [url_encode, hloop, List.drop_drop] using hlast

open percent_encoding in
/-- A parameter of the path is encoded into a buffer of its own. -/
theorem url_encode_buffer {s : List UInt8} (hinp : c_str inp = some s) (hpos : 0 < n)
    (hmax : n ≤ PTRDIFF_MAX) :
    ∃ k ≤ s.length, ∃ rest,
      url_encode inp (buffer n) n = some (encode unreserved (s.take k) ++ 0 :: rest) ∧
      (encode unreserved (s.take k)).length < n ∧
      (k < s.length → n ≤ (encode unreserved (s.take k)).length + 4) ∧
      ∀ i < k, (encode unreserved (s.take i)).length + 4 < n := by
  have hlength : (buffer n).length = n := buffer_length
  obtain ⟨k, hk, hrun, hfits, hstop, hbefore⟩ :=
    url_encode_spec hinp (hpos.trans_eq hlength.symm) (hlength.trans_le hmax)
  rw [hlength] at hrun hfits hstop hbefore
  exact ⟨k, hk, _, hrun, hfits, hstop, hbefore⟩

open percent_encoding in
/-- The part that is written is the whole string exactly if the letters before the last leave
    room for one more. -/
theorem whole_iff {s : List UInt8} {k : Nat} (hk : k ≤ s.length)
    (hstop : k < s.length → n ≤ (encode unreserved (s.take k)).length + 4)
    (hbefore : ∀ i < k, (encode unreserved (s.take i)).length + 4 < n) :
    k = s.length ↔ s = [] ∨ (encode unreserved s.dropLast).length + 4 < n := by
  refine ⟨fun hwhole => ?_, ?_⟩
  · by_cases hempty : s = []
    · exact .inl hempty
    · have hlast := hbefore (s.length - 1) (by have := List.length_pos_iff.mpr hempty; omega)
      rw [← List.dropLast_eq_take] at hlast
      exact .inr hlast
  · rintro (rfl | hlast)
    · simpa using hk
    · by_contra hne
      have hlt : k < s.length := by omega
      have hpart : s.take k = s.dropLast.take k := by
        rw [List.dropLast_eq_take, List.take_take, Nat.min_eq_left (by omega)]
      have hle : (encode unreserved (s.take k)).length ≤ (encode unreserved s.dropLast).length := by
        rw [hpart]
        exact encode_length_prefix k
      have := hstop hlt
      omega

open percent_encoding in
/-- What stands in an encoded text needs no further escape. -/
theorem mem_encode_unreserved {c : UInt8} (hc : c ∈ encode unreserved bytes) :
    unreserved c = true ∨ c = 37 := by
  obtain ⟨b, -, hb⟩ := List.mem_flatMap.mp hc
  rw [unit] at hb
  split at hb
  · next hkept =>
    obtain rfl := List.mem_singleton.mp hb
    exact .inl hkept
  · obtain ⟨_, _, hhigh, hlow⟩ := hex_of_fin b.toFin
    simp only [UInt8.ofFin_toFin] at hhigh hlow
    simp only [escape, List.mem_cons, List.not_mem_nil, or_false] at hb
    rcases hb with rfl | rfl | rfl
    · exact .inr rfl
    · exact .inl hhigh
    · exact .inl hlow

open percent_encoding in
theorem decode_unreserved (bytes : List UInt8) : decode (encode unreserved bytes) = some bytes :=
  decode_encode (by decide)

open percent_encoding in
/-- `url_encode` stays inside its buffer, and what it leaves there decodes to the string, or to
    the part of it for which there was room. An escape is never cut. -/
theorem url_encode_reversible {s : List UInt8} (hinp : c_str inp = some s) (hout : 0 < out.length)
    (hmax : out.length ≤ PTRDIFF_MAX) :
    ∃ k ≤ s.length, ∃ out' text,
      url_encode inp out out.length = some out' ∧ c_str out' = some text ∧
      decode text = some (s.take k) ∧ (∀ c ∈ text, unreserved c = true ∨ c = 37) ∧
      out'.drop (text.length + 1) = out.drop (text.length + 1) ∧
      (k < s.length → out.length ≤ text.length + 4) ∧
      (k = s.length ↔ s = [] ∨ (encode unreserved s.dropLast).length + 4 < out.length) := by
  obtain ⟨k, hk, hrun, hfits, hstop, hbefore⟩ := url_encode_spec hinp hout hmax
  refine ⟨k, hk, _, _, hrun, c_str_append (zero_notMem_encode (by decide)) _, decode_unreserved _,
    fun c => mem_encode_unreserved, ?_, hstop, whole_iff hk hstop hbefore⟩
  rw [List.append_cons, List.drop_left' (by simp)]

open percent_encoding in
/-- A buffer of five bytes takes one letter of `a b`. -/
theorem url_encode_reversible_short :
    ∃ k ≤ 3, ∃ out' text,
      url_encode [97, 32, 98, 0] [1, 1, 1, 1, 1] 5 = some out' ∧ c_str out' = some text ∧
      decode text = some ([97, 32, 98].take k) ∧ (∀ c ∈ text, unreserved c = true ∨ c = 37) ∧
      out'.drop (text.length + 1) = [1, 1, 1, 1, 1].drop (text.length + 1) ∧
      (k < 3 → 5 ≤ text.length + 4) ∧
      (k = 3 ↔ [97, 32, 98] = ([] : List UInt8) ∨
        (encode unreserved [97, 32]).length + 4 < 5) :=
  url_encode_reversible (show c_str [97, 32, 98, 0] = some [97, 32, 98] by decide)
    (show 0 < [1, 1, 1, 1, 1].length by decide) (by decide)

end lws_client.xfyun_tts
