import Mathlib.Data.List.Basic

namespace base64

/-- The letter of a six-bit value. -/
def digit (n : Nat) : UInt8 :=
  if n < 26 then UInt8.ofNat (65 + n)
  else if n < 52 then UInt8.ofNat (71 + n)
  else if n < 62 then UInt8.ofNat (n - 4)
  else if n = 62 then 43
  else 47

/-- The value of a letter. The padding letter counts as zero. -/
def value (c : UInt8) : Option Nat :=
  if 65 ≤ c ∧ c ≤ 90 then some (c.toNat - 65)
  else if 97 ≤ c ∧ c ≤ 122 then some (c.toNat - 71)
  else if 48 ≤ c ∧ c ≤ 57 then some (c.toNat + 4)
  else if c = 43 then some 62
  else if c = 47 then some 63
  else if c = 61 then some 0
  else none

/-- The 24 bits of three bytes, as four values of six bits. -/
def sextets (a b c : UInt8) : List Nat :=
  let n := (a.toNat * 256 + b.toNat) * 256 + c.toNat
  [n / 262144, n / 4096 % 64, n / 64 % 64, n % 64]

/-- The 24 bits of four values of six bits, as three bytes. -/
def bytes (w x y z : Nat) : List UInt8 :=
  let n := ((w * 64 + x) * 64 + y) * 64 + z
  [UInt8.ofNat (n / 65536), UInt8.ofNat (n / 256), UInt8.ofNat n]

def encode : List UInt8 → List UInt8
  | [] => []
  | [a] => ((sextets a 0 0).map digit).take 2 ++ [61, 61]
  | [a, b] => ((sextets a b 0).map digit).take 3 ++ [61]
  | a :: b :: c :: rest => (sextets a b c).map digit ++ encode rest

/-- Three bytes for every four letters, those of the padding included. -/
def decode : List UInt8 → Option (List UInt8)
  | [] => some []
  | w :: x :: y :: z :: rest => do
    let w ← value w
    let x ← value x
    let y ← value y
    let z ← value z
    let tail ← decode rest
    pure (bytes w x y z ++ tail)
  | _ => none

/-- The bytes missing from the last group of three. -/
def padding (length : Nat) : Nat := (3 - length % 3) % 3

variable {text rest : List UInt8} {a b c : UInt8}

theorem value_digit_of_fin : ∀ n : Fin 64, value (digit n) = some n.val := by decide +kernel

theorem digit_of_fin : ∀ n : Fin 64, digit n ≠ 0 ∧ digit n ≠ 34 ∧ digit n ≠ 61 := by decide +kernel

theorem value_digit {n : Nat} (h : n < 64) : value (digit n) = some n := value_digit_of_fin ⟨n, h⟩

theorem sextets_lt (a b c : UInt8) : ∀ n ∈ sextets a b c, n < 64 := by
  have ha := a.toNat_lt
  have hb := b.toNat_lt
  have hc := c.toNat_lt
  simp only [sextets, List.forall_mem_cons]
  refine ⟨by omega, by omega, by omega, by omega, by simp⟩

/-- The six-bit values of three bytes make up those bytes. -/
theorem bytes_sextets {w x y z : Nat} (h : sextets a b c = [w, x, y, z]) :
    bytes w x y z = [a, b, c] := by
  have ha := a.toNat_lt
  have hb := b.toNat_lt
  have hc := c.toNat_lt
  simp only [sextets, List.cons.injEq, and_true] at h
  obtain ⟨rfl, rfl, rfl, rfl⟩ := h
  simp only [bytes, List.cons.injEq, and_true]
  refine ⟨?_, ?_, ?_⟩ <;> apply UInt8.toNat_inj.mp <;> rw [UInt8.toNat_ofNat'] <;> omega

/-- A whole group is read back. -/
theorem decode_group :
    decode ((sextets a b c).map digit ++ rest) = (decode rest).map ([a, b, c] ++ ·) := by
  obtain ⟨w, x, y, z, hgroup⟩ : ∃ w x y z, sextets a b c = [w, x, y, z] := ⟨_, _, _, _, rfl⟩
  have hlt := sextets_lt a b c
  simp only [hgroup, List.forall_mem_cons] at hlt
  obtain ⟨hw, hx, hy, hz, _⟩ := hlt
  simp only [hgroup, List.map_cons, List.map_nil, List.cons_append, List.nil_append, decode,
    value_digit hw, value_digit hx, value_digit hy, value_digit hz, Option.bind_eq_bind,
    Option.bind_some, bytes_sextets hgroup]
  cases decode rest <;> rfl

/-- The padding of a group with one byte reads as the zero bits it stands for. -/
theorem decode_one : decode (encode [a]) = some [a, 0, 0] := by
  have hzero : (sextets a 0 0).map digit = ((sextets a 0 0).map digit).take 2 ++ [65, 65] := by
    have hlow : a.toNat * 256 * 256 / 64 % 64 = 0 ∧ a.toNat * 256 * 256 % 64 = 0 := by omega
    simp only [sextets, UInt8.toNat_zero, Nat.add_zero, hlow, List.map_cons, List.map_nil,
      List.take_succ_cons, List.take_zero, List.cons_append, List.nil_append]
    rfl
  have hgroup : decode ((sextets a 0 0).map digit ++ []) = some [a, 0, 0] := decode_group
  rw [List.append_nil, hzero] at hgroup
  exact hgroup

theorem decode_two : decode (encode [a, b]) = some [a, b, 0] := by
  have hzero : (sextets a b 0).map digit = ((sextets a b 0).map digit).take 3 ++ [65] := by
    have hlow : (a.toNat * 256 + b.toNat) * 256 % 64 = 0 := by omega
    simp only [sextets, UInt8.toNat_zero, Nat.add_zero, hlow, List.map_cons, List.map_nil,
      List.take_succ_cons, List.take_zero, List.cons_append, List.nil_append]
    rfl
  have hgroup : decode ((sextets a b 0).map digit ++ []) = some [a, b, 0] := decode_group
  rw [List.append_nil, hzero] at hgroup
  exact hgroup

theorem padding_add_three {n : Nat} : padding (n + 3) = padding n := by
  rw [padding, Nat.add_mod_right, padding]

/-- What is encoded is read back, with a zero byte for each byte missing from the last group. -/
theorem decode_encode (text : List UInt8) :
    decode (encode text) = some (text ++ List.replicate (padding text.length) 0) := by
  induction text using encode.induct with
  | case1 => rfl
  | case2 a => exact decode_one
  | case3 a b => exact decode_two
  | case4 a b c rest ih =>
    have hpadding : padding (a :: b :: c :: rest).length = padding rest.length := padding_add_three
    rw [encode, decode_group, ih, hpadding]
    rfl

theorem encode_length (text : List UInt8) : (encode text).length = 4 * ((text.length + 2) / 3) := by
  induction text using encode.induct with
  | case1 => rfl
  | case2 a => simp [encode, sextets]
  | case3 a b => simp [encode, sextets]
  | case4 a b c rest ih =>
    simp only [encode, sextets, List.length_append, List.length_map, List.length_cons,
      List.length_nil, ih]
    omega

/-- Three bytes for every four letters. -/
theorem decode_length {bytes : List UInt8} (h : decode text = some bytes) :
    bytes.length = text.length / 4 * 3 := by
  induction text using decode.induct generalizing bytes with
  | case1 =>
    cases h
    rfl
  | case2 w x y z rest ih =>
    simp only [decode, Option.bind_eq_bind, Option.bind_eq_some_iff] at h
    obtain ⟨_, _, _, _, _, _, _, _, tail, htail, hbytes⟩ := h
    cases hbytes
    have hlength := ih htail
    simp only [base64.bytes, List.length_append, List.length_cons, List.length_nil, hlength]
    omega
  | case3 text hempty hgroup => simp [decode] at h

theorem mem_group {letter : UInt8} (h : letter ∈ (sextets a b c).map digit) :
    ∃ n < 64, letter = digit n := by
  obtain ⟨n, hn, rfl⟩ := List.mem_map.mp h
  exact ⟨n, sextets_lt a b c n hn, rfl⟩

/-- An encoded text is made of letters and padding. -/
theorem mem_encode (hc : c ∈ encode text) : c = 61 ∨ ∃ n < 64, c = digit n := by
  induction text using encode.induct with
  | case1 => simp [encode] at hc
  | case2 a =>
    rcases List.mem_append.mp hc with hc | hc
    · exact .inr (mem_group (List.mem_of_mem_take hc))
    · exact .inl (by simpa using hc)
  | case3 a b =>
    rcases List.mem_append.mp hc with hc | hc
    · exact .inr (mem_group (List.mem_of_mem_take hc))
    · exact .inl (by simpa using hc)
  | case4 a b c rest ih =>
    rcases List.mem_append.mp hc with hc | hc
    · exact .inr (mem_group hc)
    · exact ih hc

theorem notMem_encode (hpad : c ≠ 61) (hletter : ∀ n < 64, digit n ≠ c) : c ∉ encode text := by
  intro hc
  obtain heq | ⟨n, hn, hdigit⟩ := mem_encode hc
  · exact hpad heq
  · exact hletter n hn hdigit.symm

/-- Neither NUL nor a quotation mark is among the letters. -/
theorem encode_plain (text : List UInt8) : 0 ∉ encode text ∧ 34 ∉ encode text :=
  ⟨notMem_encode (by decide) fun n hn => (digit_of_fin ⟨n, hn⟩).1,
    notMem_encode (by decide) fun n hn => (digit_of_fin ⟨n, hn⟩).2.1⟩

/-- The padding shows in the last letter, and in the one before it. -/
theorem encode_last (htext : text ≠ []) :
    ((encode text)[(encode text).length - 1]? = some 61 ↔ 1 ≤ padding text.length) ∧
      ((encode text)[(encode text).length - 2]? = some 61 ↔ 2 ≤ padding text.length) := by
  have hletter (n : Nat) (hn : n < 64) : digit n ≠ 61 := (digit_of_fin ⟨n, hn⟩).2.2
  induction text using encode.induct with
  | case1 => exact absurd rfl htext
  | case2 a => simp [encode, sextets, padding]
  | case3 a b =>
    simpa [encode, sextets, padding] using hletter _ (Nat.mod_lt _ (by decide))
  | case4 a b c rest ih =>
    have hpadding : padding (a :: b :: c :: rest).length = padding rest.length := padding_add_three
    have hgroup : ((sextets a b c).map digit).length = 4 := rfl
    rw [hpadding, encode, List.length_append, hgroup]
    by_cases hrest : rest = []
    · subst hrest
      simpa [encode, sextets, padding] using
        ⟨hletter _ (Nat.mod_lt _ (by decide)), hletter _ (Nat.mod_lt _ (by decide))⟩
    · have hpos : 4 ≤ (encode rest).length := by
        have := List.length_pos_iff.mpr hrest
        rw [encode_length]
        omega
      rw [List.getElem?_append_right (by omega), List.getElem?_append_right (by omega), hgroup,
        show 4 + (encode rest).length - 1 - 4 = (encode rest).length - 1 by omega,
        show 4 + (encode rest).length - 2 - 4 = (encode rest).length - 2 by omega]
      exact ih hrest

end base64
