import LwsClientDemo.Base64
import LwsClientDemo.XfyunTts.Fields

namespace lws_client.xfyun_tts

/-- What the manual of OpenSSL says of the functions that are used. -/
structure openssl.Documented (ssl : openssl) : Prop where
  encode : ∀ text, ssl.encode_block text = base64.encode text
  /-- The padding of an encoded text gives zero bytes. -/
  decode : ∀ text bytes, base64.decode (base64.encode text) = some bytes →
    ssl.decode_block (base64.encode text) = (bytes, true)
  /-- Three bytes at most for every four letters, also where the input is refused. -/
  decode_length : ∀ text, (ssl.decode_block text).1.length ≤ text.length / 4 * 3
  digest_length : ∀ key data digest, ssl.hmac_sha256 key data = some digest → digest.length = 32

/-- OpenSSL as far as base64 goes, with one digest for every input. -/
def openssl.reference (digest : List UInt8) : openssl where
  encode_block := base64.encode
  decode_block text :=
    match base64.decode text with
    | some bytes => (bytes, true)
    | none => ([], false)
  hmac_sha256 _ _ := some digest

theorem openssl.reference_documented {digest : List UInt8} (h : digest.length = 32) :
    (reference digest).Documented where
  encode _ := rfl
  decode text bytes hdecode := by simp [reference, hdecode]
  decode_length text := by
    simp only [reference]
    cases hdecode : base64.decode text with
    | none => exact Nat.zero_le _
    | some bytes => exact (base64.decode_length hdecode).le
  digest_length key data digest' hdigest := by
    cases hdigest
    exact h

/-- What `(int)` leaves of an input that is passed with its length. -/
def passed (inp : List UInt8) : List UInt8 := inp.take (int_of_size inp.length).toNat

/-- The bytes `b64_decode` keeps. -/
def decoded (ssl : openssl) (inp : List UInt8) : List UInt8 :=
  if (ssl.decode_block (passed inp)).2 = true then
    (ssl.decode_block (passed inp)).1.take
      ((ssl.decode_block (passed inp)).1.length - pad inp)
  else []

variable {ssl : openssl} {inp out text bytes : List UInt8} {outlen : Nat}

theorem int_of_size_eq {n : Nat} (h : (n : Int) ≤ INT_MAX) : int_of_size n = n := by
  simp only [INT_MAX] at h
  exact Int.bmod_eq_of_le (by omega) (by omega)

theorem int_of_size_le (n : Nat) : int_of_size n ≤ n := by
  unfold int_of_size
  generalize 2 ^ 32 = m
  have hmod : (n : Int) % (m : Int) ≤ n := by
    rw [← Int.natCast_mod]
    exact Int.ofNat_le.mpr (Nat.mod_le _ _)
  rw [Int.bmod_def]
  split <;> omega

theorem passed_length : (passed inp).length = (int_of_size inp.length).toNat := by
  have := int_of_size_le inp.length
  rw [passed, List.length_take]
  omega

theorem passed_length_le (inp : List UInt8) : ((passed inp).length : Int) ≤ INT_MAX := by
  have hle : int_of_size inp.length ≤ INT_MAX := by
    have hmod : int_of_size inp.length ≤ ((2 ^ 32 : Nat) - 1 : Int) / 2 := Int.bmod_le (by decide)
    exact hmod.trans (by decide)
  have hnonneg : 0 ≤ INT_MAX := by decide
  rw [passed_length]
  omega

theorem passed_eq (h : (inp.length : Int) ≤ INT_MAX) : passed inp = inp := by
  rw [passed, int_of_size_eq h, Int.toNat_natCast, List.take_length]

theorem size_of_int_succ {n : Nat} (h : (n : Int) ≤ INT_MAX) : size_of_int (n + 1) = n + 1 := by
  simp only [INT_MAX, size_of_int] at h ⊢
  omega

theorem store_letters {letters : List UInt8} (hroom : letters.length < out.length) :
    store out 0 (letters ++ [0]) = some (letters ++ 0 :: out.drop (letters.length + 1)) := by
  rw [store_eq (by simp only [List.length_append, List.length_singleton]; omega)]
  simp

theorem b64_encode_of_block {letters : List UInt8}
    (hblock : EVP_EncodeBlock ssl out inp (int_of_size inp.length) =
      some (letters ++ 0 :: text, (letters.length : Int)))
    (hle : (letters.length : Int) ≤ INT_MAX) (hroom : letters.length < outlen) :
    b64_encode ssl inp out outlen = some (letters ++ 0 :: text, letters.length) := by
  have hnot : ¬ ((letters.length : Int) < 0 ∨
      outlen < size_of_int ((letters.length : Int) + 1)) := by
    rw [size_of_int_succ hle]
    omega
  rw [b64_encode, hblock, Option.bind_eq_bind, Option.bind_some]
  refine (if_neg hnot).trans ?_
  rw [Int.toNat_natCast, store_append rfl (by simp)]
  simp

/-- With room for the letters and the NUL, both are in the buffer afterwards. -/
theorem b64_encode_fits (hssl : ssl.Documented) (hout : out.length = outlen)
    (hmax : (outlen : Int) ≤ INT_MAX) (hroom : (base64.encode (passed inp)).length < outlen) :
    ∃ rest, b64_encode ssl inp out outlen =
      some (base64.encode (passed inp) ++ 0 :: rest, (base64.encode (passed inp)).length) := by
  have hle : ((base64.encode (passed inp)).length : Int) ≤ INT_MAX :=
    (Int.ofNat_le.mpr hroom.le).trans hmax
  refine ⟨out.drop ((base64.encode (passed inp)).length + 1), b64_encode_of_block ?_ hle hroom⟩
  rw [← hout] at hroom
  rw [EVP_EncodeBlock, ← passed, hssl.encode, store_letters hroom, int_of_size_eq hle]
  rfl

/-- The letters are written before the room is compared: a text that is too long for the buffer
    is found out when the buffer has been overrun. -/
theorem b64_encode_overruns (hssl : ssl.Documented)
    (hroom : out.length ≤ (base64.encode (passed inp)).length) :
    b64_encode ssl inp out outlen = none := by
  have hblock : EVP_EncodeBlock ssl out inp (int_of_size inp.length) = none := by
    rw [EVP_EncodeBlock, ← passed, hssl.encode, store, if_neg]
    · rfl
    · rw [List.length_append, List.length_singleton]
      omega
  rw [b64_encode, hblock]
  rfl

theorem b64_decode_of_block {rest : List UInt8}
    (hblock : EVP_DecodeBlock ssl out inp (int_of_size inp.length) =
      some (bytes ++ rest, (bytes.length : Int)))
    (hne : inp ≠ []) (hroom : bytes.length ≤ outlen) :
    b64_decode ssl inp out outlen = some (bytes ++ rest, bytes.length - pad inp) := by
  have hempty : ¬ inp.length = 0 := by simpa using hne
  have hkept : (if pad inp < bytes.length then bytes.length - pad inp else 0) =
      bytes.length - pad inp := by
    split <;> omega
  have hclamp : (if bytes.length - pad inp < outlen then bytes.length - pad inp else outlen) =
      bytes.length - pad inp := by
    split <;> omega
  rw [b64_decode, if_neg hempty, hblock, Option.bind_eq_bind, Option.bind_some]
  refine (if_neg (Int.not_lt.mpr (Int.natCast_nonneg _))).trans ?_
  rw [Int.toNat_natCast, hkept]
  exact congrArg (fun n => some (bytes ++ rest, n)) hclamp

theorem b64_decode_refused {rest : List UInt8}
    (hblock : EVP_DecodeBlock ssl out inp (int_of_size inp.length) = some (rest, -1))
    (hne : inp ≠ []) : b64_decode ssl inp out outlen = some (rest, 0) := by
  have hempty : ¬ inp.length = 0 := by simpa using hne
  rw [b64_decode, if_neg hempty, hblock, Option.bind_eq_bind, Option.bind_some]
  rfl

/-- `b64_decode` stays inside a buffer with room for three bytes of every four letters. -/
theorem b64_decode_spec (hssl : ssl.Documented) (hne : inp ≠ [])
    (hroom : inp.length / 4 * 3 ≤ out.length) :
    ∃ rest, b64_decode ssl inp out out.length =
      some (decoded ssl inp ++ rest, (decoded ssl inp).length) := by
  have hlength := hssl.decode_length (passed inp)
  have hpassed : (passed inp).length / 4 ≤ inp.length / 4 := by
    refine Nat.div_le_div_right ?_
    rw [passed, List.length_take]
    omega
  have hfits : 0 + (ssl.decode_block (passed inp)).1.length ≤ out.length := by omega
  cases hblock : ssl.decode_block (passed inp) with
  | mk bytes ok =>
    rw [hblock] at hlength hfits
    simp only at hlength hfits
    have hstore : store out 0 bytes = some (bytes ++ out.drop bytes.length) := by
      rw [store_eq hfits, List.take_zero, List.nil_append, Nat.zero_add]
    rw [decoded, hblock]
    cases ok with
    | false =>
      refine ⟨bytes ++ out.drop bytes.length, b64_decode_refused ?_ hne⟩
      rw [EVP_DecodeBlock, ← passed, hblock, hstore]
      rfl
    | true =>
      have hle : (bytes.length : Int) ≤ INT_MAX := by
        have hmax := passed_length_le inp
        omega
      have hwritten : EVP_DecodeBlock ssl out inp (int_of_size inp.length) =
          some (bytes ++ out.drop bytes.length, (bytes.length : Int)) := by
        rw [EVP_DecodeBlock, ← passed, hblock, hstore, int_of_size_eq hle]
        rfl
      have hin : bytes.length ≤ out.length := by omega
      refine ⟨bytes.drop (bytes.length - pad inp) ++ out.drop bytes.length, ?_⟩
      rw [b64_decode_of_block hwritten hne hin, if_pos rfl, ← List.append_assoc,
        List.take_append_drop, List.length_take, Nat.min_eq_left (Nat.sub_le _ _)]

/-- The bytes of an encoded text come back, without those of the padding. -/
theorem decoded_encode (hssl : ssl.Documented) (htext : text ≠ [])
    (hmax : ((base64.encode text).length : Int) ≤ INT_MAX) :
    decoded ssl (base64.encode text) = text := by
  have hblock := hssl.decode text _ (base64.decode_encode text)
  obtain ⟨hlast, hbefore⟩ := base64.encode_last htext
  have hlen : 4 ≤ (base64.encode text).length := by
    have := List.length_pos_iff.mpr htext
    rw [base64.encode_length]
    omega
  have hpad : pad (base64.encode text) = base64.padding text.length := by
    have hle : base64.padding text.length ≤ 2 := by
      rw [base64.padding]
      omega
    simp only [pad, hlast, hbefore, show 1 ≤ (base64.encode text).length by omega,
      show 2 ≤ (base64.encode text).length by omega, true_and]
    split <;> split <;> omega
  rw [decoded, passed_eq hmax, hblock, if_pos rfl, hpad]
  simp

end lws_client.xfyun_tts
