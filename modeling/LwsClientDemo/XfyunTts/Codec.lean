import LwsClientDemo.Memory
import LwsClientDemo.Json

namespace lws_client.xfyun_tts

/-! Buffers are the bytes of a C object, and a result `none` means that the function has read or
    written outside one. Fresh objects hold zeros here: C leaves their bytes indeterminate, and
    none is read before it is written. -/

/-- The bytes of a string literal, without the NUL. -/
def literal (s : String) : List UInt8 := s.toList.map fun c => UInt8.ofNat c.toNat

/-- `char buf[n]`. -/
def buffer (n : Nat) : List UInt8 := List.replicate n 0

/-- The C string in an object. -/
def c_str (object : List UInt8) : Option (List UInt8) :=
  if 0 ∈ object then some (object.takeWhile (· ≠ 0)) else none

/-- `memcpy(out + j, bytes, …)`, also for a single byte. -/
def store (out : List UInt8) (j : Nat) (bytes : List UInt8) : Option (List UInt8) :=
  if j + bytes.length ≤ out.length then
    some (out.take j ++ (bytes ++ out.drop (j + bytes.length)))
  else none

/-- `strstr`, where a pointer into a string is the rest of the string. -/
def strstr (haystack needle : List UInt8) : Option (List UInt8) := json.search needle haystack

/-- `snprintf(out, outlen, …)` of a text and the number it returns. -/
def snprintf (out : List UInt8) (outlen : Nat) (text : List UInt8) : Option (List UInt8 × Int) := do
  let n : Int := if (text.length : Int) ≤ INT_MAX then text.length else -1
  if outlen = 0 then return (out, n)
  let out ← store out 0 (text.take (outlen - 1) ++ [0])
  return (out, n)

def isspace (c : UInt8) : Bool := c = 32 || (9 ≤ c && c ≤ 13)

def isdigit (c : UInt8) : Bool := 48 ≤ c && c ≤ 57

/-- `strtol`, base ten, of the digits. -/
def strtol_digits (digits : List UInt8) : Nat :=
  digits.foldl (fun v c => v * 10 + (c.toNat - 48)) 0

/-- `(int)` of what `strtol` returns, which stays within a `long`. -/
def int_of_long (n : Int) : Int := (max (-2 ^ 63) (min n (2 ^ 63 - 1))).bmod (2 ^ 32)

/-- `sscanf(p, "%d", &val)`: the number, if there is one. -/
def sscanf_d (p : List UInt8) : Option Int :=
  let p := p.dropWhile isspace
  let (minus, p) := match p with
    | 45 :: p => (true, p)
    | 43 :: p => (false, p)
    | p => (false, p)
  let digits := p.takeWhile isdigit
  if digits = [] then none
  else some (int_of_long (if minus then -strtol_digits digits else strtol_digits digits))

/-- The part of OpenSSL that is used: the letters of an encoded input, the bytes of a decoded one
    and whether it was accepted, the digest. -/
structure openssl where
  encode_block : List UInt8 → List UInt8
  decode_block : List UInt8 → List UInt8 × Bool
  hmac_sha256 : List UInt8 → List UInt8 → Option (List UInt8)

/-- `EVP_EncodeBlock(out, inp, n)` writes the letters and a NUL, and returns how many letters. -/
def EVP_EncodeBlock (ssl : openssl) (out inp : List UInt8) (n : Int) :
    Option (List UInt8 × Int) := do
  let out ← store out 0 (ssl.encode_block (inp.take n.toNat) ++ [0])
  return (out, int_of_size (ssl.encode_block (inp.take n.toNat)).length)

/-- `EVP_DecodeBlock(out, inp, n)` returns how many bytes it wrote, or -1. -/
def EVP_DecodeBlock (ssl : openssl) (out inp : List UInt8) (n : Int) :
    Option (List UInt8 × Int) := do
  let out ← store out 0 (ssl.decode_block (inp.take n.toNat)).1
  return (out, if (ssl.decode_block (inp.take n.toNat)).2 then
    int_of_size (ssl.decode_block (inp.take n.toNat)).1.length else -1)

def b64_encode (ssl : openssl) (inp out : List UInt8) (outlen : Nat) :
    Option (List UInt8 × Nat) := do
  let (out, n) ← EVP_EncodeBlock ssl out inp (int_of_size inp.length)
  if n < 0 ∨ outlen < size_of_int (n + 1) then return (out, 0)
  let out ← store out n.toNat [0]
  return (out, n.toNat)

/-- The letters `=` that end an input. -/
def pad (inp : List UInt8) : Nat :=
  (if 1 ≤ inp.length ∧ inp[inp.length - 1]? = some 61 then 1 else 0) +
    (if 2 ≤ inp.length ∧ inp[inp.length - 2]? = some 61 then 1 else 0)

def b64_decode (ssl : openssl) (inp out : List UInt8) (outlen : Nat) :
    Option (List UInt8 × Nat) := do
  if inp.length = 0 then return (out, 0)
  let (out, n) ← EVP_DecodeBlock ssl out inp (int_of_size inp.length)
  if n < 0 then return (out, 0)
  let decoded := if pad inp < n.toNat then n.toNat - pad inp else 0
  return (out, if decoded < outlen then decoded else outlen)

def hmac_sha256_b64 (ssl : openssl) (key data out : List UInt8) (outlen : Nat) :
    Option (List UInt8 × Int) := do
  let some digest := ssl.hmac_sha256 (key.take (int_of_size key.length).toNat)
    (data.take (int_of_size data.length).toNat) | return (out, -1)
  let digest' ← store (buffer 32) 0 digest
  let (out, n) ← b64_encode ssl (digest'.take digest.length) out outlen
  return (out, if 0 < n then 0 else -1)

def hex : List UInt8 := literal "0123456789ABCDEF"

/-- The letters that stand for themselves. -/
def unreserved (c : UInt8) : Bool :=
  (65 ≤ c && c ≤ 90) || (97 ≤ c && c ≤ 122) || (48 ≤ c && c ≤ 57) ||
    c = 45 || c = 95 || c = 46 || c = 126

/-- The loop of `url_encode`, from `in + i` on. -/
def url_encode_loop (outlen : Nat) : List UInt8 → Nat → List UInt8 → Option (Nat × List UInt8)
  -- `in[i]` is outside the object
  | [], _, _ => none
  | c :: inp, j, out =>
    if c = 0 ∨ ¬ size_add j 4 < outlen then some (j, out)
    else if unreserved c then do
      let out ← store out j [c]
      url_encode_loop outlen inp (j + 1) out
    else do
      let out ← store out j [37]
      let out ← store out (j + 1) [hex.getD (c >>> 4).toNat 0]
      let out ← store out (j + 2) [hex.getD (c &&& 0x0f).toNat 0]
      url_encode_loop outlen inp (j + 3) out

def url_encode (inp out : List UInt8) (outlen : Nat) : Option (List UInt8) := do
  let (j, out) ← url_encode_loop outlen inp 0 out
  store out j [0]

def TTS_SIG_HOST : List UInt8 := literal "ws-api.xfyun.cn"

def TTS_PATH : List UInt8 := literal "/v2/tts"

def TTS_AUE : List UInt8 := literal "raw"

def TTS_AUF : List UInt8 := literal "audio/L16;rate=16000"

def TTS_VCN : List UInt8 := literal "x4_yezi"

def TTS_TTE : List UInt8 := literal "utf8"

def STATUS_LAST_FRAME : Int := 2

/-- The text that is signed. -/
def sig_origin_text (date : List UInt8) : List UInt8 :=
  literal "host: " ++ TTS_SIG_HOST ++ literal "\ndate: " ++ date ++ literal "\nGET " ++ TTS_PATH ++
    literal " HTTP/1.1"

def auth_origin_text (api_key sig_b64 : List UInt8) : List UInt8 :=
  literal "api_key=\"" ++ api_key ++ literal "\", algorithm=\"hmac-sha256\", " ++
    literal "headers=\"host date request-line\", signature=\"" ++ sig_b64 ++ literal "\""

/-- `date` is what `rfc1123_now` writes. -/
def build_tts_path (ssl : openssl) (date api_key api_secret out : List UInt8) (outlen : Nat) :
    Option (List UInt8 × Int) := do
  let (sig_origin, _) ← snprintf (buffer 512) 512 (sig_origin_text date)
  let (sig_b64, failed) ← hmac_sha256_b64 ssl api_secret (← c_str sig_origin) (buffer 64) 64
  if failed ≠ 0 then return (out, -1)
  let (auth_origin, _) ← snprintf (buffer 384) 384 (auth_origin_text api_key (← c_str sig_b64))
  let (auth_b64, _) ← b64_encode ssl (← c_str auth_origin) (buffer 512) 512
  let auth_enc ← url_encode auth_b64 (buffer 768) 768
  let date_enc ← url_encode (date ++ [0]) (buffer 128) 128
  let host_enc ← url_encode (TTS_SIG_HOST ++ [0]) (buffer 64) 64
  let (out, n) ← snprintf out outlen (TTS_PATH ++ literal "?authorization=" ++ (← c_str auth_enc) ++
    literal "&date=" ++ (← c_str date_enc) ++ literal "&host=" ++ (← c_str host_enc))
  return (out, if 0 < n ∧ n < outlen then 0 else -1)

def request_text (appid text_b64 : List UInt8) : List UInt8 :=
  literal "\x7b" ++
    (literal "\"common\":\x7b\"app_id\":\"" ++ appid ++ literal "\"\x7d," ++
    (literal "\"business\":\x7b" ++
      (literal "\"aue\":\"" ++ TTS_AUE ++ literal "\"," ++
      (literal "\"auf\":\"" ++ TTS_AUF ++ literal "\"," ++
      (literal "\"vcn\":\"" ++ TTS_VCN ++ literal "\"," ++
      (literal "\"tte\":\"" ++ TTS_TTE ++ literal "\"")))) ++
    literal "\x7d," ++
    (literal "\"data\":\x7b\"status\":" ++ json.decimal STATUS_LAST_FRAME ++
      literal ",\"text\":\"" ++ text_b64 ++ literal "\"\x7d"))) ++
  literal "\x7d"

/-- `appid` and `text` are the strings, without their NUL. -/
def build_request_json (ssl : openssl) (appid text out : List UInt8) (outlen : Nat) :
    Option (List UInt8 × Int) := do
  let (text_b64, encoded) ← b64_encode ssl text (buffer 4096) 4096
  if encoded = 0 then return (out, -1)
  let (out, n) ← snprintf out outlen (request_text appid (← c_str text_b64))
  return (out, if 0 < n ∧ n < outlen then 0 else -1)

/-- The number, if `json_get_int` returns 1; `*val` is left alone otherwise. -/
def json_get_int (json key : List UInt8) : Option (Option Int) := do
  let (needle, _) ← snprintf (buffer 64) 64 (literal "\"" ++ key ++ literal "\":")
  let needle ← c_str needle
  match strstr (← c_str json) needle with
  | none => return none
  | some p => return sscanf_d ((p.drop needle.length).dropWhile (· = 32))

/-- `out` afterwards, and whether `json_get_str` returns 1. -/
def json_get_str (json key out : List UInt8) (outlen : Nat) : Option (List UInt8 × Bool) := do
  let (needle, _) ← snprintf (buffer 64) 64 (literal "\"" ++ key ++ literal "\":\"")
  let needle ← c_str needle
  let some p := strstr (← c_str json) needle | return (out, false)
  let p := p.drop needle.length
  let some len := p.findIdx? (· = 34) | return (out, false)
  let len := if outlen ≤ len then size_sub outlen 1 else len
  let out ← store out 0 (p.take len)
  let out ← store out len [0]
  return (out, true)

end lws_client.xfyun_tts
