import ContainerdRs.Cri.Spdy.ReadLoop

/-!
# Accepted streams and status payloads

What the handlers behind SPDY read off an accepted stream (its Kubernetes `streamType` and `port`)
and the `metav1.Status` texts they answer with on the error stream.
-/

set_option autoImplicit false

namespace ContainerdRs.Cri.Spdy

/-- `HEADER_STREAM_TYPE`. -/
def headerStreamType : String := "streamType"

/-- `HEADER_PORT`. -/
def headerPort : String := "port"

/-- The values of the `streamType` header. -/
def stError : String := "error"
def stStdin : String := "stdin"
def stStdout : String := "stdout"
def stStderr : String := "stderr"
def stResize : String := "resize"

/-- `spdy::header`: the first entry of that name, whatever its case. -/
def header (headers : Headers) (name : String) : Option String :=
  (headers.find? fun entry => toAsciiLowercase entry.1 == toAsciiLowercase name).map Prod.snd

/-- `str::parse::<u16>`: decimal digits, perhaps behind a plus sign. -/
def parseU16 (s : String) : Option UInt16 :=
  let digits :=
    match s.toList with
    | '+' :: rest => rest
    | chars => chars
  let value := Nat.ofDigitChars 10 digits 0
  if digits ≠ [] ∧ digits.all Char.isDigit = true ∧ value < 2 ^ 16 then some (UInt16.ofNat value)
  else none

/-- `SpdyWriter::send_data`. -/
def sendData (id : UInt32) (fin : Bool) (data : Bytes) : Frame :=
  .data id (if fin then flagFin else 0) data

/-- The buffer of a task that reads for a client. -/
def bufSize : Nat := 8192

/-! ## Status payloads -/

/-- One character of a string, as `serde_json` writes it. -/
def escapeChar (c : Char) : List Char :=
  if c = '"' then ['\\', '"']
  else if c = '\\' then ['\\', '\\']
  else if c.toNat = 0x08 then ['\\', 'b']
  else if c.toNat = 0x09 then ['\\', 't']
  else if c.toNat = 0x0a then ['\\', 'n']
  else if c.toNat = 0x0c then ['\\', 'f']
  else if c.toNat = 0x0d then ['\\', 'r']
  else if c.toNat < 0x20 then
    ['\\', 'u', '0', '0', Nat.digitChar (c.toNat / 16), Nat.digitChar (c.toNat % 16)]
  else [c]

/-- A JSON string. -/
def jsonString (s : String) : String :=
  "\"" ++ String.ofList (s.toList.flatMap escapeChar) ++ "\""

/-- `status_success`. -/
def statusSuccess : Bytes := asBytes "\x7b\"status\":\"Success\"\x7d"

/-- `status_failure`; `serde_json` keeps the keys of an object sorted. -/
def statusFailure (msg : String) : Bytes :=
  asBytes ("\x7b\"message\":" ++ jsonString msg ++ ",\"status\":\"Failure\"\x7d")

/-- `status_exit`. -/
def statusExit (code : Int) : Bytes :=
  if code = 0 then statusSuccess
  else asBytes ("\x7b\"details\":\x7b\"causes\":[\x7b\"message\":" ++ jsonString (toString code) ++
    ",\"reason\":\"ExitCode\"\x7d]\x7d,\"reason\":\"NonZeroExitCode\",\"status\":\"Failure\"\x7d")

example : asBytes ("\x7b\"message\":\"a\\\"b\",\"status\":\"Failure\"\x7d") =
    statusFailure "a\"b" := by
  decide

end ContainerdRs.Cri.Spdy
