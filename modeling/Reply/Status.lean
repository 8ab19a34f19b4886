namespace Reply

/-!
# Status lines and failures

A status line gives a protocol version and a status code.  A code has three digits,
the first not zero; registered codes have a reason phrase.  An operation on a reply
may fail because of its status or of what it is given.
-/

/-- The version in a status line. -/
inductive Version
  | http09
  | http10
  | http11
  | http2
  | http3
  deriving DecidableEq

namespace Version

/-- The version as it is written. -/
def text : Version → String
  | .http09 => "HTTP/0.9"
  | .http10 => "HTTP/1.0"
  | .http11 => "HTTP/1.1"
  | .http2 => "HTTP/2.0"
  | .http3 => "HTTP/3.0"

/-- The version written by a text. -/
def ofText? (text : String) : Option Version :=
  [http09, http10, http11, http2, http3].find? fun version =>
    version.text = text

/-- Versions before 1.1, which do not keep connections open by default. -/
def isEarly : Version → Bool
  | .http09 => true
  | .http10 => true
  | _ => false

end Version

/-- A three-digit status code. -/
structure Status where
  code : Nat
  lower : 100 ≤ code
  upper : code ≤ 999
  deriving DecidableEq

namespace Status

/-- The status of a code in range. -/
def ofCode? (code : Nat) : Option Status :=
  if inRange : 100 ≤ code ∧ code ≤ 999 then
    some ⟨code, inRange.1, inRange.2⟩
  else
    none

/-- Exactly the codes of three digits are accepted. -/
theorem ofCode?_eq_some_iff
    {code : Nat}
    {status : Status} :
    ofCode? code = some status ↔ status.code = code := by
  rcases status with ⟨held, lower, upper⟩
  unfold ofCode?
  split
  · simp only [Option.some.injEq, mk.injEq]
    exact eq_comm
  · constructor
    · intro accepted
      contradiction
    · intro same
      simp only at same
      omega

/-- The request succeeded. -/
def ok : Status :=
  ⟨200, by decide, by decide⟩

/-- The client's copy is still good. -/
def notModified : Status :=
  ⟨304, by decide, by decide⟩

/-- The reason phrase of a registered code. -/
def phrase? : Nat → Option String
  | 100 => some "Continue"
  | 101 => some "Switching Protocols"
  | 102 => some "Processing"
  | 103 => some "Early Hints"
  | 200 => some "OK"
  | 201 => some "Created"
  | 202 => some "Accepted"
  | 203 => some "Non Authoritative Information"
  | 204 => some "No Content"
  | 205 => some "Reset Content"
  | 206 => some "Partial Content"
  | 207 => some "Multi-Status"
  | 208 => some "Already Reported"
  | 226 => some "IM Used"
  | 300 => some "Multiple Choices"
  | 301 => some "Moved Permanently"
  | 302 => some "Found"
  | 303 => some "See Other"
  | 304 => some "Not Modified"
  | 305 => some "Use Proxy"
  | 307 => some "Temporary Redirect"
  | 308 => some "Permanent Redirect"
  | 400 => some "Bad Request"
  | 401 => some "Unauthorized"
  | 402 => some "Payment Required"
  | 403 => some "Forbidden"
  | 404 => some "Not Found"
  | 405 => some "Method Not Allowed"
  | 406 => some "Not Acceptable"
  | 407 => some "Proxy Authentication Required"
  | 408 => some "Request Timeout"
  | 409 => some "Conflict"
  | 410 => some "Gone"
  | 411 => some "Length Required"
  | 412 => some "Precondition Failed"
  | 413 => some "Payload Too Large"
  | 414 => some "URI Too Long"
  | 415 => some "Unsupported Media Type"
  | 416 => some "Range Not Satisfiable"
  | 417 => some "Expectation Failed"
  | 418 => some "I'm a teapot"
  | 421 => some "Misdirected Request"
  | 422 => some "Unprocessable Entity"
  | 423 => some "Locked"
  | 424 => some "Failed Dependency"
  | 425 => some "Too Early"
  | 426 => some "Upgrade Required"
  | 428 => some "Precondition Required"
  | 429 => some "Too Many Requests"
  | 431 => some "Request Header Fields Too Large"
  | 451 => some "Unavailable For Legal Reasons"
  | 500 => some "Internal Server Error"
  | 501 => some "Not Implemented"
  | 502 => some "Bad Gateway"
  | 503 => some "Service Unavailable"
  | 504 => some "Gateway Timeout"
  | 505 => some "HTTP Version Not Supported"
  | 506 => some "Variant Also Negotiates"
  | 507 => some "Insufficient Storage"
  | 508 => some "Loop Detected"
  | 510 => some "Not Extended"
  | 511 => some "Network Authentication Required"
  | _ => none

/-- The reason phrase, empty for an unregistered code. -/
def reason (status : Status) : String :=
  (phrase? status.code).getD ""

/-- The code and its reason phrase, or a placeholder for one. -/
def text (status : Status) : String :=
  toString status.code ++ " " ++
    (phrase? status.code).getD "<unknown status code>"

/-- Interim replies, 204 and 304 never carry a body. -/
def forbidsBody (status : Status) : Bool :=
  status.code < 200 || status.code = 204 || status.code = 304

end Status

/-!
## Failures

The ways an operation on a reply can fail, by cause, and how each is worded.
-/

/-- Why an operation was not carried out. -/
inductive Failure
  | invalidName
  | invalidValue
  | invalidStatus (code : Nat)
  | bodyNotAllowed (status : Status)
  | overflow (requested remaining : Nat)
  deriving DecidableEq

/-- The wording of a failure. -/
def Failure.message : Failure → String
  | .invalidName => "invalid header name: invalid HTTP header name"
  | .invalidValue => "invalid header value: failed to parse header value"
  | .invalidStatus code => "invalid status code: " ++ toString code
  | .bodyNotAllowed status =>
      "status " ++ status.text ++ " does not allow a body"
  | .overflow requested remaining =>
      "buffer overflow: requested " ++ toString requested ++
        " bytes, " ++ toString remaining ++ " remaining"

end Reply
