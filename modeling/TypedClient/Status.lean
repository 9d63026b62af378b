import TypedClient.Text.Uppercase
import TypedClient.Text.Blank
import TypedClient.TypeExpr.Basic
/-!
# Response statuses

The key of a response is a code, the default, or a range. Every key is
one of these: blanks at the ends and the case of letters do not count.
`Status.word` names a status in a declaration.
-/

namespace TypedClient

/-- The status of a response. -/
inductive Status where
  | code (n : Nat)
  | default
  /-- A range such as `2XX`, or any other key. -/
  | range (key : String)
deriving DecidableEq, Repr

namespace Status

/-- A code of at most sixteen bits, with a plus sign in front if there is
one. -/
def code? (key : List Char) : Option Nat :=
  let digits := match key with
    | '+' :: rest => rest
    | rest => rest
  if digits.isEmpty || !digits.all Char.isDigit then none
  else
    let n := Text.decimalValue digits
    if n < Nat.pow 2 16 then some n else none

/-- The status that a key means. -/
def ofKey (key : String) : Status :=
  let trimmed := Text.trim key.toList
  if Text.equalIgnoringCase (String.ofList trimmed) "default" then .default
  else
    match code? trimmed with
    | some n => .code n
    | none => .range (String.ofList (Text.uppercase trimmed))

/-- The key of a status. -/
def key : Status → String
  | .code n => Text.decimal n
  | .default => "default"
  | .range key => key

/-- The registered phrase of a code. -/
def phrase? : Nat → Option String
  | 100 => "Continue"
  | 101 => "SwitchingProtocols"
  | 102 => "Processing"
  | 103 => "EarlyHints"
  | 200 => "OK"
  | 201 => "Created"
  | 202 => "Accepted"
  | 203 => "NonAuthoritativeInformation"
  | 204 => "NoContent"
  | 205 => "ResetContent"
  | 206 => "PartialContent"
  | 207 => "MultiStatus"
  | 208 => "AlreadyReported"
  | 226 => "IMUsed"
  | 300 => "MultipleChoices"
  | 301 => "MovedPermanently"
  | 302 => "Found"
  | 303 => "SeeOther"
  | 304 => "NotModified"
  | 305 => "UseProxy"
  | 307 => "TemporaryRedirect"
  | 308 => "PermanentRedirect"
  | 400 => "BadRequest"
  | 401 => "Unauthorized"
  | 402 => "PaymentRequired"
  | 403 => "Forbidden"
  | 404 => "NotFound"
  | 405 => "MethodNotAllowed"
  | 406 => "NotAcceptable"
  | 408 => "RequestTimeout"
  | 409 => "Conflict"
  | 410 => "Gone"
  | 411 => "LengthRequired"
  | 412 => "PreconditionFailed"
  | 413 => "PayloadTooLarge"
  | 414 => "UriTooLong"
  | 415 => "UnsupportedMediaType"
  | 416 => "RangeNotSatisfiable"
  | 417 => "ExpectationFailed"
  | 418 => "ImATeapot"
  | 421 => "MisdirectedRequest"
  | 422 => "UnprocessableEntity"
  | 423 => "Locked"
  | 424 => "FailedDependency"
  | 425 => "TooEarly"
  | 426 => "UpgradeRequired"
  | 428 => "PreconditionRequired"
  | 429 => "TooManyRequests"
  | 431 => "RequestHeaderFieldsTooLarge"
  | 451 => "UnavailableForLegalReasons"
  | 500 => "InternalServerError"
  | 501 => "NotImplemented"
  | 502 => "BadGateway"
  | 503 => "ServiceUnavailable"
  | 504 => "GatewayTimeout"
  | 505 => "HttpVersionNotSupported"
  | 506 => "VariantAlsoNegotiates"
  | 507 => "InsufficientStorage"
  | 508 => "LoopDetected"
  | 510 => "NotExtended"
  | 511 => "NetworkAuthenticationRequired"
  | _ => none

/-- The word for a status in a declaration's name. -/
def word : Status → String
  | .code n => (phrase? n).getD "Default"
  | .default => "Default"
  | .range "1XX" => "Informational"
  | .range "2XX" => "Success"
  | .range "3XX" => "Redirection"
  | .range "4XX" => "ClientError"
  | .range "5XX" => "ServerError"
  | .range _ => "Default"

/-- The type of the field that holds the status. -/
def fieldType : Status → TypeExpr
  | .code n => .literal (Text.decimal n)
  | .default => .literal "500"
  | .range _ => .number

end Status

end TypedClient
