import MetaCache.Json.Decode

/-!
# Settings of the connection to the API
-/

namespace MetaCache

structure ApiSettings where
  baseUrl : String
  /-- Goes with every request. -/
  token : Option String
  requestTimeoutMillis : UInt64
  skipTlsVerify : Bool
  deriving DecidableEq, Repr

namespace ApiSettings

/-- How long to wait for an answer unless settings say otherwise. -/
def defaultTimeoutMillis : UInt64 := 30000

/-- Settings that say nothing but where the API is. -/
def ofBaseUrl (url : String) : ApiSettings := ⟨url, none, defaultTimeoutMillis, false⟩

/-- The fields of settings in documents. -/
def fields : Fields :=
  .cons "base_url" .required .string <|
  .cons "token" .mayBeAbsent (.optional .string) <|
  .cons "request_timeout_ms" .mayBeAbsent (.natural "u64") <|
  .cons "skip_tls_verify" .mayBeAbsent .flag .nil

def schema : Schema := .record "ApiSettings" true fields

def ofData : schema.Carrier → ApiSettings
  | (baseUrl, token, timeout, skipTlsVerify, ()) =>
    { baseUrl
      token := token.join
      requestTimeoutMillis := timeout.getD defaultTimeoutMillis
      skipTlsVerify := skipTlsVerify.getD false }

def toData (s : ApiSettings) : schema.Carrier :=
  (s.baseUrl, some s.token, some s.requestTimeoutMillis, some s.skipTlsVerify, ())

theorem ofData_toData (s : ApiSettings) : ofData s.toData = s := rfl

def encode (s : ApiSettings) : String := Json.encode schema s.toData

def decode (bytes : List UInt8) : Except Json.Fault ApiSettings :=
  (Json.decode schema bytes).map ofData

end ApiSettings

end MetaCache
