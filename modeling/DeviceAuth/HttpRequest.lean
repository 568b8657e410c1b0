import DeviceAuth.Base64
import DeviceAuth.Text

namespace DeviceAuth

structure HttpRequest where
  method : String
  uri : String
  body : Bytes := []
  offlineNonce : Option String := none
  deriving DecidableEq

namespace HttpRequest

def isOffline (r : HttpRequest) : Bool :=
  r.offlineNonce.isSome

def check (r : HttpRequest) : Except Failure Unit :=
  if r.method.isEmpty || r.uri.isEmpty then .error (.input .emptyTarget) else .ok ()

-- Only the method and the secret may hold an ampersand, and they stand at the ends.
def normalized (r : HttpRequest) (nonce secret : String) : String :=
  "&".intercalate [r.method, Base64.encode (Text.utf8 r.uri), nonce, Base64.encode r.body, secret]

def normalizedData (r : HttpRequest) (nonce secret : String) : Bytes :=
  Text.utf8 (r.normalized nonce secret)

end HttpRequest

structure HttpSignature where
  version : String
  activationId : String
  applicationKey : String
  nonce : String
  factor : String
  signature : String
  deriving DecidableEq

namespace HttpSignature

def headerName : String :=
  "X-PowerAuth-Authorization"

def headerValue (s : HttpSignature) : String :=
  s!"{s.version}_{s.signature}"

def field (name value : String) : String :=
  s!"{name}=\"{value}\""

def authorization (s : HttpSignature) : String :=
  "PowerAuth " ++ ", ".intercalate [
    field "pa_activation_id" s.activationId,
    field "pa_application_key" s.applicationKey,
    field "pa_nonce" s.nonce,
    field "pa_signature_type" s.factor,
    field "pa_signature" s.signature,
    field "pa_version" s.version]

end HttpSignature

end DeviceAuth
