import Balancer.Error
import Balancer.Table

/-!
# The server of the webhook

`start` serves the webhook with a certificate and a key, whose files have to be there.
-/

namespace Balancer.Webhook

set_option autoImplicit false

structure Server where
  host : String := "0.0.0.0"
  port : Nat := 8443
  certificate : String
  key : String
  threaded : Bool := true
  deriving DecidableEq, Repr

/-- The server that an environment asks for. -/
def serverOf (env : Table String String) : Server where
  certificate := (env.get? "CERT_PATH").getD "/etc/webhook/certs/tls.crt"
  key := (env.get? "KEY_PATH").getD "/etc/webhook/certs/tls.key"

/-- The server that is run, if the given files hold its certificate and key. -/
def start (env : Table String String) (files : List String) : Except Error Server :=
  let server := serverOf env
  if server.certificate ∈ files ∧ server.key ∈ files then .ok server else .error .noCertificate

end Balancer.Webhook
