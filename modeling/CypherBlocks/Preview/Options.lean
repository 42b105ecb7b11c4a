import CypherBlocks.Time.Duration
import CypherBlocks.Web.Url

/-!
# Options of a preview

A preview server shows each compiled query.  Its address has to name a host and a scheme that a
socket can use; what else is left out has a default.
-/

namespace CypherBlocks.Preview

structure Options where
  url : String
  space : String
  event : String
  /-- In nanoseconds. -/
  timeout : Int
  insecure : Bool
  deriving Repr, DecidableEq

def defaultSpace : String := "/"

def defaultEvent : String := "query:compiled"

def defaultTimeout : Int := 10 * Duration.second

def schemes : List String := ["http", "https", "ws", "wss"]

inductive OptionsError where
  | noUrl
  | unreadable (cause : Web.UrlFailure)
  | unsupportedScheme (scheme : String)
  | noHost (url : String)
  deriving Repr, DecidableEq

def OptionsError.message : OptionsError → String
  | .noUrl => "preview URL is required"
  | .unreadable cause => s!"failed to parse preview URL: {cause.message}"
  | .unsupportedScheme scheme => s!"unsupported preview URL scheme {Text.quoted scheme}"
  | .noHost url => s!"preview URL {Text.quoted url} has no host"

/-- Fills in what is left out. -/
def Options.filled (o : Options) : Options where
  url := o.url
  space := if o.space.isEmpty then defaultSpace else o.space
  event := if o.event.isEmpty then defaultEvent else o.event
  timeout := if o.timeout ≤ 0 then defaultTimeout else o.timeout
  insecure := o.insecure

/-- Checks the address and fills in what is left out. -/
def Options.check (o : Options) : Except OptionsError (Options × Web.Url) :=
  if o.url.isEmpty then .error .noUrl
  else
    match Web.parseUrl o.url with
    | .error cause => .error (.unreadable cause)
    | .ok url =>
      if url.scheme ∉ schemes then .error (.unsupportedScheme url.scheme)
      else if url.host.isEmpty then .error (.noHost o.url)
      else .ok (o.filled, url)

end CypherBlocks.Preview
