import Corun.Config.Schema
import Corun.Json.Library

namespace Corun.Config
open Json (Library Schema)

variable (lib : Library)

def fromText {α : Type} (schema : Schema α) (text : String) : Except Failure α :=
  (lib.fromText schema text).mapError fun fault => .ofCause (.json fault)

def parse (text : String) : Except Failure Config := do
  let c ← fromText lib schema text
  c.validate
  return c

def load (path : String) (content : Except FileFault String) : Except Failure Config :=
  match content with
  | .error fault => .error ((Failure.ofCause (.file fault)).within (.readingConfig path))
  | .ok text => (parse lib text).mapError (·.within (.loadingConfig path))

end Corun.Config
