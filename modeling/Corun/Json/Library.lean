import Corun.Json.Schema

namespace Corun.Json

structure Source where
  document : Doc
  /-- Whether nothing but blanks stands after the document. -/
  close : Except Fault Unit

structure Library where
  read : String → Source
  decode : {α : Type} → Schema α → Doc → Except Fault α

def Library.fromText (lib : Library) {α : Type} (schema : Schema α) (text : String) :
    Except Fault α := do
  let source := lib.read text
  let a ← lib.decode schema source.document
  source.close
  return a

end Corun.Json
