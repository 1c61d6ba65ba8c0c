import ServiceDirectory.Json.Record
import ServiceDirectory.Status

/-! The JSON forms of connection states and session events, which are their names. -/
namespace ServiceDirectory

def ConnectionStatus.toJson (s : ConnectionStatus) : Json := .text s.display

def ConnectionStatus.ofJson? (j : Json) : Option ConnectionStatus :=
  Json.choice? false (ConnectionStatus.all.map fun s => (s.display, s)) j

def SessionEvent.toJson (e : SessionEvent) : Json := .text e.display

def SessionEvent.ofJson? (j : Json) : Option SessionEvent :=
  Json.choice? false (SessionEvent.all.map fun e => (e.display, e)) j

end ServiceDirectory
