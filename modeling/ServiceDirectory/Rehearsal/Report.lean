import ServiceDirectory.Rehearsal.Basic

/-! What a rehearsal shows after a step: the calls of listeners and callbacks, the results of calls
that have ended, what the servers noted, and the state of the connection. The packets of a lost
session fail in no certain order, so a row of failed callbacks is shown in the order of sending,
unless a server sent the failures. -/
namespace ServiceDirectory.Rehearsal

/-- A call of a listener or a callback. -/
inductive Note where
  | status (previous current : ConnectionStatus) (listener : ListenerId)
  | session (event : SessionEvent) (id : SessionId) (endpoint : Option Endpoint)
      (listener : ListenerId)
  | notification (n : Notification) (listener : ListenerId)
  | callback (p : PacketId) (r : PacketResult)

namespace Note

/-- The packet of a callback that was told of a failure on this side. -/
def failed? : Note → Option PacketId
  | .callback _ (.error (.server _)) => none
  | .callback p (.error _) => some p
  | _ => none

/-- Puts a note in front, or behind those of earlier packets in its row. -/
def insert (x : Note) : List Note → List Note
  | [] => [x]
  | y :: ys =>
    match x.failed?, y.failed? with
    | some p, some q => if q < p then y :: insert x ys else x :: y :: ys
    | _, _ => x :: y :: ys

/-- Sorts each row of failed callbacks by packet. -/
def sortRows : List Note → List Note
  | [] => []
  | x :: xs => insert x (sortRows xs)

/-- The calls that go with an event. -/
def ofEvent : Connection.Event → List Note
  | .delivered (.completion k) _ => [.callback k.packet k.result]
  | .delivered (.status previous current) ls => ls.map (.status previous current)
  | .delivered (.session event id endpoint) ls => ls.map (.session event id endpoint)
  | .delivered (.notification n) ls => ls.map (.notification n)
  | _ => []

end Note

/-- Takes what the servers noted since the last time, for each server in the order of its links. -/
def takeLogs (r : Rehearsal) : List (List LogEntry) × Rehearsal :=
  let log (s : Server) := s.log.mergeSort fun a b => a.link ≤ b.link
  (r.servers.map log, { r with servers := r.servers.map fun s => { s with log := [] } })

/-- The name in place of the address of a server, where a text shows it. -/
def renamed (servers : Nat) (cs : List Char) : List Char :=
  match cs with
  | [] => []
  | c :: rest =>
    let address (i : Nat) := (endpointOf i).display.toList
    match (List.range servers).find? fun i => (address i).isPrefixOf (c :: rest) with
    | some i => (nameOf i).toList ++ renamed servers (rest.drop ((address i).length - 1))
    | none => c :: renamed servers rest
termination_by cs.length

/-- A text with the names of the servers in it. -/
def named (r : Rehearsal) (s : String) : String :=
  String.ofList (renamed r.servers.length s.toList)

end ServiceDirectory.Rehearsal
