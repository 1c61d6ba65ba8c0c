import ServiceDirectory.Proofs.Connection.Overlooking

/-! Steps that the packets of a connection do not notice. They leave alone all that packets are kept
in, and nothing happens in them that has to do with packets. -/
namespace ServiceDirectory

def Dispatch.completion? : Dispatch → Option Completion
  | .completion k => some k
  | _ => none

namespace Connection

def Event.completion? : Event → Option Completion
  | .delivered d _ => d.completion?
  | _ => none

def Event.isMark : Event → Bool
  | .reserved _ | .accepted _ _ | .refused _ _ | .opened _ | .written _ | .lost _ => true
  | .received (.response _) => true
  | .delivered (.completion _) _ => true
  | _ => false

def queued (c : Connection) : List Completion := c.dispatches.filterMap Dispatch.completion?

def ran (c : Connection) : List Completion := c.history.filterMap Event.completion?

theorem completion?_of_not_isMark {e : Event} (h : e.isMark = false) : e.completion? = none := by
  cases e with
  | delivered d _ => cases d <;> simp_all [Event.isMark, Event.completion?, Dispatch.completion?]
  | _ => rfl

theorem filter_append_of_forall {α : Type} {p : α → Bool} {es : List α}
    (h : ∀ e ∈ es, p e = false) (older : List α) : (es ++ older).filter p = older.filter p := by
  have none : es.filter p = [] := List.filter_eq_nil_iff.mpr fun e hm => by simp [h e hm]
  rw [List.filter_append, none, List.nil_append]

theorem filterMap_append_of_forall {α β : Type} {g : α → Option β} {es : List α}
    (h : ∀ e ∈ es, g e = none) (older : List α) :
    (es ++ older).filterMap g = older.filterMap g := by
  rw [List.filterMap_append, List.filterMap_eq_nil_iff.mpr h, List.nil_append]

/-- All that packets are kept in is the same, and nothing happened that has to do with them. -/
structure Quiet (c c' : Connection) : Prop where
  settings : c'.settings = c.settings
  packets : c'.packets = c.packets
  outgoing : c'.outgoing = c.outgoing
  retry : c'.retry = c.retry
  pending : c'.pending = c.pending
  senders : c'.senders = c.senders
  outstanding : c'.outstanding = c.outstanding
  nextXid : c'.nextXid = c.nextXid
  latency : c'.latency = c.latency
  nextTicket : c.nextTicket ≤ c'.nextTicket
  queued : c'.queued = c.queued
  history : ∃ es, c'.history = es ++ c.history ∧ ∀ e ∈ es, e.isMark = false

namespace Quiet

theorem refl (c : Connection) : Quiet c c :=
  ⟨rfl, rfl, rfl, rfl, rfl, rfl, rfl, rfl, rfl, Nat.le_refl _, rfl, [], rfl, by simp⟩

theorem trans {a b c : Connection} (h : Quiet a b) (k : Quiet b c) : Quiet a c := by
  obtain ⟨es, he, hes⟩ := h.history
  obtain ⟨fs, hf, hfs⟩ := k.history
  refine ⟨k.settings.trans h.settings, k.packets.trans h.packets, k.outgoing.trans h.outgoing,
    k.retry.trans h.retry, k.pending.trans h.pending, k.senders.trans h.senders,
    k.outstanding.trans h.outstanding, k.nextXid.trans h.nextXid, k.latency.trans h.latency,
    Nat.le_trans h.nextTicket k.nextTicket, k.queued.trans h.queued, fs ++ es, ?_, ?_⟩
  · rw [hf, he, List.append_assoc]
  · intro e hm
    rcases List.mem_append.mp hm with hm | hm
    · exact hfs e hm
    · exact hes e hm

theorem ran {c c' : Connection} (h : Quiet c c') : c'.ran = c.ran := by
  obtain ⟨es, he, hes⟩ := h.history
  rw [Connection.ran, he]
  exact filterMap_append_of_forall (fun e hm => completion?_of_not_isMark (hes e hm)) c.history

end Quiet

theorem quiet_fields (c : Connection) {now : Nat} {roster : Roster} {rejected : List Endpoint}
    {status : ConnectionStatus} {sessionId : Option SessionId} {endpoint : Option Endpoint}
    {sessionTimeout : Option Nat} {shutdown : Bool} {holding : Holding}
    {calls : List (Ticket × Call)} {carrier : Carrier} {listeners : List Listener}
    {nextListener : ListenerId} :
    Quiet c { c with
      now, roster, rejected, status, sessionId, endpoint, sessionTimeout
      shutdown, holding, calls, carrier, listeners, nextListener } :=
  ⟨rfl, rfl, rfl, rfl, rfl, rfl, rfl, rfl, rfl, Nat.le_refl _, rfl, [], rfl, by simp⟩

theorem quiet_record (c : Connection) {e : Event} (h : e.isMark = false) : Quiet c (c.record e) :=
  ⟨rfl, rfl, rfl, rfl, rfl, rfl, rfl, rfl, rfl, Nat.le_refl _, rfl, [e], rfl, by simpa using h⟩

theorem quiet_publish (c : Connection) {d : Dispatch} (h : d.completion? = none) :
    Quiet c (c.publish d) := by
  refine ⟨rfl, rfl, rfl, rfl, rfl, rfl, rfl, rfl, rfl, Nat.le_refl _, ?_, [.published d], rfl, ?_⟩
  · simp [queued, publish, record, h]
  · simp [Event.isMark]

theorem Quiet.overlooksCalls : OverlooksCalls Quiet where
  refl := refl
  returned c _ _ _ := c.quiet_fields.trans (quiet_record _ rfl)

theorem Quiet.overlooksSessions : OverlooksSessions Quiet where
  refl := refl
  trans := trans
  fields c := c.quiet_fields
  tells c d about := by
    refine c.quiet_publish ?_
    cases d with
    | completion k => rcases about with about | about <;> cases about
    | _ => rfl

theorem quiet_sessionStarted (c : Connection) (s : Session) (search : Search) :
    Quiet (c.record (.opened s)) (c.sessionStarted s search) :=
  (c.record (.opened s)).quiet_fields.trans (Quiet.overlooksSessions.sessionStarted c s search)

theorem quiet_attemptFailed (c : Connection) (s : Search) (e : Endpoint) (f : Failure) :
    Quiet c (c.attemptFailed s e f) :=
  (c.quiet_fields.trans (quiet_record _ rfl)).trans
    (Quiet.overlooksSessions.attemptFailed c s e f)

theorem quiet_addCall (c : Connection) (call : Call) : Quiet c (c.addCall call) :=
  ⟨rfl, rfl, rfl, rfl, rfl, rfl, rfl, rfl, rfl, Nat.le_succ _, rfl, [], rfl, by simp⟩

theorem quiet_updateRoster (c : Connection) (endpoints : List Endpoint) :
    Quiet c (c.updateRoster endpoints).2 := by
  unfold updateRoster
  split
  · exact c.quiet_fields
  · exact .refl c

end Connection
end ServiceDirectory
