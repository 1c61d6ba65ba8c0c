import Mathlib.Data.List.Nodup
import ServiceDirectory.Attachment
import ServiceDirectory.Proofs.Cache.Contents
import ServiceDirectory.Proofs.Connection.Tidings

/-! A cache that is attached to a connection. It is emptied when a session ends, and until the next
one begins nothing is told that could fill it; so it holds what the notifications of one session
make of an empty cache. -/
namespace ServiceDirectory

def Notification.Brings (n : Notification) (service id : String) : Prop :=
  ∃ i, (n = .registered i ∨ n = .updated i) ∧ i.serviceName = service ∧ i.providerId = id

namespace InstanceCache

theorem mem_ids_apply {c : InstanceCache} {n : Notification} {service id : String}
    (h : id ∈ ids ((c.apply n).1.instances service)) :
    id ∈ ids (c.instances service) ∨ n.Brings service id := by
  obtain ⟨i, listed, rfl⟩ := List.mem_map.mp h
  refine forall_mem_perform (o := .apply n)
    (P := fun i => i.providerId ∈ ids (c.instances service) ∨ n.Brings service i.providerId)
    (fun _ _ _ known => known) (fun j brought => .inr ?_) (fun j hj => .inl (mem_ids hj)) i listed
  cases n with
  | registered | updated =>
    rw [Operation.brought, List.mem_ite_nil_right, List.mem_singleton] at brought
    obtain ⟨named, rfl⟩ := brought
    exact ⟨j, by simp, named, rfl⟩
  | unregistered | heartbeat => cases brought

def applyAll (c : InstanceCache) (ns : List Notification) : InstanceCache :=
  ns.foldl (fun c n => (c.apply n).1) c

theorem applyAll_append (c : InstanceCache) (ns : List Notification) (n : Notification) :
    c.applyAll (ns ++ [n]) = ((c.applyAll ns).apply n).1 := by
  rw [applyAll, List.foldl_append]
  rfl

theorem exists_brings {c : InstanceCache} (empty : c.services = .empty) {ns : List Notification}
    {service id : String} (h : id ∈ ids ((c.applyAll ns).instances service)) :
    ∃ n ∈ ns, n.Brings service id := by
  induction ns using List.reverseRecOn with
  | nil =>
    have none : c.instances service = [] := instances_of_unknown (by rw [empty]; rfl)
    rw [applyAll, List.foldl_nil, none] at h
    cases h
  | append_singleton ns n ih =>
    rw [applyAll_append] at h
    rcases mem_ids_apply h with before | now
    · obtain ⟨m, listed, brings⟩ := ih before
      exact ⟨m, List.mem_append_left _ listed, brings⟩
    · exact ⟨n, by simp, now⟩

theorem handlers_applyAll (c : InstanceCache) (ns : List Notification) :
    (c.applyAll ns).handlers = c.handlers := by
  induction ns generalizing c with
  | nil => rfl
  | cons n ns ih => exact (ih _).trans (handlers_apply c n)

theorem clear_applyAll {c : InstanceCache} (empty : c.services = .empty) (ns : List Notification) :
    (c.applyAll ns).clear = c := by
  rw [clear, handlers_applyAll, ← empty]

def hearAll (c : InstanceCache) (ds : List Dispatch) : InstanceCache := ds.foldl hear c

end InstanceCache

/-- The notifications since a session was begun or ended, if it were `ns` before. -/
def Dispatch.since (ns : List Notification) : Dispatch → List Notification
  | .session _ _ _ => []
  | .notification n => ns ++ [n]
  | _ => ns

def Dispatch.notification? : Dispatch → Option Notification
  | .notification n => some n
  | _ => none

namespace Connection

def recent (ds : List Dispatch) : List Notification := ds.foldl Dispatch.since []

theorem recent_append (ds : List Dispatch) (d : Dispatch) :
    recent (ds ++ [d]) = d.since (recent ds) := by
  rw [recent, List.foldl_append]
  rfl

theorem hearAll_append (k : InstanceCache) (ds : List Dispatch) (d : Dispatch) :
    k.hearAll (ds ++ [d]) = (k.hearAll ds).hear d := by
  rw [InstanceCache.hearAll, List.foldl_append]
  rfl

/-- A cache that was empty holds what the notifications of the session that is on have made of
it. -/
theorem Leading.hearAll_eq {ds : List Dispatch} {on : Option SessionId} (h : Leading none ds on)
    {k : InstanceCache} (empty : k.services = .empty) :
    k.hearAll ds = k.applyAll (recent ds) ∧ (on = none → recent ds = []) := by
  induction ds using List.reverseRecOn generalizing on with
  | nil => exact ⟨rfl, fun _ => rfl⟩
  | append_singleton ds d ih =>
    obtain ⟨mid, before, last⟩ := h.split_last
    obtain ⟨heard, none⟩ := ih before
    rw [hearAll_append, recent_append, heard]
    cases last with
    | @begins event opens id e =>
      refine ⟨?_, fun _ => rfl⟩
      rw [none rfl]
      cases event with
      | closed => exact absurd rfl opens
      | _ => rfl
    | ends id e => exact ⟨InstanceCache.clear_applyAll empty _, fun _ => rfl⟩
    | notices id n => exact ⟨(InstanceCache.applyAll_append _ _ _).symm, fun off => by cases off⟩
    | turns | completes => exact ⟨rfl, none⟩

theorem Leading.toldFrom_eq {ds : List Dispatch} {on : Option SessionId} (h : Leading none ds on) :
    ∃ older, toldFrom none ds = older ++ (recent ds).map (on, ·) ∧
      older.map (·.2) ++ recent ds = ds.filterMap Dispatch.notification? := by
  induction ds using List.reverseRecOn generalizing on with
  | nil => exact ⟨[], rfl, rfl⟩
  | append_singleton ds d ih =>
    obtain ⟨mid, before, last⟩ := h.split_last
    obtain ⟨older, told, all⟩ := ih before
    rw [toldFrom_append before, recent_append, List.filterMap_append, ← all]
    -- A session event ends the row of the recent ones, and those before it are older.
    have ended (e : Option Endpoint) (event : SessionEvent) (id : SessionId) :
        (toldFrom none ds).map (·.2) ++ [] = older.map (·.2) ++ recent ds ++
          [Dispatch.session event id e].filterMap Dispatch.notification? := by
      rw [told]
      simp [Dispatch.notification?, Function.comp_def]
    cases last with
    | begins opens id e => exact ⟨toldFrom none ds, rfl, ended e _ id⟩
    | ends id e => exact ⟨toldFrom none ds, rfl, ended e .closed id⟩
    | notices id n =>
      refine ⟨older, ?_, (List.append_assoc _ _ _).symm⟩
      rw [told, List.append_assoc, Dispatch.since, List.map_append]
      rfl
    | turns | completes =>
      refine ⟨older, ?_, (List.append_nil _).symm⟩
      rw [told]
      exact List.append_nil _

def heed (ours : List ListenerId) (k : InstanceCache) : Event → InstanceCache
  | .delivered d listeners => (listeners.filter ours.contains).foldl (fun k _ => k.hear d) k
  | _ => k

/-- What the events so far have made of a cache whose listeners are `ours`. -/
def follow (ours : List ListenerId) (k : InstanceCache) (es : List Event) : InstanceCache :=
  es.foldl (heed ours) k

theorem follow_of_plain (ours : List ListenerId) (k : InstanceCache) {new : List Event}
    (plain : ∀ e ∈ new, e.isPlain = true) : follow ours k new = k := by
  induction new with
  | nil => rfl
  | cons e new ih =>
    have rest := ih fun e he => plain e (List.mem_cons_of_mem _ he)
    have here := plain e List.mem_cons_self
    cases e with
    | delivered d ls => cases here
    | _ => exact rest

theorem follow_append (ours : List ListenerId) (k : InstanceCache) (es new : List Event) :
    follow ours k (es ++ new) = follow ours (follow ours k es) new :=
  List.foldl_append

/-- A cache is attached by two listeners, before the first session, and they are not removed. -/
inductive Attached (settings : Settings) (roster : Roster) (notices sessions : ListenerId) :
    Connection → Prop where
  | attached {c : Connection} (reached : Reachable settings roster c)
    (unopened : openings c.log = []) (hearsNotices : ⟨notices, .notification⟩ ∈ c.listeners)
    (hearsSessions : ⟨sessions, .session⟩ ∈ c.listeners) :
    Attached settings roster notices sessions c
  | step {c c' : Connection} {a : Action} (before : Attached settings roster notices sessions c)
    (taken : c.step a = some c') (keepsNotices : a ≠ .unlisten notices)
    (keepsSessions : a ≠ .unlisten sessions) : Attached settings roster notices sessions c'

namespace Attached

variable {settings : Settings} {roster : Roster} {notices sessions : ListenerId} {c : Connection}

theorem reachable (h : Attached settings roster notices sessions c) :
    Reachable settings roster c := by
  induction h with
  | attached reached => exact reached
  | step before taken keepsNotices keepsSessions ih => exact .step _ ih taken

theorem listens (h : Attached settings roster notices sessions c) :
    ⟨notices, .notification⟩ ∈ c.listeners ∧ ⟨sessions, .session⟩ ∈ c.listeners := by
  induction h with
  | attached reached unopened hearsNotices hearsSessions => exact ⟨hearsNotices, hearsSessions⟩
  | step before taken keepsNotices keepsSessions ih =>
    exact ⟨mem_listeners_of_step taken ih.1 keepsNotices,
      mem_listeners_of_step taken ih.2 keepsSessions⟩

end Attached

theorem filter_audience {c : Connection} (h : Listening c) {l l' : Listener} (hl : l ∈ c.listeners)
    (hl' : l' ∈ c.listeners) (other : l'.topic ≠ l.topic) {d : Dispatch}
    (topic : d.topic? = some l.topic) (ours : List ListenerId)
    (two : ∀ id, ours.contains id = true ↔ id = l.id ∨ id = l'.id) :
    (c.audience d).filter ours.contains = [l.id] := by
  have same := List.inj_on_of_nodup_map h.distinct
  have only : ∀ x ∈ c.listeners,
      (ours.contains x.id && some x.topic == d.topic?) = (x == l) := by
    intro x hx
    rw [Bool.eq_iff_iff, Bool.and_eq_true, two, topic, beq_iff_eq, beq_iff_eq, Option.some.injEq]
    constructor
    · rintro ⟨first | second, tells⟩
      · exact same hx hl first
      · obtain rfl := same hx hl' second
        exact absurd tells other
    · rintro rfl
      exact ⟨.inl rfl, rfl⟩
  have once : c.listeners.count l = 1 :=
    List.count_eq_one_of_mem (List.Nodup.of_map _ h.distinct) hl
  rw [audience, List.filter_map, List.filter_filter]
  refine (congrArg (List.map (·.id)) (List.filter_congr only)).trans ?_
  rw [List.filter_beq, once]
  rfl

theorem hear_of_topic (k : InstanceCache) {d : Dispatch} (session : d.topic? ≠ some .session)
    (notification : d.topic? ≠ some .notification) : k.hear d = k := by
  cases d with
  | session => exact absurd rfl session
  | notification => exact absurd rfl notification
  | status | completion => rfl

theorem foldl_hear_of_eq {k : InstanceCache} {d : Dispatch} (h : k.hear d = k)
    (ls : List ListenerId) : ls.foldl (fun k _ => k.hear d) k = k := by
  induction ls with
  | nil => rfl
  | cons l ls ih => rw [List.foldl_cons, h, ih]

theorem follow_of_eq (ours : List ListenerId) {k : InstanceCache} {es : List Event}
    (h : ∀ d ∈ deliveries es, k.hear d = k) :
    follow ours k es = k ∧ k.hearAll (deliveries es) = k := by
  induction es with
  | nil => exact ⟨rfl, rfl⟩
  | cons e es ih =>
    cases e with
    | delivered d ls =>
      have here : k.hear d = k := h d List.mem_cons_self
      obtain ⟨follows, hears⟩ := ih fun d' hd => h d' (List.mem_cons_of_mem _ hd)
      constructor
      · rw [follow, List.foldl_cons, heed, foldl_hear_of_eq here]
        exact follows
      · exact (congrArg (InstanceCache.hearAll · (deliveries es)) here).trans hears
    | _ => exact ih h

namespace Attached

variable {settings : Settings} {roster : Roster} {notices sessions : ListenerId}
  {c c' : Connection}

theorem heed_delivered (h : Attached settings roster notices sessions c) (k : InstanceCache)
    (d : Dispatch) : heed [notices, sessions] k (.delivered d (c.audience d)) = k.hear d := by
  obtain ⟨hn, hs⟩ := h.listens
  have listening := h.reachable.listening
  cases d with
  | session event id e =>
    rw [heed, filter_audience listening hs hn (by simp) rfl _ (by simp [or_comm])]
    rfl
  | notification n =>
    rw [heed, filter_audience listening hn hs (by simp) rfl _ (by simp)]
    rfl
  | status | completion => exact foldl_hear_of_eq rfl _

/-- The cache has heard all that was passed on. -/
theorem follow_eq (h : Attached settings roster notices sessions c) (k : InstanceCache) :
    follow [notices, sessions] k c.log = k.hearAll (deliveries c.log) := by
  induction h with
  | @attached c reached unopened hearsNotices hearsSessions =>
    have untold : announced (published c.log) = [] := by
      rw [announced_published]
      exact (reached.life.unopened (by rw [openings_turns, unopened])).1
    have idle : ∀ d ∈ deliveries c.log, k.hear d = k := by
      intro d hd
      have mem : d ∈ published c.log := by
        rw [reached.passed_on]
        exact List.mem_append_left _ hd
      obtain ⟨session, notification⟩ := reached.leading.not_notification untold mem
      exact hear_of_topic k session notification
    obtain ⟨follows, hears⟩ := follow_of_eq [notices, sessions] idle
    rw [follows, hears]
  | @step c c' a before taken keepsNotices keepsSessions ih =>
    cases mail_of_step taken with
    | posts q =>
      obtain ⟨new, log, -, plain⟩ := q.posted
      rw [log, follow_append, deliveries_append, deliveries_of_plain plain, List.append_nil,
        follow_of_plain _ _ plain, ih]
    | @noticed d n _ _ driving listeners nextListener log dispatches =>
      have none : deliveries [.received (.notification n), .published (.notification n)] = [] := rfl
      rw [log, follow_append, deliveries_append, none, List.append_nil, ih]
      rfl
    | @delivered d _ _ listeners nextListener log dispatches =>
      have one : deliveries [.delivered d (c.audience d)] = [d] := rfl
      rw [log, follow_append, deliveries_append, one, hearAll_append, ih]
      exact before.heed_delivered _ d
    | listened topic => exact ih
    | unlistened id => exact ih

theorem run (h : Attached settings roster notices sessions c) {actions : List Action}
    (keepsNotices : .unlisten notices ∉ actions) (keepsSessions : .unlisten sessions ∉ actions)
    (run : c.run actions = some c') : Attached settings roster notices sessions c' := by
  induction actions generalizing c with
  | nil =>
    obtain rfl := run_nil_eq_some_iff.mp run
    exact h
  | cons a actions ih =>
    obtain ⟨b, taken, run⟩ := run_cons_eq_some_iff.mp run
    rw [List.mem_cons, not_or] at keepsNotices keepsSessions
    have next := h.step taken (Ne.symm keepsNotices.1) (Ne.symm keepsSessions.1)
    exact ih next keepsNotices.2 keepsSessions.2 run

/-- A cache that was empty when it was attached holds what has been told since the session that is
on was begun; this came on that session, in one row. While none is on the cache is empty. -/
theorem holds_session (h : Attached settings roster notices sessions c) {k : InstanceCache}
    (empty : k.services = .empty) :
    let told := deliveries c.log
    let on := current (announced told)
    let cache := follow [notices, sessions] k c.log
    (∃ older later, arrivals c.log = older ++ (recent told).map (on, ·) ++ later ∧
      older.map (·.2) ++ recent told = told.filterMap Dispatch.notification?) ∧
    cache = k.applyAll (recent told) ∧
    (∀ service, ∀ i ∈ cache.instances service, ∃ id n, on = some id ∧ n ∈ recent told ∧
      (some id, n) ∈ arrivals c.log ∧ n.Brings service i.providerId) ∧
    (on = none → cache.services = .empty) := by
  intro told on cache
  have reached := h.reachable
  have leading := reached.leading
  rw [reached.passed_on] at leading
  obtain ⟨mid, before, after⟩ := leading.split
  obtain ⟨heard, none⟩ := before.hearAll_eq empty
  obtain ⟨older, past, all⟩ := before.toldFrom_eq
  have same : on = mid := before.current_eq
  have holds : cache = k.applyAll (recent told) := (h.follow_eq k).trans heard
  have came : arrivals c.log =
      older ++ (recent told).map (on, ·) ++ toldFrom mid c.dispatches := by
    rw [reached.arrivals_eq, reached.passed_on, toldFrom_append before, past, same]
  refine ⟨⟨older, _, came, all⟩, holds, fun service i hi => ?_, fun off => ?_⟩
  · rw [holds] at hi
    obtain ⟨n, listed, brings⟩ := InstanceCache.exists_brings empty (InstanceCache.mem_ids hi)
    obtain ⟨id, alive⟩ : ∃ id, on = some id := by
      refine Option.ne_none_iff_exists'.mp fun off => ?_
      have nothing : recent told = [] := none (same.symm.trans off)
      rw [nothing] at listed
      cases listed
    refine ⟨id, n, alive, listed, ?_, brings⟩
    rw [came, ← alive]
    exact List.mem_append_left _ (List.mem_append_right _ (List.mem_map_of_mem listed))
  · have nothing : recent told = [] := none (same.symm.trans off)
    rw [holds, nothing]
    exact empty

end Attached

/-- After one session was replaced by another: what came on the first is gone. -/
theorem holds_session_of_replaced : ∃ c : Connection, Attached {}
    { endpoints := [⟨"a", 1⟩, ⟨"b", 2⟩], nonempty := by simp } 1 2 c ∧
    ((follow [1, 2] {} c.log).instances "billing").map (·.providerId) = ["10.0.0.2"] ∧
    ∃ n, (some 8, n) ∈ arrivals c.log ∧ n.Brings "billing" "10.0.0.2" := by
  let instanceAt (address : String) : Notification :=
    .registered (.new "billing" address "http://x")
  have outcome : ((start {} { endpoints := [⟨"a", 1⟩, ⟨"b", 2⟩], nonempty := by simp }).run
      [.listen .notification, .listen .session]).bind (fun b => (b.run
      [.callConnect 1000, .enter, .seek, .seek, .seek,
        .answer (.ok (.connected { sessionId := 7, sessionTimeoutMs := 500 })),
        .receive (.ok (.notification (instanceAt "10.0.0.1"))), .deliver, .deliver, .deliver,
        .receive (.error (Framing.failure "reading length prefix" Inlet.earlyEof)),
        .seek, .seek, .seek,
        .answer (.ok (.connected { sessionId := 8, sessionTimeoutMs := 500 })),
        .receive (.ok (.notification (instanceAt "10.0.0.2"))),
        .deliver, .deliver, .deliver, .deliver, .deliver]).map fun c =>
      (b.listeners, openings b.log, current (announced (deliveries c.log)),
        ((follow [1, 2] {} c.log).instances "billing").map (·.providerId))) =
      some ([⟨1, .notification⟩, ⟨2, .session⟩], [], some 8, ["10.0.0.2"]) := by decide +kernel
  obtain ⟨b, first, outcome⟩ := Option.bind_eq_some_iff.mp outcome
  obtain ⟨c, rest, facts⟩ := Option.map_eq_some_iff.mp outcome
  simp only [Prod.mk.injEq] at facts
  obtain ⟨listeners, unopened, on, ids⟩ := facts
  have attached : Attached {} _ 1 2 c :=
    (Attached.attached (Reachable.start.run first) unopened (by simp [listeners])
      (by simp [listeners])).run (by simp) (by simp) rest
  obtain ⟨-, -, sources, -⟩ := attached.holds_session (k := {}) rfl
  obtain ⟨i, listed, same⟩ : ∃ i ∈ (follow [1, 2] {} c.log).instances "billing",
      i.providerId = "10.0.0.2" := by
    have mem : "10.0.0.2" ∈ ((follow [1, 2] {} c.log).instances "billing").map (·.providerId) := by
      simp [ids]
    exact List.mem_map.mp mem
  obtain ⟨id, n, alive, -, came, brings⟩ := sources "billing" i listed
  obtain rfl : 8 = id := Option.some.inj (on.symm.trans alive)
  exact ⟨c, attached, ids, n, came, same ▸ brings⟩

end Connection
end ServiceDirectory
