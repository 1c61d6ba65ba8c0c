import ServiceDirectory.Proofs.Connection.Clocks
import ServiceDirectory.Proofs.Connection.Strides

/-! How a session is kept alive. Its clocks are acted upon as soon as they run out, so that pings go
out one interval apart, a third of the shorter timeout. If each is answered before the next but one
is due, the last pong is always less than three intervals old, and no clock of the session runs
out. Where the timeout is just three intervals long, no later answer would do. -/
namespace ServiceDirectory.Connection

/-- Whether a session is in use and an action does not let one of its clocks pass. -/
def inTime (c : Connection) (a : Action) : Bool :=
  match c.carrier, a with
  | .driving d, .advance time => decide (c.now + time ≤ d.due c.settings)
  | .driving _, _ => true
  | _, _ => false

/-- Whether a run is one of a session in use whose clocks are acted upon as soon as they run
out. -/
def punctual (c : Connection) : List Action → Bool
  | [] => true
  | a :: actions => c.inTime a && (c.step a).all (·.punctual actions)

theorem driving_of_inTime {c : Connection} {a : Action} (h : c.inTime a = true) :
    ∃ d, c.carrier = .driving d ∧ ∀ time, a = .advance time → c.now + time ≤ d.due c.settings := by
  unfold inTime at h
  split at h
  · rename_i d time driving
    refine ⟨d, driving, fun time' same => ?_⟩
    obtain rfl := Action.advance.inj same
    exact of_decide_eq_true h
  · rename_i d driving other
    exact ⟨d, driving, fun time same => absurd same (other time)⟩
  · cases h

def timeline (c : Connection) : List Action → List (Nat × Event)
  | [] => []
  | a :: actions =>
    match c.step a with
    | none => []
    | some c' => (c'.log.drop c.log.length).map (c.now, ·) ++ c'.timeline actions

def Event.isPing : Event → Bool
  | .pinged => true
  | _ => false

def Event.isPong : Event → Bool
  | .received .pong => true
  | _ => false

def Event.isLoss (f : Failure) : Event → Bool
  | .lost g => g = f
  | _ => false

def timesOf (kind : Event → Bool) (es : List (Nat × Event)) : List Nat :=
  (es.filter (kind ·.2)).map (·.1)

theorem mem_timesOf {kind : Event → Bool} {es : List (Nat × Event)} {t : Nat} :
    t ∈ timesOf kind es ↔ ∃ e, (t, e) ∈ es ∧ kind e = true := by
  simp [timesOf]

theorem timesOf_append (kind : Event → Bool) (es new : List (Nat × Event)) :
    timesOf kind (es ++ new) = timesOf kind es ++ timesOf kind new := by
  simp [timesOf]

theorem timesOf_cons (kind : Event → Bool) (t : Nat) (e : Event) (es : List (Nat × Event)) :
    timesOf kind ((t, e) :: es) =
      if kind e then t :: timesOf kind es else timesOf kind es := by
  unfold timesOf
  cases h : kind e <;> simp [h]

theorem timesOf_map {kind : Event → Bool} {new : List Event} (h : ∀ e ∈ new, kind e = false)
    (now : Nat) : timesOf kind (new.map (now, ·)) = [] := by
  simp only [timesOf, List.map_eq_nil_iff, List.filter_eq_nil_iff, List.mem_map]
  rintro _ ⟨e, he, rfl⟩
  simp [h e he]

theorem Event.isPing_of_calm {e : Event} (h : e.isBeat = false) : e.isPing = false := by
  cases e <;> first | rfl | cases h

theorem Event.isPong_of_calm {e : Event} (h : e.isBeat = false) : e.isPong = false := by
  cases e <;> first | rfl | cases h

theorem Event.isLoss_of_calm {e : Event} (h : e.isBeat = false) (f : Failure) :
    e.isLoss f = false := by
  cases e <;> first | rfl | cases h

/-- What has happened since a session was opened, and what has become of the connection, while the
clocks were acted upon in time. -/
inductive Watched (opened : Connection) : List (Nat × Event) → Connection → Prop where
  | start : Watched opened [] opened
  | step {es : List (Nat × Event)} {c c' : Connection} {a : Action} {d : Drive} {new : List Event}
    (before : Watched opened es c) (driving : c.carrier = .driving d)
    (soon : ∀ time, a = .advance time → c.now + time ≤ d.due c.settings)
    (beat : Beat c d a new c') : Watched opened (es ++ new.map (c.now, ·)) c'

theorem Watched.run {opened c c' : Connection} {es : List (Nat × Event)} {actions : List Action}
    (h : Watched opened es c) (run : c.run actions = some c') (prompt : c.punctual actions = true) :
    Watched opened (es ++ c.timeline actions) c' := by
  induction actions generalizing c es with
  | nil =>
    obtain rfl := run_nil_eq_some_iff.mp run
    rw [timeline, List.append_nil]
    exact h
  | cons a actions ih =>
    obtain ⟨b, taken, run⟩ := run_cons_eq_some_iff.mp run
    rw [punctual, taken, Option.all_some, Bool.and_eq_true] at prompt
    obtain ⟨d, driving, soon⟩ := driving_of_inTime prompt.1
    obtain ⟨new, log, beat⟩ := beat_of_step driving taken
    have fresh : b.log.drop c.log.length = new := by rw [log, List.drop_left]
    simp only [timeline, taken, fresh]
    rw [← List.append_assoc]
    exact ih (.step h driving soon beat) run prompt.2

theorem Beat.unlost {c c' : Connection} {d d' : Drive} {a : Action} {new : List Event}
    (h : Beat c d a new c') (driving : c'.carrier = .driving d') (f : Failure) :
    ∀ e ∈ new, e.isLoss f = false := by
  cases h with
  | passes => simp
  | keeps now settings driving' calm => exact fun e he => Event.isLoss_of_calm (calm e he) f
  | hears now settings driving' calm =>
    exact List.forall_mem_cons.mpr ⟨rfl, fun e he => Event.isLoss_of_calm (calm e he) f⟩
  | pings => simp [Event.isLoss]
  | breaks cause now away => exact absurd driving (away d')
  | closes now away => exact absurd driving (away d')

theorem Watched.unlost {opened c : Connection} {es : List (Nat × Event)} {d : Drive}
    (h : Watched opened es c) (driving : c.carrier = .driving d) (f : Failure) :
    timesOf (Event.isLoss f) es = [] := by
  induction h generalizing d with
  | start => rfl
  | step before driving' soon beat ih =>
    rw [timesOf_append, ih driving', timesOf_map (beat.unlost driving f), List.append_nil]

def Mark (opened : Nat) (es : List (Nat × Event)) (t : Nat) : Prop :=
  t = opened ∨ t ∈ timesOf Event.isPing es

theorem Mark.append {opened : Nat} {es : List (Nat × Event)} {t : Nat} (h : Mark opened es t)
    (new : List (Nat × Event)) : Mark opened (es ++ new) t :=
  h.imp_right fun pinged => by
    rw [timesOf_append]
    exact List.mem_append_left _ pinged

/-- Each ping goes out one interval after the one before, and the first one an interval after the
session was opened. -/
def Spaced (opened interval : Nat) (es : List (Nat × Event)) : Prop :=
  ∀ t ∈ timesOf Event.isPing es, ∃ t', Mark opened es t' ∧ t' + interval = t

theorem Spaced.append {opened interval : Nat} {es new : List (Nat × Event)}
    (h : Spaced opened interval es)
    (next : ∀ t ∈ timesOf Event.isPing new, ∃ t', Mark opened es t' ∧ t' + interval = t) :
    Spaced opened interval (es ++ new) := by
  intro t pinged
  rw [timesOf_append, List.mem_append] at pinged
  obtain ⟨t', mark, gap⟩ := pinged.elim (h t) (next t)
  exact ⟨t', mark.append new, gap⟩

structure Kept (opened interval : Nat) (es : List (Nat × Event)) (c : Connection) (d : Drive) :
    Prop where
  interval_eq : c.settings.pingInterval d.session.timeout = interval
  room : 3 * interval ≤ d.session.timeout ∧ 3 * interval ≤ c.settings.readTimeout
  soon : c.now ≤ d.due c.settings
  ponged : d.lastPong ≤ d.lastFrame
  since : opened ≤ d.lastPong
  framed : d.lastFrame ≤ c.now
  pinged : d.lastPing ≤ c.now
  pongs : ∀ t ∈ timesOf Event.isPong es, t ≤ d.lastPong
  last : Mark opened es d.lastPing
  spaced : Spaced opened interval es

theorem le_due_iff {d : Drive} {settings : Settings} {t : Nat} :
    t ≤ d.due settings ↔ t ≤ d.lastPong + d.session.timeout ∧
      t ≤ d.lastFrame + settings.readTimeout ∧
      t ≤ d.lastPing + settings.pingInterval d.session.timeout := by
  simp only [Drive.due, Drive.expiry, Drive.silenceEnd, Drive.nextPing, Nat.le_min, and_assoc]

@[simp] theorem Drive.session_hear (d : Drive) (now : Nat) (f : ServerFrame) :
    (d.hear now f).session = d.session := by
  cases f <;> rfl

@[simp] theorem Drive.lastFrame_hear (d : Drive) (now : Nat) (f : ServerFrame) :
    (d.hear now f).lastFrame = now := by
  cases f <;> rfl

@[simp] theorem Drive.lastPing_hear (d : Drive) (now : Nat) (f : ServerFrame) :
    (d.hear now f).lastPing = d.lastPing := by
  cases f <;> rfl

theorem Drive.lastPong_hear (d : Drive) (now : Nat) (f : ServerFrame) :
    (d.hear now f).lastPong = if (Event.received f).isPong then now else d.lastPong := by
  cases f <;> rfl

namespace Kept

variable {opened interval : Nat} {es : List (Nat × Event)} {c c' : Connection} {d d' : Drive}

theorem calm (h : Kept opened interval es c d) {new : List Event} {writing : Bool}
    (calm : ∀ e ∈ new, e.isBeat = false) (settings : c'.settings = c.settings)
    (later : c.now ≤ c'.now) (soon : c'.now ≤ d.due c.settings) :
    Kept opened interval (es ++ new.map (c.now, ·)) c' { d with writing } := by
  have pings := timesOf_map (fun e he => Event.isPing_of_calm (calm e he)) c.now
  have pongs := timesOf_map (fun e he => Event.isPong_of_calm (calm e he)) c.now
  exact {
    interval_eq := settings ▸ h.interval_eq
    room := settings ▸ h.room
    soon := settings ▸ soon
    ponged := h.ponged
    since := h.since
    framed := Nat.le_trans h.framed later
    pinged := Nat.le_trans h.pinged later
    pongs := by
      rw [timesOf_append, pongs, List.append_nil]
      exact h.pongs
    last := h.last.append _
    spaced := h.spaced.append (by rw [pings]; simp) }

theorem hear (h : Kept opened interval es c d) {f : ServerFrame} {rest : List Event}
    (calm : ∀ e ∈ rest, e.isBeat = false) (now : c'.now = c.now)
    (settings : c'.settings = c.settings) :
    Kept opened interval (es ++ (Event.received f :: rest).map (c.now, ·)) c' (d.hear c.now f) := by
  have pings := timesOf_map (fun e he => Event.isPing_of_calm (calm e he)) c.now
  have pongs := timesOf_map (fun e he => Event.isPong_of_calm (calm e he)) c.now
  have older : d.lastPong ≤ c.now := Nat.le_trans h.ponged h.framed
  have further : d.lastPong ≤ (d.hear c.now f).lastPong ∧ (d.hear c.now f).lastPong ≤ c.now := by
    rw [Drive.lastPong_hear]
    split
    · exact ⟨older, Nat.le_refl _⟩
    · exact ⟨Nat.le_refl _, older⟩
  exact {
    interval_eq := by rw [settings, Drive.session_hear, h.interval_eq]
    room := by rw [settings, Drive.session_hear]; exact h.room
    soon := by
      have soon := le_due_iff.mp h.soon
      rw [now, settings, le_due_iff]
      simp only [Drive.session_hear, Drive.lastFrame_hear, Drive.lastPing_hear]
      omega
    ponged := by rw [Drive.lastFrame_hear]; exact further.2
    since := Nat.le_trans h.since further.1
    framed := by rw [Drive.lastFrame_hear]; exact Nat.le_of_eq now.symm
    pinged := by rw [Drive.lastPing_hear, now]; exact h.pinged
    pongs := by
      intro t ponged
      rw [timesOf_append, List.map_cons, timesOf_cons, pongs, List.mem_append] at ponged
      obtain old | new := ponged
      · exact Nat.le_trans (h.pongs t old) further.1
      · rw [Drive.lastPong_hear]
        split at new
        · rw [if_pos ‹_›]
          exact Nat.le_of_eq (List.mem_singleton.mp new)
        · cases new
    last := by rw [Drive.lastPing_hear]; exact h.last.append _
    spaced := h.spaced.append (by rw [List.map_cons, timesOf_cons, pings]; simp [Event.isPing]) }

/-- A ping goes out just when it is due, since the time never passes that point. -/
theorem ping (h : Kept opened interval es c d) (now : c'.now = c.now)
    (settings : c'.settings = c.settings) (due : d.nextPing c.settings ≤ c.now) :
    Kept opened interval (es ++ [(c.now, .pinged)]) c' { d with lastPing := c.now } := by
  have soon := le_due_iff.mp h.soon
  have just : d.lastPing + interval = c.now := by
    rw [← h.interval_eq]
    exact Nat.le_antisymm due soon.2.2
  exact {
    interval_eq := settings ▸ h.interval_eq
    room := settings ▸ h.room
    soon := by
      rw [now, settings, le_due_iff]
      exact ⟨soon.1, soon.2.1, Nat.le_add_right _ _⟩
    ponged := h.ponged
    since := h.since
    framed := now ▸ h.framed
    pinged := Nat.le_of_eq now.symm
    pongs := by
      rw [timesOf_append, show timesOf Event.isPong [(c.now, .pinged)] = [] from rfl,
        List.append_nil]
      exact h.pongs
    last := .inr (by simp [timesOf, Event.isPing])
    spaced := h.spaced.append fun t pinged => by
      obtain rfl : t = c.now := by simpa [timesOf, Event.isPing] using pinged
      exact ⟨_, h.last, just⟩ }

theorem beat (h : Kept opened interval es c d) {a : Action} {new : List Event}
    (driving : c.carrier = .driving d)
    (soon : ∀ time, a = .advance time → c.now + time ≤ d.due c.settings)
    (beat : Beat c d a new c') (driving' : c'.carrier = .driving d') :
    Kept opened interval (es ++ new.map (c.now, ·)) c' d' := by
  cases beat with
  | passes time =>
    obtain rfl := Carrier.driving.inj (driving.symm.trans driving')
    have passed : Kept opened interval (es ++ [].map (c.now, ·)) { c with now := c.now + time }
        { d with writing := d.writing } :=
      h.calm (fun _ he => absurd he List.not_mem_nil) rfl (Nat.le_add_right _ _) (soon time rfl)
    exact passed
  | keeps now settings driving'' calm =>
    obtain rfl := Carrier.driving.inj (driving''.symm.trans driving')
    exact h.calm calm settings (Nat.le_of_eq now.symm) (now ▸ h.soon)
  | hears now settings driving'' calm =>
    obtain rfl := Carrier.driving.inj (driving''.symm.trans driving')
    exact h.hear calm now settings
  | pings now settings driving'' alive due =>
    obtain rfl := Carrier.driving.inj (driving''.symm.trans driving')
    exact h.ping now settings due
  | breaks cause now away => exact absurd driving' (away d')
  | closes now away => exact absurd driving' (away d')

theorem alive (h : Kept opened interval es c d) (pos : 0 < interval)
    (answered : ∀ t ∈ timesOf Event.isPing es, t + 2 * interval ≤ c.now →
      ∃ q ∈ timesOf Event.isPong es, t ≤ q) : c.now < d.lastPong + 3 * interval := by
  have since := h.since
  have sent := h.pinged
  have next : c.now ≤ d.lastPing + interval := h.interval_eq ▸ (le_due_iff.mp h.soon).2.2
  have heard (t : Nat) (mark : Mark opened es t) (late : t + 2 * interval ≤ c.now) :
      t ≤ d.lastPong := by
    obtain rfl | pinged := mark
    · exact since
    · obtain ⟨q, ponged, le⟩ := answered t pinged late
      exact Nat.le_trans le (h.pongs q ponged)
  obtain first | pinged := h.last
  · omega
  obtain ⟨y, marked, hy⟩ := h.spaced _ pinged
  have heard_y := heard y marked
  obtain first | pinged := marked
  · omega
  obtain ⟨z, marked, hz⟩ := h.spaced _ pinged
  have heard_z := heard z marked
  omega

end Kept

theorem kept_of_answer {b opened : Connection} {r : Except Failure ServerFrame} {d : Drive}
    (answer : b.step (.answer r) = some opened) (driving : opened.carrier = .driving d)
    (unset : opened.settings.pingIntervalMs = none)
    (base : Time.ofMillis 3 ≤ min opened.settings.readTimeout d.session.timeout) :
    Kept opened.now (opened.settings.pingInterval d.session.timeout) [] opened d := by
  obtain ⟨framed, ponged, pinged⟩ := clocks_of_answer answer driving
  have room : 3 * opened.settings.pingInterval d.session.timeout ≤
      min opened.settings.readTimeout d.session.timeout := by
    simp only [Settings.pingInterval, unset, Time.ofMillis] at base ⊢
    omega
  have soon : opened.now ≤ d.due opened.settings := by
    rw [le_due_iff, framed, ponged, pinged]
    simp only [Nat.le_add_right, and_self]
  exact {
    interval_eq := rfl
    room := (Nat.le_min.mp room).symm
    soon
    ponged := Nat.le_of_eq (ponged.trans framed.symm)
    since := Nat.le_of_eq ponged.symm
    framed := Nat.le_of_eq framed
    pinged := Nat.le_of_eq pinged
    pongs := fun t none => absurd none List.not_mem_nil
    last := .inl pinged
    spaced := fun t none => absurd none List.not_mem_nil }

theorem Watched.kept {opened c : Connection} {es : List (Nat × Event)} {interval : Nat}
    {d₀ d : Drive} (h : Watched opened es c) (fresh : opened.carrier = .driving d₀)
    (base : Kept opened.now interval [] opened d₀) (driving : c.carrier = .driving d) :
    Kept opened.now interval es c d := by
  induction h generalizing d with
  | start =>
    obtain rfl := Carrier.driving.inj (fresh.symm.trans driving)
    exact base
  | step before driving' soon beat ih => exact (ih driving').beat driving' soon beat driving

theorem Breaks.unlost {c : Connection} {d : Drive} {front : List Event} {f : Failure}
    (h : Breaks c d front f) (g : Failure) : ∀ e ∈ front, e.isLoss g = false := by
  cases h <;> simp [Event.isLoss]

theorem Beat.loss {c c' : Connection} {d : Drive} {a : Action} {new : List Event} {e : Event}
    {f : Failure} (h : Beat c d a new c') (here : e ∈ new) (loss : e.isLoss f = true) :
    ∃ front rest, Breaks c d front f ∧ c'.now = c.now ∧ (∀ e ∈ rest, e.isBeat = false) ∧
      new = front ++ .lost f :: rest := by
  have unlost {rest : List Event} (calm : ∀ e ∈ rest, e.isBeat = false) : e ∉ rest := fun he =>
    Bool.false_ne_true ((Event.isLoss_of_calm (calm e he) f).symm.trans loss)
  cases h with
  | passes => cases here
  | keeps now settings driving calm => exact absurd here (unlost calm)
  | hears now settings driving calm =>
    obtain rfl | here := List.mem_cons.mp here
    · cases loss
    · exact absurd here (unlost calm)
  | pings =>
    obtain rfl := List.mem_singleton.mp here
    cases loss
  | breaks cause now away calm =>
    rename_i g front rest
    obtain here | here := List.mem_append.mp here
    · exact absurd ((cause.unlost f e here).symm.trans loss) Bool.false_ne_true
    · obtain rfl | here := List.mem_cons.mp here
      · obtain rfl : g = f := of_decide_eq_true loss
        exact ⟨front, rest, cause, now, calm, rfl⟩
      · exact absurd here (unlost calm)
  | closes now away calm => exact absurd here (unlost calm)

/-- A session is lost in the last step that it is watched for. -/
theorem Watched.loss {opened c : Connection} {es : List (Nat × Event)} {t : Nat} {f : Failure}
    (h : Watched opened es c) (lost : t ∈ timesOf (Event.isLoss f) es) :
    ∃ (es' : List (Nat × Event)) (b : Connection) (d : Drive) (front rest : List Event),
      Watched opened es' b ∧ b.carrier = .driving d ∧ Breaks b d front f ∧
      (∀ e ∈ rest, e.isBeat = false) ∧ b.now = t ∧ c.now = t ∧
      es = es' ++ (front ++ .lost f :: rest).map (t, ·) := by
  cases h with
  | start => cases lost
  | step before driving soon beat =>
    rename_i es' b a d new
    rw [timesOf_append, before.unlost driving, List.nil_append] at lost
    obtain ⟨e, here, loss⟩ := mem_timesOf.mp lost
    obtain ⟨e, he, same⟩ := List.mem_map.mp here
    obtain ⟨rfl, rfl⟩ := Prod.mk.inj same
    obtain ⟨front, rest, cause, now, calm, rfl⟩ := beat.loss he loss
    exact ⟨es', b, d, front, rest, before, driving, cause, calm, rfl, now, rfl⟩

/-- When each ping is answered less than two intervals after it went out, a session that was just
opened is kept alive: it ends neither because nothing was heard nor because it is out of time, but
for the server that ends it. The interval is a third of the shorter timeout. -/
theorem kept_alive {b opened c : Connection} {r : Except Failure ServerFrame} {d : Drive}
    {interval : Nat} {actions : List Action} (answer : b.step (.answer r) = some opened)
    (driving : opened.carrier = .driving d)
    (unset : opened.settings.pingIntervalMs = none)
    (base : Time.ofMillis 3 ≤ min opened.settings.readTimeout d.session.timeout)
    (third : opened.settings.pingInterval d.session.timeout = interval)
    (run : opened.run actions = some c) (prompt : opened.punctual actions = true)
    (answered : ∀ t ∈ timesOf Event.isPing (opened.timeline actions), t + 2 * interval ≤ c.now →
      ∃ q ∈ timesOf Event.isPong (opened.timeline actions), t ≤ q ∧ q < t + 2 * interval)
    {f : Failure} {t : Nat} (lost : t ∈ timesOf (Event.isLoss f) (opened.timeline actions)) :
    (∀ ms, f ≠ .readTimeout ms) ∧
      (f = .sessionExpired → ∃ front rest, opened.timeline actions =
        front ++ (t, .received .sessionExpired) :: (t, .lost .sessionExpired) :: rest) := by
  have watched : Watched opened ([] ++ opened.timeline actions) c := .run .start run prompt
  rw [List.nil_append] at watched
  obtain ⟨es, l, e, front, rest, before, driving', cause, calm, rfl, ended, told⟩ :=
    watched.loss lost
  have kept := before.kept driving (third ▸ kept_of_answer answer driving unset base) driving'
  have pos : 0 < interval := third ▸ opened.settings.pingInterval_pos _
  have room := kept.room
  -- A clock that has run out would be one of a session in which a pong came too late.
  have alive (silent : front = []) : l.now < e.lastPong + 3 * interval := by
    have pongs : timesOf Event.isPong (opened.timeline actions) = timesOf Event.isPong es := by
      have rest := timesOf_map (fun e he => Event.isPong_of_calm (calm e he)) l.now
      rw [told, silent, List.nil_append, List.map_cons, timesOf_append, timesOf_cons, rest]
      simp [Event.isPong]
    refine kept.alive pos fun t pinged late => ?_
    have pinged' : t ∈ timesOf Event.isPing (opened.timeline actions) := by
      rw [told, timesOf_append]
      exact List.mem_append_left _ pinged
    obtain ⟨q, ponged, le, -⟩ := answered t pinged' (ended.symm ▸ late)
    exact ⟨q, pongs ▸ ponged, le⟩
  cases cause with
  | cut text => exact ⟨fun ms => nofun, nofun⟩
  | pushed =>
    refine ⟨fun ms => nofun, fun _ => ⟨es, rest.map (l.now, ·), ?_⟩⟩
    rw [told]
    rfl
  | expired due =>
    have := alive rfl
    unfold Drive.expiry at due
    omega
  | silent due =>
    have := alive rfl
    have := kept.ponged
    unfold Drive.silenceEnd at due
    omega

/-- Pings go out after four, eight and twelve seconds. The first one is answered when the session
has a nanosecond left; then the session goes on until the server ends it. -/
theorem kept_alive_of_late_pong : ∃ (opened c : Connection) (actions : List Action),
    opened.run actions = some c ∧ c.now = Time.ofMillis 12000 ∧
    timesOf Event.isPing (opened.timeline actions) =
      [Time.ofMillis 4000, Time.ofMillis 8000, Time.ofMillis 12000] ∧
    timesOf Event.isPong (opened.timeline actions) = [Time.ofMillis 12000 - 1] ∧
    ∃ front rest, opened.timeline actions = front ++
      (Time.ofMillis 12000, .received .sessionExpired) ::
        (Time.ofMillis 12000, .lost .sessionExpired) :: rest := by
  let third := Time.ofMillis 4000
  let actions : List Action := [.advance third, .tick (.ok ()), .advance third, .tick (.ok ()),
    .advance (third - 1), .receive (.ok .pong), .advance 1, .tick (.ok ()),
    .receive (.ok .sessionExpired)]
  have outcome : ((start {} { endpoints := [⟨"a", 1⟩], nonempty := by simp }).run
      [.callConnect 1000, .enter, .seek, .seek, .seek]).bind (fun b => (b.step (.answer (.ok
        (.connected { sessionId := 7, sessionTimeoutMs := 12000 })))).bind fun opened =>
      (opened.run actions).map fun c =>
        ((opened.pursuit, opened.settings.pingIntervalMs, opened.settings.readTimeout),
          (opened.punctual actions, c.now),
          timesOf Event.isPing (opened.timeline actions),
          timesOf Event.isPong (opened.timeline actions),
          timesOf (Event.isLoss .sessionExpired) (opened.timeline actions))) =
      some ((.driving ⟨⟨"a", 1⟩, 7, Time.ofMillis 12000, false⟩, none, Time.ofMillis 20000),
        (true, Time.ofMillis 12000),
        [Time.ofMillis 4000, Time.ofMillis 8000, Time.ofMillis 12000], [Time.ofMillis 12000 - 1],
        [Time.ofMillis 12000]) := by
    decide +kernel
  obtain ⟨b, -, outcome⟩ := Option.bind_eq_some_iff.mp outcome
  obtain ⟨opened, answer, outcome⟩ := Option.bind_eq_some_iff.mp outcome
  obtain ⟨c, run, facts⟩ := Option.map_eq_some_iff.mp outcome
  simp only [Prod.mk.injEq] at facts
  obtain ⟨⟨driving, unset, silence⟩, ⟨prompt, now⟩, pings, pongs, losses⟩ := facts
  obtain ⟨d, driving, same⟩ := pursuit_eq_driving.mp driving
  have interval : opened.settings.pingInterval d.session.timeout = third := by
    simp only [Settings.pingInterval, unset, silence, same]
    decide
  have answered : ∀ t ∈ timesOf Event.isPing (opened.timeline actions), t + 2 * third ≤ c.now →
      ∃ q ∈ timesOf Event.isPong (opened.timeline actions), t ≤ q ∧ q < t + 2 * third := by
    rw [pings, pongs, now]
    decide
  obtain ⟨-, pushed⟩ := kept_alive answer driving unset (by rw [silence, same]; decide) interval run
    prompt answered (f := .sessionExpired) (by rw [losses]; exact List.mem_singleton_self _)
  exact ⟨opened, c, actions, run, now, pings, pongs, pushed rfl⟩

/-- Had the first pong come a nanosecond later, just when the third ping is due, the session would
have been out of time. -/
example : ((start {} { endpoints := [⟨"a", 1⟩], nonempty := by simp }).run
    [.callConnect 1000, .enter, .seek, .seek, .seek,
      .answer (.ok (.connected { sessionId := 7, sessionTimeoutMs := 12000 })),
      .advance (Time.ofMillis 4000), .tick (.ok ()), .advance (Time.ofMillis 4000), .tick (.ok ()),
      .advance (Time.ofMillis 4000), .tick (.ok ())]).map
    (·.log.any (Event.isLoss .sessionExpired)) = some true := by decide +kernel

end ServiceDirectory.Connection
