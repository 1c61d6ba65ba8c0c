import ServiceDirectory.Proofs.Connection.Choices

/-! Endpoints that turn down the credentials. No attempt is made on any of them from then on. A
search that has an attempt left is given up for want of endpoints when it has drawn as many as it
counted and all of them had turned down the credentials; these are all of the roster, unless it was
replaced in between. -/
namespace ServiceDirectory.Connection

theorem Stride.vain {c c' : Connection} {a : Action} (stride : Stride c a c') {s : Search}
    (seeking : c.carrier = .seeking s) (rests : c'.carrier = aftermath s) :
    c.shutdown = true ∨ c.settings.retry.totalAttempts ≤ s.attempt ∨
      (∃ d ∈ s.deadline, d ≤ c.now + c.settings.retry.backoff s.attempt) ∨
      a = .seek ∧ s.phase = .drawing 0 := by
  -- A step that leads to a search has not ended one.
  have goesOn {b : Connection} {s' : Search} (q : Apart b c') (hb : b.pursuit = .seeking s') :
      False := by
    have still : c'.carrier = .seeking s' := pursuit_eq_seeking.mp (q.pursuit.trans hb)
    exact aftermath_ne_seeking s s' (rests.symm.trans still)
  have same {s' : Search} (other : c.carrier = .seeking s') : s' = s :=
    Carrier.seeking.inj (other.symm.trans seeking)
  cases stride with
  | apart other q => exact (goesOn q (pursuit_eq_seeking.mpr seeking)).elim
  | replaced update => exact (goesOn (.refl _) (pursuit_eq_seeking.mpr seeking)).elim
  | asked cause q => exact (goesOn q (pursuit_eq_seeking.mpr seeking)).elim
  | sought idle timeout => cases seeking.symm.trans idle
  | lost other driving q => cases seeking.symm.trans driving
  | ended other away q => exact absurd seeking (away s)
  | begun other ready begins => exact (goesOn (.refl _) rfl).elim
  | spent other ready begins =>
    obtain rfl := same other
    rcases Search.failed_of_begin begins with none | ⟨-, late⟩
    · exact .inr (.inl none)
    · exact .inr (.inr (.inl late))
  | waited other pausing passed => exact (goesOn (.refl _) rfl).elim
  | counted | passedOver | chose => exact (goesOn (.refl _) rfl).elim
  | deserted other none =>
    obtain rfl := same other
    exact .inr (.inr (.inr ⟨rfl, none⟩))
  | opened other shakes accepts =>
    obtain ⟨d, driving, -⟩ := pursuit_eq_driving.mp (apart_openSession _ _ _).pursuit
    exact absurd (rests.symm.trans driving) (aftermath_ne_driving s d)
  | failed other shakes fails => exact (goesOn (apart_attemptFailed _ _ _ _) rfl).elim
  | timedOut other shakes passed => exact (goesOn (apart_attemptFailed _ _ _ _) rfl).elim
  | stopped stops other asked => exact .inl asked

/-- What the next step of a choice comes to: the search is given up, another endpoint is drawn in
vain, or an attempt on it begins. -/
inductive Choice.Next (c : Connection) (s : Search) (replaced : Bool) (drawn : List Endpoint)
    (b b' : Connection) : Prop where
  | givenUp (all : drawn.length = c.roster.size) (rests : b'.carrier = aftermath s)
  | vain (left : drawn.length < c.roster.size) (refused : b.roster.peek ∈ c.refusals)
    (on : Choice c replaced (b.roster.peek :: drawn) b')
  | begun (left : drawn.length < c.roster.size) (accepted : b.roster.peek ∉ c.refusals)
    (attempts : b'.attempts = b.roster.peek :: c.attempts) (away : b'.carrier ≠ aftermath s)

section

variable {settings : Settings} {roster : Roster} {c b : Connection} {s : Search} {replaced : Bool}
  {drawn : List Endpoint}

theorem Reachable.exists_next (h : Reachable settings roster c) (choice : Choice c replaced drawn b)
    (seeking : c.carrier = .seeking s) :
    ∃ b', b.step .seek = some b' ∧ Choice.Next c s replaced drawn b b' := by
  obtain ⟨s', seeking', -, stands⟩ := choice.exists_search
  obtain rfl := Carrier.seeking.inj (seeking.symm.trans seeking')
  have known : b.rejected = c.refusals := stands.rejected.trans h.rejected
  by_cases all : drawn.length = c.roster.size
  · obtain ⟨b', taken, -, rests⟩ := stands.ends all
    exact ⟨b', taken, .givenUp all rests⟩
  have left := Nat.lt_of_le_of_ne stands.few all
  by_cases refused : b.roster.peek ∈ b.rejected
  · exact ⟨_, stands.step_seek left,
      .vain left (known ▸ refused) (.draws choice left refused (stands.step_seek left))⟩
  · obtain ⟨b', taken, attempts, away⟩ := stands.begins left refused
    exact ⟨b', taken, .begun left (known ▸ refused) attempts (away s)⟩

theorem Choice.Next.drawn_all {b' : Connection} (next : Choice.Next c s replaced drawn b b')
    (rests : b'.carrier = aftermath s) : drawn.length = c.roster.size := by
  cases next with
  | givenUp all => exact all
  | vain left refused on =>
    obtain ⟨s', -, -, stands⟩ := on.exists_search
    exact absurd (rests.symm.trans stands.seeking) (aftermath_ne_seeking s _)
  | begun left accepted attempts away => exact absurd rests away

/-- If the roster is not replaced, a choice is given up if and only if all of it have turned down
the credentials. -/
theorem Reachable.exists_run_of_choosing (h : Reachable settings roster c)
    (seeking : c.carrier = .seeking s) (choosing : s.phase = .choosing) :
    ∃ n c', c.run (List.replicate n .seek) = some c' ∧
      (c'.carrier = aftermath s ↔ ∀ e ∈ c.roster.endpoints, e ∈ c.refusals) ∧
      (c'.carrier = aftermath s ∨
        ∃ x ∈ c.roster.endpoints, x ∉ c.refusals ∧ c'.attempts = x :: c.attempts) := by
  have nobody := find?_admits_eq_none (c := c)
  rw [h.rejected] at nobody
  obtain ⟨n, c', run, ends⟩ := Connection.exists_run_of_choosing seeking choosing
  refine ⟨n, c', run, ?_⟩
  cases found : c.roster.round.find? c.admits with
  | none =>
    rw [found] at ends
    exact ⟨iff_of_true ends (nobody.mp found), .inl ends⟩
  | some x =>
    rw [found] at ends
    have listed := Roster.mem_round.mp (List.mem_of_find?_eq_some found)
    have accepted : x ∉ c.refusals := h.rejected ▸ admits_eq_true.mp (List.find?_some found)
    exact ⟨iff_of_false ends.2 fun all => accepted (all x listed),
      .inr ⟨x, listed, accepted, ends.1⟩⟩

end

/-- An endpoint that answers a handshake by turning down the credentials gets no attempt from then
on. Wherever a search is given up, the connection is to be closed, no attempt is left, the next one
would begin too late, or a choice has drawn as many endpoints as it counted. A choice is made with
an attempt left, and all that it draws in vain have turned down the credentials, whatever others do
to the roster in between. If it is not replaced, the search is given up there just when all of the
roster have turned them down. -/
theorem Reachable.refusals_final {settings : Settings} {roster : Roster} {c : Connection}
    (h : Reachable settings roster c) :
    (∀ reason c', c.step (.answer (.ok (.authFailed reason))) = some c' →
      ∃ s e stop, c.carrier = .seeking s ∧ s.phase = .handshake e stop ∧
        c'.refusals = e :: c.refusals ∧
        ∀ actions d, c'.run actions = some d →
          ∃ later, d.attempts = later ++ c'.attempts ∧ e ∉ later) ∧
    ∀ s, c.carrier = .seeking s →
      (∀ a c', c.step a = some c' → c'.carrier = aftermath s →
        c.shutdown = true ∨ c.settings.retry.totalAttempts ≤ s.attempt ∨
          (∃ d ∈ s.deadline, d ≤ c.now + c.settings.retry.backoff s.attempt) ∨
          a = .seek ∧ ∃ b replaced drawn, Choice b replaced drawn c ∧
            drawn.length = b.roster.size) ∧
      (s.phase = .choosing → s.attempt < c.settings.retry.totalAttempts ∧
        (∃ n c', c.run (List.replicate n .seek) = some c' ∧
          (c'.carrier = aftermath s ↔ ∀ e ∈ c.roster.endpoints, e ∈ c.refusals) ∧
          (c'.carrier = aftermath s ∨
            ∃ x ∈ c.roster.endpoints, x ∉ c.refusals ∧ c'.attempts = x :: c.attempts)) ∧
        ∀ replaced drawn b, Choice c replaced drawn b → (∀ e ∈ drawn, e ∈ c.refusals) ∧
          ∃ b', b.step .seek = some b' ∧ Choice.Next c s replaced drawn b b' ∧
            (replaced = false →
              (b'.carrier = aftermath s → ∀ e ∈ c.roster.endpoints, e ∈ c.refusals) ∧
              ((∀ e ∈ c.roster.endpoints, e ∈ c.refusals) →
                drawn.length < c.roster.size → b.roster.peek ∈ c.refusals))) := by
  have known := h.rejected
  refine ⟨fun reason c' taken => ?_, fun s seeking => ⟨fun a c' taken rests => ?_, fun choosing =>
    ⟨h.attempt_lt seeking (by simp [choosing]), h.exists_run_of_choosing seeking choosing,
      fun replaced drawn b choice => ?_⟩⟩⟩
  · have next := h.step _ taken
    cases stride_of_step taken with
    | apart other | lost other | ended other => cases other
    | asked cause q => rcases cause with h | h <;> cases h
    | stopped stops => rcases stops with h | h <;> cases h
    | @failed s e stop _ f seeking shakes fails =>
      obtain rfl : Failure.authFailed e reason = f := Except.error.inj fails
      have refused : (c.attemptFailed s e (.authFailed e reason)).refusals = e :: c.refusals :=
        c.refusals_attemptFailed s e _
      refine ⟨s, e, stop, seeking, shakes, refused, fun actions d run => ?_⟩
      refine attempts_of_run ?_ run
      rw [next.rejected, refused]
      exact List.mem_cons_self
    | opened seeking shakes accepts => cases accepts
  · rcases (stride_of_step taken).vain seeking rests with asked | none | late | ⟨rfl, drawing⟩
    · exact .inl asked
    · exact .inr (.inl none)
    · exact .inr (.inr (.inl late))
    · obtain ⟨b, replaced, drawn, choice, count⟩ := h.chooses s 0 seeking drawing
      exact .inr (.inr (.inr ⟨rfl, b, replaced, drawn, choice, (Nat.zero_add _).symm.trans count⟩))
  · obtain ⟨b', taken, next⟩ := h.exists_next choice seeking
    obtain ⟨s', seeking', -, stands⟩ := choice.exists_search
    refine ⟨known ▸ stands.refused, b', taken, next, ?_⟩
    rintro rfl
    refine ⟨fun rests => ?_, fun all _ => all _ (choice.peek_mem rfl)⟩
    exact known ▸ find?_admits_eq_none.mp (choice.find?_eq_none (next.drawn_all rests))

/-- The only server turns down the credentials, so that the next call to connect ends before its
one attempt. -/
theorem refusals_final_single : ∃ (c c' d d' : Connection) (n : Nat),
    Reachable { retry := { maxRetries := 0 } }
      { endpoints := [⟨"localhost", 7000⟩], nonempty := by simp } c ∧
    c.step (.answer (.ok (.authFailed "expired"))) = some c' ∧
    c'.run [.seek, .callConnect 1000, .enter, .seek] = some d ∧
    (∃ later, d.attempts = later ++ c'.attempts ∧ ⟨"localhost", 7000⟩ ∉ later) ∧
    d.run (List.replicate n .seek) = some d' ∧ d'.carrier = .free := by
  have outcome : ((start { retry := { maxRetries := 0 } }
      { endpoints := [⟨"localhost", 7000⟩], nonempty := by simp }).run
      [.callConnect 1000, .enter, .seek, .seek, .seek]).bind (fun c =>
        (c.step (.answer (.ok (.authFailed "expired")))).bind fun c' =>
          (c'.run [.seek, .callConnect 1000, .enter, .seek]).map fun d =>
            (c'.refusals, d.refusals, d.roster.endpoints, d.pursuit)) =
      some ([⟨"localhost", 7000⟩], [⟨"localhost", 7000⟩], [⟨"localhost", 7000⟩],
        .seeking { Search.initial 0 1000 with phase := .choosing }) := by decide +kernel
  obtain ⟨c, run, outcome⟩ := Option.bind_eq_some_iff.mp outcome
  obtain ⟨c', taken, outcome⟩ := Option.bind_eq_some_iff.mp outcome
  obtain ⟨d, later, facts⟩ := Option.map_eq_some_iff.mp outcome
  simp only [Prod.mk.injEq] at facts
  obtain ⟨refused, known, listed, seeking⟩ := facts
  have reached := Reachable.start.run run
  obtain ⟨s, e, stop, -, -, refusals, never⟩ := reached.refusals_final.1 "expired" c' taken
  obtain rfl : e = ⟨"localhost", 7000⟩ := (List.cons.inj (refusals.symm.trans refused)).1
  have next := (reached.step _ taken).run later
  obtain ⟨-, choice⟩ := next.refusals_final.2 _ (pursuit_eq_seeking.mp seeking)
  obtain ⟨-, ⟨n, d', ended, rests, -⟩, -⟩ := choice rfl
  refine ⟨c, c', d, d', n, reached, taken, later, never _ _ later, ended, rests.mpr ?_⟩
  rw [listed, known]
  exact fun e he => he

/-- The roster is replaced by the same one between the two draws of a choice: the one endpoint is
drawn twice, and the call to connect is told that all turned down the credentials, which the other
one did not. -/
theorem exists_deserted_of_replaced : ∃ (c : Connection) (s : Search),
    Reachable { retry := { maxRetries := 0 } }
      { endpoints := [⟨"x", 1⟩, ⟨"a", 2⟩], nonempty := by simp } c ∧
    c.carrier = .seeking s ∧ s.attempt < c.settings.retry.totalAttempts ∧ s.phase = .drawing 0 ∧
    c.shutdown = false ∧ c.roster.endpoints = [⟨"x", 1⟩, ⟨"a", 2⟩] ∧ c.refusals = [⟨"x", 1⟩] ∧
    c.step .seek =
      some (c.connectFailed (.connectionLoss "every endpoint rejected authentication")) := by
  have outcome : ((start { retry := { maxRetries := 0 } }
      { endpoints := [⟨"x", 1⟩, ⟨"a", 2⟩], nonempty := by simp }).run
      [.callConnect 1000, .enter, .seek, .seek, .seek, .answer (.ok (.authFailed "denied")), .seek,
        .updateRoster [⟨"x", 1⟩, ⟨"a", 2⟩], .callConnect 1000, .enter, .seek, .seek, .seek,
        .updateRoster [⟨"x", 1⟩, ⟨"a", 2⟩], .seek]).map (fun c =>
      (c.pursuit, c.settings.retry.totalAttempts, c.shutdown, c.roster.endpoints, c.refusals)) =
      some (.seeking { Search.initial 0 1000 with phase := .drawing 0 }, 1, false,
        [⟨"x", 1⟩, ⟨"a", 2⟩], [⟨"x", 1⟩]) := by decide +kernel
  obtain ⟨c, run, facts⟩ := Option.map_eq_some_iff.mp outcome
  simp only [Prod.mk.injEq] at facts
  obtain ⟨seeking, total, awake, listed, refused⟩ := facts
  have seeking := pursuit_eq_seeking.mp seeking
  exact ⟨c, _, Reachable.start.run run, seeking, total ▸ Nat.one_pos, rfl, awake, listed, refused,
    step_seek_of_none seeking rfl⟩

end ServiceDirectory.Connection
