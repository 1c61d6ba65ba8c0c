import ServiceDirectory.Proofs.Roster
import ServiceDirectory.Proofs.Connection.Sends
import ServiceDirectory.Proofs.Connection.Strides

/-! The attempts of a connection, and the endpoints that turned down the credentials. The connection
keeps a list of just those that did, and no attempt is made on any of them from then on. -/
namespace ServiceDirectory.Connection

def Event.attempted? : Event → Option Endpoint
  | .attempted e _ => some e
  | _ => none

def Event.refusedBy? : Event → Option Endpoint
  | .attemptFailed e (.authFailed _ _) => some e
  | _ => none

def attempts (c : Connection) : List Endpoint := c.history.filterMap Event.attempted?

def refusals (c : Connection) : List Endpoint := c.history.filterMap Event.refusedBy?

theorem Apart.attempts {c c' : Connection} (h : Apart c c') : c'.attempts = c.attempts :=
  h.view fun e other => by cases e <;> first | rfl | cases other

theorem Apart.refusals {c c' : Connection} (h : Apart c c') : c'.refusals = c.refusals :=
  h.view fun e other => by cases e <;> first | rfl | cases other

theorem attempts_attemptFailed (c : Connection) (s : Search) (e : Endpoint) (f : Failure) :
    (c.attemptFailed s e f).attempts = c.attempts :=
  (c.apart_attemptFailed s e f).attempts

theorem refusals_attemptFailed (c : Connection) (s : Search) (e : Endpoint) (f : Failure) :
    (c.attemptFailed s e f).refusals = if f.isAuth then e :: c.refusals else c.refusals := by
  rw [(c.apart_attemptFailed s e f).refusals]
  cases f <;> rfl

theorem rejected_attemptFailed (c : Connection) (s : Search) (e : Endpoint) (f : Failure) :
    (c.attemptFailed s e f).rejected = if f.isAuth then e :: c.rejected else c.rejected :=
  (c.apart_attemptFailed s e f).rejected

/-- What a step does to the attempts: none begins or fails, one begins on an endpoint of the roster
that has not turned down the credentials, or one fails. -/
inductive Trial (c c' : Connection) : Prop where
  | kept (attempts : c'.attempts = c.attempts) (rejected : c'.rejected = c.rejected)
    (refusals : c'.refusals = c.refusals)
  | began {e} (listed : e ∈ c.roster.endpoints) (accepted : e ∉ c.rejected)
    (attempts : c'.attempts = e :: c.attempts) (rejected : c'.rejected = c.rejected)
    (refusals : c'.refusals = c.refusals)
  | failed {s e f} (ends : c' = c.attemptFailed s e f)

theorem Stride.trial {c c' : Connection} {a : Action} (stride : Stride c a c') : Trial c c' := by
  have apart {b : Connection} (q : Apart b c') (attempts : b.attempts = c.attempts)
      (rejected : b.rejected = c.rejected) (refusals : b.refusals = c.refusals) : Trial c c' :=
    .kept (q.attempts.trans attempts) (q.rejected.trans rejected) (q.refusals.trans refusals)
  cases stride with
  | apart other q | asked cause q | lost other driving q | ended other away q =>
    exact apart q rfl rfl rfl
  | replaced | sought | begun | waited | counted | passedOver => exact .kept rfl rfl rfl
  | spent | deserted => exact apart (apart_searchFailed _ _ _) rfl rfl rfl
  | chose seeking drawing accepted =>
    exact .began (List.get_mem _ _) accepted rfl rfl rfl
  | opened => exact apart (apart_openSession _ _ _) rfl rfl rfl
  | failed | timedOut => exact .failed rfl
  | stopped => exact apart (apart_searchStopped _ _) rfl rfl rfl

/-- The endpoints that are passed over are those that turned down the credentials. -/
theorem Reachable.rejected {settings : Settings} {roster : Roster} {c : Connection}
    (h : Reachable settings roster c) : c.rejected = c.refusals := by
  induction h with
  | start => rfl
  | step a _ taken ih =>
    cases (stride_of_step taken).trial with
    | kept _ rejected refusals => rw [rejected, refusals, ih]
    | began _ _ _ rejected refusals => rw [rejected, refusals, ih]
    | failed ends => rw [ends, rejected_attemptFailed, refusals_attemptFailed, ih]

theorem Trial.rejected_mono {c c' : Connection} (trial : Trial c c') :
    c.rejected ⊆ c'.rejected := by
  cases trial with
  | kept _ rejected _ => exact rejected ▸ List.Subset.refl _
  | began _ _ _ rejected _ => exact rejected ▸ List.Subset.refl _
  | @failed s e f ends =>
    rw [ends, rejected_attemptFailed]
    split
    · exact List.subset_cons_self e _
    · exact List.Subset.refl _

theorem attempts_of_run {c d : Connection} {actions : List Action} {e : Endpoint}
    (he : e ∈ c.rejected) (run : c.run actions = some d) :
    ∃ later, d.attempts = later ++ c.attempts ∧ e ∉ later := by
  have kept : e ∈ d.rejected ∧ ∃ later, d.attempts = later ++ c.attempts ∧ e ∉ later := by
    refine run_invariant (P := fun d => e ∈ d.rejected ∧
      ∃ later, d.attempts = later ++ c.attempts ∧ e ∉ later) (fun a hb taken => ?_)
      ⟨he, [], rfl, List.not_mem_nil⟩ run
    obtain ⟨refused, later, attempts, never⟩ := hb
    have trial := (stride_of_step taken).trial
    refine ⟨trial.rejected_mono refused, ?_⟩
    cases trial with
    | kept same => exact ⟨later, same.trans attempts, never⟩
    | @began x listed accepted one =>
      refine ⟨x :: later, one.trans (congrArg (x :: ·) attempts), ?_⟩
      have other : e ≠ x := fun same => accepted (same ▸ refused)
      exact List.not_mem_cons_of_ne_of_not_mem other never
    | failed ends =>
      exact ⟨later, by rw [ends, attempts_attemptFailed, attempts], never⟩
  exact kept.2

theorem Reachable.attempt_lt {settings : Settings} {roster : Roster} {c : Connection}
    (h : Reachable settings roster c) {s : Search} (seeking : c.carrier = .seeking s)
    (moved : s.phase ≠ .ready) : s.attempt < c.settings.retry.totalAttempts := by
  induction h generalizing s with
  | start => cases seeking
  | step a _ taken ih =>
    rw [(move_of_step taken).settings]
    cases (stride_of_step taken).emerges seeking with
    | kept before => exact ih before moved
    | sought idle ready => exact absurd ready moved
    | lost driving ready resumes => exact absurd ready moved
    | @wentOn _ old s before resumes attempt left =>
      rw [attempt]
      by_cases ready : old.phase = .ready
      · exact left ready
      · exact ih before ready
    | gaveUp before resumes ready => exact absurd ready moved

end ServiceDirectory.Connection
