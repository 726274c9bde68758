import Mathlib.Tactic.Common
import PhaseKeeper.Proofs.Message.Notices
import PhaseKeeper.Worker.Runner
/-!
The life of a worker, over every order of what its three tasks, its publisher and the one who asks it to
shut down can do. What has been noticed is a function of how often the health was published and of how
far the main task has come.
-/
namespace PhaseKeeper.Runner

abbrev Log := List (Action × List Note)

inductive Reached (config : WorkerConfig) : Log → State → Prop where
  | initial : Reached config [] .initial
  | step {log : Log} {s t : State} {notes : List Note} (h : Reached config log s) (a : Action)
    (hstep : step? config s a = some (notes, t)) : Reached config (log ++ [(a, notes)]) t

def noted (log : Log) : List Note := log.flatMap Prod.snd

def starts (log : Log) : List (Except BusFault Unit) :=
  log.filterMap fun (a, _) => match a with
    | .started result => some result
    | _ => none

def Action.isRequest : Action → Bool
  | .request => true
  | _ => false

def Requested (log : Log) : Prop := ∃ e ∈ log, e.1.isRequest = true

@[simp] theorem noted_append (log : Log) (a : Action) (notes : List Note) :
    noted (log ++ [(a, notes)]) = noted log ++ notes := by
  simp [noted]

@[simp] theorem starts_started (log : Log) (result : Except BusFault Unit) (notes : List Note) :
    starts (log ++ [(.started result, notes)]) = starts log ++ [result] := by
  simp [starts]

theorem starts_other {a : Action} (h : ∀ result, a ≠ .started result) (log : Log)
    (notes : List Note) : starts (log ++ [(a, notes)]) = starts log := by
  cases a <;> simp_all [starts]

@[simp] theorem requested_append (log : Log) (a : Action) (notes : List Note) :
    Requested (log ++ [(a, notes)]) ↔ Requested log ∨ a.isRequest = true := by
  simp [Requested, or_and_right, exists_or]

section
variable {config : WorkerConfig} {log : Log} {s t : State} {a : Action} {notes : List Note}

inductive Moves (config : WorkerConfig) (s : State) : Action → List Note → State → Prop where
  | start (hmain : s.main = .starting) :
    Moves config s (.started (.ok ())) [.attempted (ping config .healthy)] { s with main := .greeting }
  | fail (cause : BusFault) (hmain : s.main = .starting) :
    Moves config s (.started (.error cause)) [] { s with main := .finished (.error cause) }
  | greeted (result : Except BusFault Unit) (hmain : s.main = .greeting) :
    Moves config s (.published result) []
      { s with main := .serving, health := .waiting, signal := .listening }
  | left (result : Except BusFault Unit) (hmain : s.main = .leaving) :
    Moves config s (.published result) [] { s with main := .finished (.ok ()) }
  | request : Moves config s .request [] { s with requested := true }
  | hear (hsignal : s.signal = .listening) (hrequested : s.requested = true) :
    Moves config s .hear [] { s with signal := .ended, requested := false, woken := true }
  | tick (hhealth : s.health = .waiting) :
    Moves config s .tick [.attempted (ping config .healthy)] { s with health := .pinging }
  | pinged (result : Except BusFault Unit) (hhealth : s.health = .pinging) :
    Moves config s (.pinged result) [] { s with health := .waiting }
  | wake (hmain : s.main = .serving) (hwoken : s.woken = true) :
    Moves config s .wake [.stopCalled]
      { s with main := .stopping, health := .aborted, signal := .aborted, woken := false }
  | stopped (result : StopResult) (hmain : s.main = .stopping) :
    Moves config s (.stopEnded result) [.attempted (ping config .unhealthy)]
      { s with main := .leaving }

theorem step?_eq_some_iff : step? config s a = some (notes, t) ↔ Moves config s a notes t := by
  constructor
  · intro h
    cases a with
    | started result =>
      simp only [step?] at h
      split at h <;> cases h
      · exact .start ‹_›
      · exact .fail _ ‹_›
    | published result =>
      simp only [step?] at h
      split at h <;> cases h
      · exact .greeted result ‹_›
      · exact .left result ‹_›
    | request =>
      cases h
      exact .request
    | hear =>
      obtain ⟨⟨hsignal, hrequested⟩, h⟩ := Option.ite_none_right_eq_some.1 h
      cases h
      exact .hear hsignal hrequested
    | tick =>
      obtain ⟨hhealth, h⟩ := Option.ite_none_right_eq_some.1 h
      cases h
      exact .tick hhealth
    | pinged result =>
      obtain ⟨hhealth, h⟩ := Option.ite_none_right_eq_some.1 h
      cases h
      exact .pinged result hhealth
    | wake =>
      simp only [step?] at h
      split at h
      · obtain ⟨hwoken, h⟩ := Option.ite_none_right_eq_some.1 h
        cases h
        exact .wake ‹_› hwoken
      · cases h
    | stopEnded result =>
      simp only [step?] at h
      split at h <;> cases h
      exact .stopped result ‹_›
  · intro h
    cases h <;> simp_all [step?]

def MainTask.start? : MainTask → Option (Except BusFault Unit)
  | .starting => none
  | .finished (.error cause) => some (.error cause)
  | _ => some (.ok ())

def MainTask.farewell (config : WorkerConfig) : MainTask → List Note
  | .stopping => [.stopCalled]
  | .leaving | .finished (.ok ()) => [.stopCalled, .attempted (ping config .unhealthy)]
  | _ => []

def healthyPings (config : WorkerConfig) (n : Nat) : List Note :=
  List.replicate n (.attempted (ping config .healthy))

theorem healthyPings_succ (config : WorkerConfig) (n : Nat) :
    healthyPings config n ++ [.attempted (ping config .healthy)] = healthyPings config (n + 1) :=
  List.replicate_succ'.symm

/-- A request to shut down is still unheard, on its way to the main task, or it has had its effect. The
other two tasks live only while the main task serves. -/
structure Account (config : WorkerConfig) (log : Log) (s : State) : Prop where
  starts : starts log = s.main.start?.toList
  noted : ∃ n, noted log = healthyPings config n ++ s.main.farewell config ∧
    (0 < n ↔ s.main.start? = some (.ok ()))
  requested : Requested log ↔ s.requested = true ∨ s.woken = true ∨ s.main.farewell config ≠ []
  health : s.health = .waiting ∨ s.health = .pinging → s.main = .serving
  signal : s.signal = .listening → s.main = .serving
  woken : s.woken = true ↔ s.main = .serving ∧ s.signal ≠ .listening

theorem Account.initial (config : WorkerConfig) : Account config [] .initial where
  starts := rfl
  noted := ⟨0, rfl, by simp [State.initial, MainTask.start?]⟩
  requested := by simp [Requested, State.initial, MainTask.farewell]
  health := by simp [State.initial]
  signal := by simp [State.initial]
  woken := by simp [State.initial]

theorem Account.starts_step (h : Account config log s) (hm : Moves config s a notes t) :
    Runner.starts (log ++ [(a, notes)]) = t.main.start?.toList := by
  have hstarts := h.starts
  cases hm <;> simp_all [starts_other, MainTask.start?]

theorem Account.noted_step (h : Account config log s) (hm : Moves config s a notes t) :
    ∃ n, Runner.noted (log ++ [(a, notes)]) = healthyPings config n ++ t.main.farewell config ∧
      (0 < n ↔ t.main.start? = some (.ok ())) := by
  obtain ⟨n, hnoted, hn⟩ := h.noted
  rw [noted_append, hnoted]
  -- A tick comes only while the main task serves, so its ping stands next to the others.
  cases hm with
  | start hmain =>
    have h0 : n = 0 := by simpa [hmain, MainTask.start?] using hn
    exact ⟨1, by simp [h0, hmain, MainTask.farewell, healthyPings], by simp [MainTask.start?]⟩
  | tick hhealth =>
    have hmain := h.health (.inl hhealth)
    refine ⟨n + 1, ?_, by simp [hmain, MainTask.start?]⟩
    simp [hmain, MainTask.farewell, healthyPings_succ]
  | request | hear | pinged => exact ⟨n, by simp, hn⟩
  | _ => exact ⟨n, by simp_all [MainTask.farewell], by simp_all [MainTask.start?]⟩

theorem Account.requested_step (h : Account config log s) (hm : Moves config s a notes t) :
    Requested (log ++ [(a, notes)]) ↔
      t.requested = true ∨ t.woken = true ∨ t.main.farewell config ≠ [] := by
  have hrequested := h.requested
  cases hm <;> simp_all [MainTask.farewell, Action.isRequest]

theorem Account.step (h : Account config log s) (hm : Moves config s a notes t) :
    Account config (log ++ [(a, notes)]) t where
  starts := h.starts_step hm
  noted := h.noted_step hm
  requested := h.requested_step hm
  health := by have := h.health; cases hm <;> simp_all
  signal := by have := h.signal; cases hm <;> simp_all
  woken := by have := h.woken; have := h.signal; cases hm <;> simp_all

theorem Reached.account (h : Reached config log s) : Account config log s := by
  induction h with
  | initial => exact .initial config
  | step _ _ hstep ih => exact ih.step (step?_eq_some_iff.1 hstep)

theorem Account.noted_of_error (h : Account config log s) {cause : BusFault}
    (hfail : .error cause ∈ Runner.starts log) :
    s.main = .finished (.error cause) ∧ Runner.noted log = [] := by
  rw [h.starts, Option.mem_toList] at hfail
  obtain ⟨n, hnoted, hn⟩ := h.noted
  have hmain : s.main = .finished (.error cause) := by
    revert hfail
    fun_cases MainTask.start? s.main <;> simp_all
  have h0 : n = 0 := by simpa [hmain, MainTask.start?] using hn
  exact ⟨hmain, by simp [hnoted, h0, hmain, healthyPings, MainTask.farewell]⟩

theorem farewell_fits (config : WorkerConfig) (m : MainTask) :
    m.farewell config <+: [.stopCalled, .attempted (ping config .unhealthy)] := by
  fun_cases MainTask.farewell config m <;> simp

theorem Account.noted_of_ok (h : Account config log s) (hok : .ok () ∈ Runner.starts log) :
    ∃ n rest, Runner.noted log = healthyPings config (n + 1) ++ rest ∧
      rest <+: [.stopCalled, .attempted (ping config .unhealthy)] ∧
      ∀ result, s.main = .finished result →
        result = .ok () ∧ rest = [.stopCalled, .attempted (ping config .unhealthy)] := by
  rw [h.starts, Option.mem_toList] at hok
  obtain ⟨n, hnoted, hn⟩ := h.noted
  obtain ⟨k, rfl⟩ := Nat.exists_eq_add_one.2 (hn.2 hok)
  refine ⟨k, _, hnoted, farewell_fits config s.main, fun result hmain => ?_⟩
  rw [hmain] at hok ⊢
  cases result with
  | ok u => exact ⟨rfl, rfl⟩
  | error cause => cases hok

theorem Account.attempted (h : Account config log s) {draft : Draft}
    (hd : .attempted draft ∈ Runner.noted log) : ∃ status, draft = ping config status := by
  obtain ⟨n, hnoted, -⟩ := h.noted
  rw [hnoted, List.mem_append] at hd
  obtain hd | hd := hd
  · cases List.eq_of_mem_replicate hd
    exact ⟨_, rfl⟩
  · have hd' := (farewell_fits config s.main).subset hd
    simp only [List.mem_cons, reduceCtorEq, List.not_mem_nil, or_false, false_or] at hd'
    cases hd'
    exact ⟨_, rfl⟩

theorem Reached.run (h : Reached config log s) (actions : List Action) :
    ∃ more, Reached config (log ++ more) (Runner.run config s actions).2 ∧
      Runner.noted more = (Runner.run config s actions).1.flatten := by
  induction actions generalizing log s with
  | nil =>
    refine ⟨[], ?_, rfl⟩
    rwa [List.append_nil]
  | cons a actions ih =>
    rw [Runner.run]
    cases hstep : step? config s a with
    | none =>
      obtain ⟨more, hmore, hnoted⟩ := ih h
      exact ⟨more, hmore, by simpa using hnoted⟩
    | some next =>
      obtain ⟨more, hmore, hnoted⟩ := ih (h.step a hstep)
      exact ⟨(a, next.1) :: more, by simpa using hmore, by simpa [Runner.noted] using hnoted⟩

theorem reached_concat (h : Reached config (log ++ [(a, notes)]) t) :
    ∃ s, Reached config log s ∧ step? config s a = some (notes, t) := by
  generalize hl : log ++ [(a, notes)] = l at h
  cases h with
  | initial => simp at hl
  | step h _ hstep =>
    obtain ⟨rfl, heq⟩ := List.append_inj' hl rfl
    cases heq
    exact ⟨_, h, hstep⟩

theorem Reached.front {back : Log} (h : Reached config (log ++ back) s) :
    ∃ r, Reached config log r := by
  induction back using List.reverseRecOn generalizing s with
  | nil => exact ⟨s, by simpa using h⟩
  | append_singleton back e ih =>
    rw [← List.append_assoc] at h
    obtain ⟨r, hr, -⟩ := reached_concat h
    exact ih hr

theorem Moves.woken (hm : Moves config s a notes t) (hstop : .stopCalled ∈ notes) :
    s.woken = true := by
  cases hm <;> simp_all

theorem Reached.requested {front back : Log}
    (h : Reached config (front ++ (a, notes) :: back) s) (hstop : .stopCalled ∈ notes) :
    Requested front := by
  rw [← List.singleton_append, ← List.append_assoc] at h
  obtain ⟨r, hr⟩ := h.front
  obtain ⟨q, hq, hstep⟩ := reached_concat hr
  have hwoken := (step?_eq_some_iff.1 hstep).woken hstop
  exact hq.account.requested.2 (.inr (.inl hwoken))

/-- How many steps the main task and the signal task have to take at most. -/
def State.distance (s : State) : Nat :=
  match s.main with
  | .starting => 6
  | .greeting => 5
  | .serving => if s.woken then 3 else 4
  | .stopping => 2
  | .leaving => 1
  | .finished _ => 0

theorem Account.distance_le (h : Account config log s) (hm : Moves config s a notes t) :
    t.distance ≤ s.distance := by
  have hsignal := h.signal
  cases hm <;> grind [State.distance]

theorem Account.distance_lt (h : Account config log s) (hrequested : Requested log)
    (hmain : ∀ result, s.main ≠ .finished result) :
    ∃ a notes t, Moves config s a notes t ∧ t.distance < s.distance := by
  rw [h.requested] at hrequested
  cases hm : s.main with
  | starting => exact ⟨_, _, _, .start hm, by simp [State.distance, hm]⟩
  | greeting =>
    refine ⟨_, _, _, .greeted (.ok ()) hm, ?_⟩
    simp only [State.distance, hm]
    split <;> omega
  | serving =>
    simp only [hm, MainTask.farewell, ne_eq, not_true_eq_false, or_false] at hrequested
    cases hw : s.woken with
    | true => exact ⟨_, _, _, .wake hm hw, by simp [State.distance, hm, hw]⟩
    | false =>
      have hlistening : s.signal = .listening := by
        by_contra hne
        exact absurd (h.woken.2 ⟨hm, hne⟩) (by simp [hw])
      have hasked : s.requested = true := by simpa [hw] using hrequested
      exact ⟨_, _, _, .hear hlistening hasked, by simp [State.distance, hm, hw]⟩
  | stopping => exact ⟨_, _, _, .stopped .returned hm, by simp [State.distance, hm]⟩
  | leaving => exact ⟨_, _, _, .left (.ok ()) hm, by simp [State.distance, hm]⟩
  | finished result => exact absurd hm (hmain result)

/-- If the worker cannot be started, that is what the run returns, and nothing else happens. Otherwise
its health is published as healthy once or more often, and then, after a request to shut down, it is
stopped once and its health is published as unhealthy once, when the run returns. No step leads away
from that return, and after a request there is always one that leads towards it. -/
theorem worker_lifecycle (h : Reached config log s) :
    (∀ cause, .error cause ∈ starts log →
      s.main = .finished (.error cause) ∧ noted log = []) ∧
    (.ok () ∈ starts log → ∃ n rest, noted log = healthyPings config (n + 1) ++ rest ∧
      rest <+: [.stopCalled, .attempted (ping config .unhealthy)] ∧
      ∀ result, s.main = .finished result →
        result = .ok () ∧ rest = [.stopCalled, .attempted (ping config .unhealthy)]) ∧
    (∀ front a notes back, log = front ++ (a, notes) :: back → .stopCalled ∈ notes →
      Requested front) ∧
    (∀ draft, .attempted draft ∈ noted log → ∃ status, draft = ping config status ∧
      draft.topic = "worker.health" ∧
      (WorkerHealth.unpack draft.payload = .ok ⟨config.name, status⟩ ↔
        (bytesOf config.name).length < 2 ^ 32)) ∧
    (∀ a notes t, step? config s a = some (notes, t) → t.distance ≤ s.distance) ∧
    (Requested log → (∀ result, s.main ≠ .finished result) →
      ∃ a notes t, step? config s a = some (notes, t) ∧ t.distance < s.distance) := by
  have hs := h.account
  refine ⟨fun cause => hs.noted_of_error, hs.noted_of_ok, ?_, fun draft hd => ?_, ?_, ?_⟩
  · rintro front a notes back rfl
    exact h.requested
  · obtain ⟨status, rfl⟩ := hs.attempted hd
    exact ⟨status, rfl, rfl, WorkerHealth.unpack_pack_iff ⟨config.name, status⟩⟩
  · intro a notes t hstep
    exact hs.distance_le (step?_eq_some_iff.1 hstep)
  · intro hrequested hmain
    obtain ⟨a, notes, t, hm, hlt⟩ := hs.distance_lt hrequested hmain
    exact ⟨a, notes, t, step?_eq_some_iff.2 hm, hlt⟩

end

/-- A worker that is asked to shut down before it has started and is not stopped in time. Its first
message and its last are lost, and a ping is under way when it is told to stop. -/
def overtaken : List Action :=
  [.request, .started (.ok ()), .published (.error (.transport "gone")), .hear, .tick, .wake,
    .stopEnded .timedOut, .published (.error (.transport "gone"))]

theorem worker_lifecycle_overtaken :
    let config := WorkerConfig.named "matcher"
    ∃ log s, Reached config log s ∧ log.map Prod.fst = overtaken ∧
      s.main = .finished (.ok ()) ∧
      (∃ n, noted log = healthyPings config (n + 1) ++
        [.stopCalled, .attempted (ping config .unhealthy)]) ∧
      ∀ draft, .attempted draft ∈ noted log →
        ∃ status, WorkerHealth.unpack draft.payload = .ok ⟨"matcher", status⟩ := by
  intro config
  have hstarted : Reached config _ _ :=
    ((Reached.initial.step .request rfl).step (.started (.ok ())) rfl).step
      (.published (.error (.transport "gone"))) rfl
  have hserved := ((hstarted.step .hear rfl).step .tick rfl).step .wake rfl
  have hended := (hserved.step (.stopEnded .timedOut) rfl).step
    (.published (.error (.transport "gone"))) rfl
  obtain ⟨-, hok, -, hdrafts, -⟩ := worker_lifecycle hended
  obtain ⟨n, rest, hnoted, -, hend⟩ := hok (by simp [starts])
  refine ⟨_, _, hended, rfl, rfl, ⟨n, ?_⟩, fun draft hd => ?_⟩
  · rw [hnoted, (hend (.ok ()) rfl).2]
  · obtain ⟨status, -, -, hread⟩ := hdrafts draft hd
    exact ⟨status, hread.2 (by decide)⟩

end PhaseKeeper.Runner
