import Mathlib.Data.List.Dedup
import Mathlib.Tactic.Common
import PhaseKeeper.Proofs.Sequence.Account
import PhaseKeeper.Proofs.Sequence.Capacity
import PhaseKeeper.Proofs.Store.Upkeep
/-!
Which identifiers a ledger keeps in mind: those that it came across last, as many as there is room for.
It comes across an event that it has in mind, that it records, or that turns out to be recorded; a call
that fails leaves no trace. Just the events that it has not in mind cost a request to the store.
-/
namespace PhaseKeeper

/-- The items of a list, each of them once, from the one that came last to the one that came first. -/
def latestFirst (l : List String) : List String := l.dedup.reverse

section LatestFirst
variable (l : List String) (a : String)

theorem dedup_concat : (l ++ [a]).dedup = l.dedup.erase a ++ [a] := by
  induction l with
  | nil => simp
  | cons b l ih =>
    by_cases hb : b ∈ l
    · rw [List.cons_append, List.dedup_cons_of_mem (List.mem_append_left _ hb),
        List.dedup_cons_of_mem hb, ih]
    · rw [List.dedup_cons_of_notMem hb, List.cons_append]
      by_cases hab : b = a
      · subst hab
        have hnot : b ∉ l.dedup := mt List.mem_dedup.1 hb
        rw [List.dedup_cons_of_mem (by simp), ih, List.erase_of_not_mem hnot, List.erase_cons_head]
      · have hnot : b ∉ l ++ [a] := by simp [hb, hab]
        rw [List.dedup_cons_of_notMem hnot, ih, List.erase_cons_tail (by simpa using hab),
          List.cons_append]

theorem latestFirst_concat : latestFirst (l ++ [a]) = a :: (latestFirst l).erase a := by
  have hnodup := l.nodup_dedup
  rw [latestFirst, latestFirst, dedup_concat, List.reverse_append, List.reverse_singleton,
    List.singleton_append, hnodup.erase_eq_filter, (List.nodup_reverse.2 hnodup).erase_eq_filter,
    List.filter_reverse]

theorem nodup_latestFirst : (latestFirst l).Nodup := List.nodup_reverse.2 l.nodup_dedup

/-- To forget all but the first `n + 1` before one of them is taken out makes no difference to the first
`n` of those that are left. -/
theorem take_erase_take (n : Nat) : ((l.take (n + 1)).erase a).take n = (l.erase a).take n := by
  induction l generalizing n with
  | nil => rfl
  | cons b l ih =>
    by_cases h : b = a
    · simp [h, List.take_take]
    · cases n with
      | zero => rfl
      | succ n => simp [h, ih]

end LatestFirst

theorem RecentIds.use_latest (n : Nat) (l : List String) (id : String) :
    (⟨n + 1, (latestFirst l).take (n + 1)⟩ : RecentIds).use id =
      ⟨n + 1, (latestFirst (l ++ [id])).take (n + 1)⟩ := by
  rw [use, latestFirst_concat, List.take_succ_cons, List.take_succ_cons, take_erase_take]

inductive LedgerTurn where
  | record (eventId jobId eventType : String)
  | meanwhile (op : MemoryStore.Operation)

/-- The event was not recorded, and nobody said that it was before. -/
def Recording.missed : Recording → Bool
  | .failed _ => true
  | .recorded | .alreadyProcessed => false

namespace Deed

/-- The event that a ledger has come across. -/
def touched? : Deed → Option String
  | ⟨_, .lookUp id, true, _, _⟩ => some id
  | ⟨_, .store (.insertEvent e), .ok (), _, _⟩ => some e.eventId
  | ⟨_, .store (.insertEvent e), .error (.alreadyRecorded _), _, _⟩ => some e.eventId
  | _ => none

def inserts : Deed → Bool
  | ⟨_, .store (.insertEvent _), _, _, _⟩ => true
  | _ => false

end Deed

namespace Deployment

def turnDeeds (d : Deployment) : LedgerTurn → List Deed
  | .record id j t => d.deeds 0 (recordEvent id j t)
  | .meanwhile _ => []

def turn (d : Deployment) : LedgerTurn → Deployment
  | .record id j t => (d.perform 0 (recordEvent id j t)).2
  | .meanwhile op => d.onStore (·.operate op)

def turns (d : Deployment) (ts : List LedgerTurn) : Deployment := ts.foldl turn d

/-- All identifiers that the ledger has come across, in this order. -/
def touches : Deployment → List LedgerTurn → List String
  | _, [] => []
  | d, t :: ts => (d.turnDeeds t).filterMap Deed.touched? ++ touches (d.turn t) ts

variable {d : Deployment} {r : RecentIds} {id : String}

/-- What a call for an identifier comes to, when `r` is what the ledger had in mind before. -/
structure Booked (r : RecentIds) (id : String) (ys : List Deed) (x : Recording × Deployment) :
    Prop where
  touched : ys.filterMap Deed.touched? = if x.1.missed then [] else [id]
  recent : x.2.recent = [if x.1.missed then r else r.use id]
  inserts_iff : (∃ y ∈ ys, y.inserts = true) ↔ id ∉ r.ids

theorem booked_hit (hr : d.recent = [r]) (h : id ∈ r.ids) (j t : String) :
    Booked r id (d.deeds 0 (recordEvent id j t)) (d.perform 0 (recordEvent id j t)) := by
  have hanswer : d.answer 0 (.lookUp id) = (true, { d with recent := [r.use id] }) := by
    simp [answer, lookUp, hr, RecentIds.lookUp_of_mem h]
  unfold recordEvent
  rw [perform_ask, deeds_ask, hanswer]
  refine ⟨rfl, rfl, iff_of_false ?_ (not_not.2 h)⟩
  rintro ⟨y, hy, hinserts⟩
  cases List.mem_singleton.1 hy
  cases hinserts

theorem booked_miss (hr : d.recent = [r]) (h : id ∉ r.ids) (j t : String) :
    Booked r id (d.deeds 0 (recordEvent id j t)) (d.perform 0 (recordEvent id j t)) := by
  have hanswer : d.answer 0 (.lookUp id) = (false, d) := by
    refine (d.lookUp_cases 0 id).resolve_left fun hhit => h ?_
    obtain ⟨r', hr', hid⟩ := hhit.2
    rw [hr, List.mem_singleton] at hr'
    exact hr' ▸ hid
  let e : LedgerEntry := ⟨id, j, t, d.clock⟩
  have hrecent : (d.tick.answer 0 (.store (.insertEvent e))).2.recent = [r] := hr
  have hask : d.deeds 0 (recordEvent id j t) = ⟨0, .lookUp id, false, d, d⟩ ::
        ⟨0, .now, d.clock, d, d.tick⟩ :: d.tick.deeds 0 (insertNew e) ∧
      d.perform 0 (recordEvent id j t) = d.tick.perform 0 (insertNew e) := by
    unfold recordEvent
    rw [perform_ask, deeds_ask, hanswer]
    exact ⟨rfl, rfl⟩
  rw [hask.1, hask.2]
  unfold insertNew askStore
  rw [perform_ask, deeds_ask]
  generalize d.tick.answer 0 (.store (.insertEvent e)) = y at hrecent
  obtain ⟨x, d'⟩ := y
  have hremember : (d'.remember 0 id).recent = [r.use id] := by
    change d'.recent.modify 0 (·.use id) = _
    rw [hrecent]
    rfl
  have hinserts {ys : List Deed} : (∃ y ∈ ⟨0, .lookUp id, false, d, d⟩ ::
      ⟨0, .now, d.clock, d, d.tick⟩ :: ⟨0, .store (.insertEvent e), x, d.tick, d'⟩ :: ys,
      y.inserts = true) ↔ id ∉ r.ids :=
    iff_of_true ⟨_, .tail _ (.tail _ (.head _)), rfl⟩ h
  -- what is left of the call depends on the reply of the store
  cases x with
  | ok => exact ⟨rfl, hremember, hinserts⟩
  | error cause =>
    cases cause with
    | alreadyRecorded => exact ⟨rfl, hremember, hinserts⟩
    | database | jobNotFound | corrupt | unavailable => exact ⟨rfl, hrecent, hinserts⟩

theorem booked (hr : d.recent = [r]) (id j t : String) :
    Booked r id (d.deeds 0 (recordEvent id j t)) (d.perform 0 (recordEvent id j t)) := by
  by_cases h : id ∈ r.ids
  · exact booked_hit hr h j t
  · exact booked_miss hr h j t

def HoldsLatest (d : Deployment) (n : Nat) (touched : List String) : Prop :=
  d.recent = [⟨n + 1, (latestFirst touched).take (n + 1)⟩]

variable {n : Nat} {touched : List String}

theorem HoldsLatest.turn (h : d.HoldsLatest n touched) (t : LedgerTurn) :
    (d.turn t).HoldsLatest n (touched ++ (d.turnDeeds t).filterMap Deed.touched?) := by
  cases t with
  | meanwhile op =>
    rw [turnDeeds, List.filterMap_nil, List.append_nil]
    exact h
  | record id j t =>
    have hbooked := booked h id j t
    change (d.perform 0 (recordEvent id j t)).2.recent = _
    rw [turnDeeds, hbooked.recent, hbooked.touched]
    cases (d.perform 0 (recordEvent id j t)).1.missed with
    | true => rw [if_pos rfl, if_pos rfl, List.append_nil]
    | false => rw [if_neg Bool.false_ne_true, if_neg Bool.false_ne_true, RecentIds.use_latest]

theorem HoldsLatest.turns (h : d.HoldsLatest n touched) (ts : List LedgerTurn) :
    (d.turns ts).HoldsLatest n (touched ++ d.touches ts) := by
  induction ts generalizing d touched with
  | nil =>
    rw [touches, List.append_nil]
    exact h
  | cons t ts ih =>
    rw [touches, ← List.append_assoc]
    exact ih (h.turn t)

theorem HoldsLatest.upon (store : MemoryStore) (bus : RecordingBus) (clock : Instant)
    {capacity : Nat} (h : max capacity 1 = n + 1) :
    (upon store bus clock [capacity]).HoldsLatest n [] :=
  congrArg (fun m => [(⟨m, []⟩ : RecentIds)]) h

end Deployment

/-- Whatever a ledger was to record and whatever happened to its store meanwhile: it has in mind the
identifiers that it came across last, each of them once, and as many as there is room for, which is at
least one. The next call goes to the store just if its identifier is not among these; and if it fails,
they stay what they are. -/
theorem latest_held (store : MemoryStore) (bus : RecordingBus) (clock : Instant) (capacity : Nat)
    (ts : List LedgerTurn) :
    let start := Deployment.upon store bus clock [capacity]
    let d := start.turns ts
    let touched := start.touches ts
    ∃ r, d.recent = [r] ∧ r.ids = (latestFirst touched).take (max capacity 1) ∧ r.ids.Nodup ∧
      r.size = min (max capacity 1) touched.dedup.length ∧
      ∀ id j t, ((∃ y ∈ d.deeds 0 (recordEvent id j t), y.inserts = true) ↔ id ∉ r.ids) ∧
        ∀ cause, (d.perform 0 (recordEvent id j t)).1 = .failed cause →
          (d.perform 0 (recordEvent id j t)).2.recent = d.recent := by
  intro start d touched
  obtain ⟨n, hn⟩ : ∃ n, max capacity 1 = n + 1 := ⟨max capacity 1 - 1, by omega⟩
  have hheld : d.HoldsLatest n touched := (Deployment.HoldsLatest.upon store bus clock hn).turns ts
  have hsize : (latestFirst touched).length = touched.dedup.length := List.length_reverse
  refine ⟨_, hheld, by rw [hn], (nodup_latestFirst touched).sublist (List.take_sublist _ _), ?_, ?_⟩
  · rw [RecentIds.size, List.length_take, hsize, hn]
  · intro id j t
    have hbooked := Deployment.booked hheld id j t
    refine ⟨hbooked.inserts_iff, fun cause hfailed => ?_⟩
    rw [hbooked.recent, hfailed, hheld]
    rfl

/-- There is room for one identifier. The second event drives out the first, which the store then
refuses, so that the first is the latest again and the second costs a request. -/
theorem latest_held_single :
    let ts : List LedgerTurn :=
      [.meanwhile (.create ⟨"J1", "fashion", .collection, ⟨true, false⟩, .epoch⟩),
        .record "e1" "J1" "t", .record "e2" "J1" "t", .record "e1" "J1" "t",
        .meanwhile (.fail .insertEvent none)]
    let d := (Deployment.upon .empty .empty .epoch [0]).turns ts
    d.recent = [⟨1, ["e1"]⟩] ∧ (∃ y ∈ d.deeds 0 (recordEvent "e2" "J1" "t"), y.inserts = true) ∧
      ∃ cause, (d.perform 0 (recordEvent "e2" "J1" "t")).1 = .failed cause ∧
        (d.perform 0 (recordEvent "e2" "J1" "t")).2.recent = [⟨1, ["e1"]⟩] := by
  intro ts d
  obtain ⟨r, hr, -, -, -, hcalls⟩ := latest_held .empty .empty .epoch 0 ts
  have hrecent : d.recent = [⟨1, ["e1"]⟩] := by decide +kernel
  obtain ⟨hinserts, hfailed⟩ := hcalls "e2" "J1" "t"
  obtain rfl : r = ⟨1, ["e1"]⟩ := List.singleton_inj.1 (hr.symm.trans hrecent)
  refine ⟨hrecent, hinserts.2 (by decide), _, rfl, (hfailed _ rfl).trans hrecent⟩

end PhaseKeeper
