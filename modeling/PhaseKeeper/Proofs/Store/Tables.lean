import PhaseKeeper.Store.Relational
/-!
The tables of the relational database, and what each statement does to them, at one moment. The keys,
the reference from events to jobs and the check of the phase belong to the tables, so that nothing can
break them. Texts are compared character by character. A statement is only sent with values that a column
can hold: texts without the character 0, and moments within the range of the database.
-/
namespace PhaseKeeper

/-- A row of the table of jobs. When it was written is left out, since no statement reads that. -/
structure JobRecord where
  id : String
  industry : String
  phase : String
  flags : Statement.Flags
  phase_allowed : phase ∈ Phase.all.map Phase.name

namespace JobRecord

theorem name_allowed (p : Phase) : p.name ∈ Phase.all.map Phase.name :=
  List.mem_map_of_mem p.mem_all

def inPhase (r : JobRecord) (p : Phase) : JobRecord :=
  { r with phase := p.name, phase_allowed := name_allowed p }

def filled (r : JobRecord) (images videos : Bool) : JobRecord :=
  { r with flags := (r.flags.1.or (some images), r.flags.2.or (some videos)) }

def ofJob (j : Job) : JobRecord :=
  ⟨j.id, j.industry, j.phase.name, (some j.assets.images, some j.assets.videos), name_allowed j.phase⟩

end JobRecord

/-- A row of the table of recorded events. Moments are stored to the microsecond. -/
structure EventRecord where
  eventId : String
  jobId : String
  eventType : String
  createdAt : Int
deriving DecidableEq

def EventRecord.ofEntry (e : LedgerEntry) : EventRecord :=
  ⟨e.eventId, e.jobId, e.eventType, e.createdAt.micros⟩

structure Tables where
  jobs : List JobRecord
  events : List EventRecord
  /-- The jobs that the rows of a table belong to, if there is such a table. -/
  collected : AssetTable → Option (List String)
  jobs_key : (jobs.map JobRecord.id).Nodup
  events_key : (events.map EventRecord.eventId).Nodup
  events_job : ∀ e ∈ events, e.jobId ∈ jobs.map JobRecord.id

namespace Tables
variable {t : Tables} {j k : String} {r : JobRecord} {p q : Phase}

def empty : Tables := ⟨[], [], fun _ => none, .nil, .nil, by simp⟩

def record? (t : Tables) (j : String) : Option JobRecord := t.jobs.find? (·.id = j)

def flags? (t : Tables) (j : String) : Option Statement.Flags := (t.record? j).map JobRecord.flags

/-- Whether there are rows for a job in a table. If there is no such table, there are none. -/
def shows (t : Tables) (table : AssetTable) (j : String) : Bool :=
  (t.collected table).any (·.contains j)

def rewrite (t : Tables) (fits : JobRecord → Bool) (f : JobRecord → JobRecord)
    (hf : ∀ r, (f r).id = r.id) : Tables :=
  have hids : (t.jobs.map fun r => if fits r then f r else r).map JobRecord.id =
      t.jobs.map JobRecord.id := by
    rw [List.map_map]
    refine List.map_congr_left fun r _ => ?_
    simp only [Function.comp_apply]
    split
    · exact hf r
    · rfl
  { t with
    jobs := t.jobs.map fun r => if fits r then f r else r
    jobs_key := hids ▸ t.jobs_key
    events_job := hids ▸ t.events_job }

def create (t : Tables) (r : JobRecord) : Tables :=
  if h : r.id ∈ t.jobs.map JobRecord.id then t
  else
    { t with
      jobs := t.jobs ++ [r]
      jobs_key := by simpa using List.nodup_append.2 ⟨t.jobs_key, by simp, by simpa using h⟩
      events_job := fun e he => by simpa using .inl (by simpa using t.events_job e he) }

def append (t : Tables) (e : EventRecord) (hkey : e.eventId ∉ t.events.map EventRecord.eventId)
    (hjob : e.jobId ∈ t.jobs.map JobRecord.id) : Tables :=
  { t with
    events := t.events ++ [e]
    events_key := by simpa using List.nodup_append.2 ⟨t.events_key, by simp, by simpa using hkey⟩
    events_job := fun e' he => by
      obtain he | he := List.mem_append.1 he
      · exact t.events_job e' he
      · exact List.mem_singleton.1 he ▸ hjob }

/-- What a statement yields, and the tables after it. The primary key of an event is checked before its
reference to a job. -/
def execute : (s : Statement) → Tables → s.Reply × Tables
  | .selectPhase j, t => (.ok ((t.record? j).map JobRecord.phase), t)
  | .swapPhase j p q, t =>
    let fits (r : JobRecord) : Bool := r.id = j ∧ r.phase = p.name
    (.ok (t.jobs.countP fits), t.rewrite fits (·.inPhase q) fun _ => rfl)
  | .selectFlags j, t => (.ok (t.flags? j), t)
  | .tableExists table, t => (.ok (t.collected table).isSome, t)
  | .rowExists table j, t =>
    match t.collected table with
    | some jobs => (.ok (jobs.contains j), t)
    | none =>
      (.error (.refused "42P01" ("relation \"" ++ table.name ++ "\" does not exist")), t)
  | .fillFlags j images videos, t =>
    let t := t.rewrite (·.id = j) (·.filled images videos) fun _ => rfl
    (.ok (t.flags? j), t)
  | .eventExists j eventType, t =>
    (.ok (t.events.any fun e => e.jobId = j ∧ e.eventType = eventType), t)
  | .selectIndustry j, t => (.ok ((t.record? j).map JobRecord.industry), t)
  | .insertEvent e, t =>
    if hkey : e.eventId ∈ t.events.map EventRecord.eventId then
      (.error (.refused "23505"
        "duplicate key value violates unique constraint \"phase_events_pkey\""), t)
    else if hjob : e.jobId ∈ t.jobs.map JobRecord.id then
      (.ok 1, t.append (.ofEntry e) hkey hjob)
    else
      (.error (.refused "23503" ("insert or update on table \"phase_events\" violates foreign key " ++
        "constraint \"phase_events_job_id_fkey\"")), t)

theorem mem_ids : j ∈ t.jobs.map JobRecord.id ↔ ∃ r, t.record? j = some r := by
  rw [← Option.isSome_iff_exists, record?, List.find?_isSome]
  simp

theorem record_id (h : t.record? j = some r) : r.id = j := by simpa using List.find?_some h

theorem find_of_nodup {rows : List JobRecord} (hn : (rows.map JobRecord.id).Nodup) (j : String) :
    rows.filter (·.id = j) = (rows.find? (·.id = j)).toList := by
  induction rows with
  | nil => rfl
  | cons r rows ih =>
    have ⟨hr, hrows⟩ := List.nodup_cons.1 hn
    by_cases hj : r.id = j
    · have hnone : rows.filter (·.id = j) = [] := by
        rw [List.filter_eq_nil_iff]
        rintro r' hr' he
        exact hr (List.mem_map.2 ⟨r', hr', (of_decide_eq_true he).trans hj.symm⟩)
      simp [hj, hnone]
    · simp [hj, ih hrows]

theorem count_record (t : Tables) (j : String) (fits : JobRecord → Bool) :
    t.jobs.countP (fun r => r.id = j ∧ fits r) = ((t.record? j).filter fits).toList.length := by
  have hrow := find_of_nodup t.jobs_key j
  rw [record?, List.countP_eq_length_filter]
  have hsplit : t.jobs.filter (fun r => decide (r.id = j ∧ fits r = true)) =
      (t.jobs.filter (·.id = j)).filter fits := by
    rw [List.filter_filter]
    refine List.filter_congr fun r _ => ?_
    simp [Bool.and_comm]
  rw [hsplit, hrow]
  cases t.jobs.find? (·.id = j) with
  | none => rfl
  | some r => by_cases hf : fits r = true <;> simp [hf, Option.filter]

theorem record_rewrite (t : Tables) (fits : JobRecord → Bool) (f : JobRecord → JobRecord)
    (hf : ∀ r, (f r).id = r.id) (k : String) :
    (t.rewrite fits f hf).record? k = (t.record? k).map fun r => if fits r then f r else r := by
  have hid : ((fun r : JobRecord => decide (r.id = k)) ∘ fun r => if fits r then f r else r) =
      fun r => decide (r.id = k) := by
    funext r
    simp only [Function.comp_apply]
    split
    · rw [hf]
    · rfl
  simp only [record?, rewrite, List.find?_map, hid]

theorem record_create (t : Tables) (r : JobRecord) (j : String) :
    (t.create r).record? j = (t.record? j).or (if r.id = j then some r else none) := by
  unfold create
  split
  · rename_i h
    obtain ⟨r', hr'⟩ := mem_ids.1 h
    by_cases hj : r.id = j
    · subst hj
      simp [hr']
    · simp [hj]
  · by_cases hj : r.id = j <;> simp [record?, hj]

theorem execute_insert {e : LedgerEntry} (hkey : e.eventId ∉ t.events.map EventRecord.eventId)
    (hjob : e.jobId ∈ t.jobs.map JobRecord.id) :
    t.execute (.insertEvent e) = (.ok 1, t.append (.ofEntry e) hkey hjob) := by
  rw [execute, dif_neg hkey, dif_pos hjob]

theorem swap_count (t : Tables) (j : String) (p q : Phase) :
    (t.execute (.swapPhase j p q)).1 =
      .ok ((t.record? j).filter fun r => r.phase = p.name).toList.length := by
  rw [← count_record]
  simp [execute]

theorem record_swap (t : Tables) (j : String) (p q : Phase) (k : String) :
    (t.execute (.swapPhase j p q)).2.record? k =
      (t.record? k).map fun r => if r.id = j ∧ r.phase = p.name then r.inPhase q else r := by
  have h := record_rewrite t (fun r => r.id = j ∧ r.phase = p.name) (·.inPhase q) (fun _ => rfl) k
  simp only [decide_eq_true_eq] at h
  exact h

end Tables
end PhaseKeeper
