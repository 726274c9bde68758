import PhaseKeeper.Proofs.Store.Tables
/-!
Calls for the assets of one job, side by side. Each derives the flags from what it finds collected, while
rows are collected and whole tables come and go. The row of the job decides what all of them return: what
is written first stays.
-/
namespace PhaseKeeper

def Statement.Flags.of (flags : Statement.Flags) : AssetTable → Option Bool
  | .images => flags.1
  | .videos => flags.2

/-- A flag that is set stays as it is. -/
def Statement.Flags.Kept (flags later : Statement.Flags) : Prop :=
  ∀ table value, flags.of table = some value → later.of table = some value

def Statement.Flags.fill (flags : Statement.Flags) (offer : Option Assets) : Statement.Flags :=
  (flags.1.or (offer.map Assets.images), flags.2.or (offer.map Assets.videos))

namespace Assets

def shown (a : Assets) : AssetTable → Bool
  | .images => a.images
  | .videos => a.videos

def flags (a : Assets) : Statement.Flags := (some a.images, some a.videos)

theorem flags_injective {a b : Assets} (h : a.flags = b.flags) : a = b := by
  cases a
  cases b
  simpa [flags] using h

end Assets

namespace Statement.Flags
variable {flags later : Statement.Flags}

theorem Kept.refl (flags : Statement.Flags) : flags.Kept flags := fun _ _ h => h

theorem Kept.trans {last : Statement.Flags} (h : flags.Kept later) (k : later.Kept last) :
    flags.Kept last := fun table value hv => k table value (h table value hv)

theorem of_fill (flags : Statement.Flags) (offer : Option Assets) (table : AssetTable) :
    (flags.fill offer).of table = (flags.of table).or (offer.map (·.shown table)) := by
  cases table <;> rfl

theorem kept_fill (flags : Statement.Flags) (offer : Option Assets) : flags.Kept (flags.fill offer) := by
  intro table value hv
  rw [of_fill, hv, Option.some_or]

theorem fill_some (flags : Statement.Flags) (a : Assets) :
    flags.fill (some a) =
      Assets.flags ⟨flags.1.getD a.images, flags.2.getD a.videos⟩ := by
  obtain ⟨images, videos⟩ := flags
  cases images <;> cases videos <;> rfl

theorem Kept.eq_of_full {a : Assets} (h : a.flags.Kept later) : later = a.flags := by
  have himages := h .images a.images rfl
  have hvideos := h .videos a.videos rfl
  exact Prod.ext himages hvideos

theorem assets_unique (flags : Statement.Flags) :
    ∃ a : Assets, ∀ b : Assets, flags = b.flags → b = a := by
  by_cases hfull : ∃ a : Assets, flags = a.flags
  · obtain ⟨a, rfl⟩ := hfull
    exact ⟨a, fun b hb => (Assets.flags_injective hb).symm⟩
  · exact ⟨default, fun b hb => absurd ⟨b, hb⟩ hfull⟩

end Statement.Flags

structure Mishap where
  cause : DatabaseFault
  /-- The database has executed the statement, and only the reply got lost. -/
  executed : Bool

/-- What a statement offers for the flags of a job. -/
def Statement.offer (j : String) : Statement → Option Assets
  | .fillFlags k images videos => if k = j then some ⟨images, videos⟩ else none
  | _ => none

/-- What a reply says about the rows of a job in a table. If there is no such table, there are none. -/
def Statement.finding (j : String) : (s : Statement) → s.Reply → Option (AssetTable × Bool)
  | .tableExists table, .ok false => some (table, false)
  | .rowExists table k, .ok found => if k = j then some (table, found) else none
  | _, _ => none

namespace Tables
variable {t : Tables} {j : String} {now : Statement.Flags}

def serve (t : Tables) (mishap : Option Mishap) (s : Statement) : s.Reply × Tables :=
  match mishap with
  | none => t.execute s
  | some m => (.error m.cause, if m.executed then (t.execute s).2 else t)

/-- What a statement that is served like this offers for the flags of a job. -/
def offered (mishap : Option Mishap) (j : String) (s : Statement) : Option Assets :=
  if mishap.all Mishap.executed then s.offer j else none

theorem offer_of_offered {mishap : Option Mishap} {s : Statement} {a : Assets}
    (h : offered mishap j s = some a) : s.offer j = some a := by
  unfold offered at h
  split at h
  · exact h
  · cases h

theorem flags_execute (t : Tables) (s : Statement) (j : String) :
    (t.execute s).2.flags? j = (t.flags? j).map (·.fill (s.offer j)) := by
  have hsame : t.flags? j = (t.flags? j).map (·.fill none) := by
    simp [Statement.Flags.fill]
  cases s with
  | selectPhase | selectFlags | tableExists | eventExists | selectIndustry => exact hsame
  | rowExists table k =>
    simp only [execute]
    split <;> exact hsame
  | swapPhase k p q =>
    have hflags (r : JobRecord) : (if r.id = k ∧ r.phase = p.name then r.inPhase q else r).flags =
        r.flags := by
      split <;> rfl
    rw [flags?, record_swap, Option.map_map, Function.comp_def]
    simp only [hflags]
    exact hsame
  | fillFlags k images videos =>
    have hrow := record_rewrite t (·.id = k) (·.filled images videos) (fun _ => rfl) j
    change ((t.rewrite (·.id = k) (·.filled images videos) fun _ => rfl).record? j).map _ = _
    rw [hrow, flags?, Option.map_map, Option.map_map]
    refine Option.map_congr fun r hr => ?_
    have hid : r.id = j := record_id (Option.mem_def.1 hr)
    by_cases hk : j = k
    · simp [hid, hk, JobRecord.filled, Statement.offer, Statement.Flags.fill]
    · simp [hid, hk, Ne.symm hk, Statement.offer, Statement.Flags.fill]
  | insertEvent e =>
    simp only [execute]
    split
    · exact hsame
    · split <;> exact hsame

theorem flags_serve (t : Tables) (mishap : Option Mishap) (s : Statement) (j : String) :
    (t.serve mishap s).2.flags? j = (t.flags? j).map (·.fill (offered mishap j s)) := by
  cases mishap with
  | none => exact flags_execute t s j
  | some m =>
    cases he : m.executed
    · simp [serve, offered, he, Statement.Flags.fill]
    · simpa [serve, offered, he] using flags_execute t s j

theorem shows_of_finding {mishap : Option Mishap} {s : Statement} {table : AssetTable} {value : Bool}
    (h : s.finding j (t.serve mishap s).1 = some (table, value)) : t.shows table j = value := by
  cases mishap with
  | some m => cases s <;> simp [serve, Statement.finding] at h
  | none =>
    cases s with
    | tableExists table' =>
      cases ht : t.collected table' with
      | none =>
        obtain ⟨rfl, rfl⟩ : table' = table ∧ false = value := by
          simpa [serve, execute, ht, Statement.finding] using h
        simp [shows, ht]
      | some jobs => simp [serve, execute, ht, Statement.finding] at h
    | rowExists table' k =>
      cases ht : t.collected table' with
      | none => simp [serve, execute, ht, Statement.finding] at h
      | some jobs =>
        obtain ⟨rfl, rfl, rfl⟩ : k = j ∧ table' = table ∧ jobs.contains k = value := by
          simpa [serve, execute, ht, Statement.finding] using h
        simp [shows, ht]
    | selectPhase | swapPhase | selectFlags | fillFlags | eventExists | selectIndustry |
      insertEvent => simp [Statement.finding] at h

end Tables

abbrev Findings := AssetTable → Bool → Prop

/-- What is found out by one more reply. -/
def Findings.noting (found : Findings) (news : Option (AssetTable × Bool)) : Findings :=
  fun table value => found table value ∨ news = some (table, value)

namespace Relational
open Statement (Flags)

/-- From here on, a call offers only what it has found out, and what it returns is in the row. The others
can set what is null. -/
def Faithful (j : String) : Querying (Except StoreFault Assets) → Findings → Flags → Prop
  | .done result, _, row => ∀ a, result = .ok a → row = a.flags
  | .ask (.report _) next, found, row => Faithful j (next ()) found row
  | .ask (.run s) next, found, row =>
    (∀ a, s.offer j = some a → ∀ table, found table (a.shown table)) ∧
      ∀ (t : Tables) mishap now, t.flags? j = some now → row.Kept now →
        Faithful j (next (t.serve mishap s).1)
          (found.noting (s.finding j (t.serve mishap s).1))
          (now.fill (Tables.offered mishap j s))

variable {j : String} {p : Querying (Except StoreFault Assets)} {found found' : Findings}
  {row row' : Flags}

theorem Faithful.mono (h : Faithful j p found row) (hf : ∀ table value, found table value →
    found' table value) (hr : row.Kept row') : Faithful j p found' row' := by
  induction p generalizing found found' row row' with
  | done result =>
    intro a ha
    have hrow := h a ha
    exact (hrow ▸ hr).eq_of_full
  | ask r next ih =>
    cases r with
    | report => exact ih () h hf hr
    | run s =>
      refine ⟨fun a ha table => hf _ _ (h.1 a ha table), fun t mishap now ht hk => ?_⟩
      have hnext := h.2 t mishap now ht (hr.trans hk)
      exact ih _ hnext (fun table value => Or.imp_left (hf table value)) (.refl _)

theorem faithful_error (cause : StoreFault) : Faithful j (.done (.error cause)) found row :=
  fun _ ha => nomatch ha

theorem faithful_reading {s : Statement} {next : s.Reply → Querying (Except StoreFault Assets)}
    (hs : s.offer j = none)
    (h : ∀ (t : Tables) mishap now, t.flags? j = some now → row.Kept now →
      Faithful j (next (t.serve mishap s).1)
        (found.noting (s.finding j (t.serve mishap s).1))
        (now.fill (Tables.offered mishap j s))) : Faithful j (.ask (.run s) next) found row :=
  ⟨fun a ha => absurd (hs.symm.trans ha) (Option.some_ne_none a).symm, h⟩

theorem faithful_hasRows {table : AssetTable}
    {f : Except DatabaseFault Bool → Querying (Except StoreFault Assets)}
    (herror : ∀ cause found row, Faithful j (f (.error cause)) found row)
    (hok : ∀ value found', (∀ table value, found table value → found' table value) →
      found' table value → ∀ row, Faithful j (f (.ok value)) found' row) :
    Faithful j (hasRows table j >>= f) found row := by
  refine faithful_reading rfl fun t mishap now ht hk => ?_
  cases mishap with
  | some m => exact herror m.cause _ _
  | none =>
    cases hexists : (t.collected table).isSome with
    | false =>
      simp only [Tables.serve, Tables.execute, hexists]
      exact hok false _ (fun _ _ => .inl) (.inr rfl) _
    | true =>
      simp only [Tables.serve, Tables.execute, hexists]
      refine faithful_reading rfl fun t mishap now ht hk => ?_
      generalize hreply : (t.serve mishap (.rowExists table j)).1 = reply
      cases reply with
      | error cause => exact herror cause _ _
      | ok value =>
        exact hok value _ (fun _ _ h => .inl (.inl h)) (.inr (by simp [Statement.finding])) _

theorem faithful_fillFlags {images videos : Bool} (himages : found .images images)
    (hvideos : found .videos videos) : Faithful j (fillFlags j images videos) found row := by
  have hoffer : Statement.offer j (.fillFlags j images videos) = some ⟨images, videos⟩ := by
    simp [Statement.offer]
  refine ⟨fun a ha table => ?_, fun t mishap now ht hk => ?_⟩
  · obtain rfl : (⟨images, videos⟩ : Assets) = a := by simpa [hoffer] using ha
    cases table with
    | images => exact himages
    | videos => exact hvideos
  · cases mishap with
    | some m => exact faithful_error _
    | none =>
      have hafter := Tables.flags_execute t (.fillFlags j images videos) j
      rw [ht, hoffer, Option.map_some, Flags.fill_some] at hafter
      have hreply : (t.execute (.fillFlags j images videos)).1 =
          .ok ((t.execute (.fillFlags j images videos)).2.flags? j) := rfl
      simp only [Tables.serve, hreply, hafter]
      intro a ha
      obtain rfl := Except.ok.inj ha
      have hoffered : Tables.offered none j (.fillFlags j images videos) = some ⟨images, videos⟩ :=
        hoffer
      rw [hoffered, Flags.fill_some]
      rfl

theorem faithful_assetsOf (j : String) (found : Findings) (row : Flags) :
    Faithful j (assetsOf j) found row := by
  refine faithful_reading rfl fun t mishap now ht hk => ?_
  cases mishap with
  | some m => exact faithful_error _
  | none =>
    have hreply : (t.execute (.selectFlags j)).1 = .ok (some now) := congrArg Except.ok ht
    have hderive (found : Findings) (row : Flags) : Faithful j (deriveAssets j) found row := by
      refine faithful_hasRows (fun cause _ _ => faithful_error _) fun images found₁ hsub₁ himages row₁ => ?_
      refine faithful_hasRows (fun cause _ _ => faithful_error _) fun videos found₂ hsub₂ hvideos row₂ => ?_
      exact faithful_fillFlags (hsub₂ _ _ himages) hvideos
    simp only [Tables.serve, hreply]
    obtain ⟨images, videos⟩ := now
    cases images with
    | none => exact hderive _ _
    | some images =>
      cases videos with
      | none => exact hderive _ _
      | some videos =>
        intro a ha
        obtain rfl := Except.ok.inj ha
        rfl

end Relational

/-- A statement that one of the calls has sent, and what the tables were like before it. -/
structure Sent where
  call : Nat
  statement : Statement
  mishap : Option Mishap
  before : Tables

namespace Sent

def update (j : String) (sent : Sent) : Option Assets := Tables.offered sent.mishap j sent.statement

def finding (j : String) (sent : Sent) : Option (AssetTable × Bool) :=
  sent.statement.finding j (sent.before.serve sent.mishap sent.statement).1

end Sent

/-- Calls for the assets of a job, as far as each has got. -/
structure Derivation where
  tables : Tables
  calls : List (Relational.Querying (Except StoreFault Assets))
  log : List Sent

inductive Happening where
  | call
  /-- The next statement of a call reaches the database. -/
  | act (call : Nat) (mishap : Option Mishap)
  /-- Somebody else writes. -/
  | change (f : Tables → Tables)

namespace Derivation

def start (t : Tables) : Derivation := ⟨t, [], []⟩

def serve (c : Derivation) (i : Nat) (mishap : Option Mishap) (s : Statement)
    (next : s.Reply → Relational.Querying (Except StoreFault Assets)) : Derivation where
  tables := (c.tables.serve mishap s).2
  calls := c.calls.set i (next (c.tables.serve mishap s).1)
  log := c.log ++ [⟨i, s, mishap, c.tables⟩]

def act (c : Derivation) (i : Nat) (mishap : Option Mishap) : Derivation :=
  match c.calls[i]? with
  | some (.ask (.run s) next) => c.serve i mishap s next
  | some (.ask (.report _) next) => { c with calls := c.calls.set i (next ()) }
  | some (.done _) | none => c

def step (j : String) (c : Derivation) : Happening → Derivation
  | .call => { c with calls := c.calls ++ [Relational.assetsOf j] }
  | .act i mishap => c.act i mishap
  | .change f => { c with tables := f c.tables }

def run (j : String) (c : Derivation) (happenings : List Happening) : Derivation :=
  happenings.foldl (step j) c

def returned (c : Derivation) : List Assets :=
  c.calls.filterMap fun
    | .done (.ok a) => some a
    | .done (.error _) | .ask .. => none

def Updated (j : String) (c : Derivation) : Prop := ∃ sent ∈ c.log, sent.update j ≠ none

def found (j : String) (c : Derivation) (i : Nat) : Findings := fun table value =>
  ∃ sent ∈ c.log, sent.call = i ∧ sent.finding j = some (table, value)

/-- How things stand if the flags were `first` at the start and are `now` in the row. -/
structure Stands (j : String) (first : Statement.Flags) (c : Derivation) (now : Statement.Flags) :
    Prop where
  row : c.tables.flags? j = some now
  kept : first.Kept now
  faithful : ∀ i p, c.calls[i]? = some p → Relational.Faithful j p (c.found j i) now
  derived : ∀ table value, first.of table = none → now.of table = some value →
    ∃ i, c.found j i table value
  full : c.Updated j → ∃ a : Assets, now = a.flags

variable {j : String} {first now : Statement.Flags} {c : Derivation}

theorem mem_returned {a : Assets} (h : a ∈ c.returned) : ∃ i : Nat, c.calls[i]? = some (.done (.ok a)) := by
  obtain ⟨p, hp, ha⟩ := List.mem_filterMap.1 h
  obtain ⟨i, hi⟩ := List.mem_iff_getElem?.1 hp
  split at ha
  · obtain rfl := Option.some.inj ha
    exact ⟨i, hi⟩
  · cases ha
  · cases ha

theorem call_set {calls : List (Relational.Querying (Except StoreFault Assets))} {i k : Nat}
    {p q : Relational.Querying (Except StoreFault Assets)} (h : (calls.set i p)[k]? = some q) :
    k = i ∧ q = p ∨ calls[k]? = some q := by
  by_cases hk : i = k
  · subst hk
    rw [List.getElem?_set_self'] at h
    obtain ⟨_, -, rfl⟩ := Option.map_eq_some_iff.1 h
    exact .inl ⟨rfl, rfl⟩
  · rw [List.getElem?_set_ne hk] at h
    exact .inr h

theorem found_serve {i k : Nat} {mishap : Option Mishap} {s : Statement}
    {next : s.Reply → Relational.Querying (Except StoreFault Assets)} {table : AssetTable}
    {value : Bool} : (c.serve i mishap s next).found j k table value ↔ c.found j k table value ∨
      i = k ∧ s.finding j (c.tables.serve mishap s).1 = some (table, value) := by
  simp [found, serve, or_and_right, exists_or, Sent.finding]

/-- A statement that is executed can only set flags, to what its call has found out. -/
theorem Stands.served (h : c.Stands j first now) {i : Nat} {mishap : Option Mishap} {s : Statement}
    {next : s.Reply → Relational.Querying (Except StoreFault Assets)}
    (hi : c.calls[i]? = some (.ask (.run s) next)) :
    (c.serve i mishap s next).Stands j first (now.fill (Tables.offered mishap j s)) := by
  have hme := h.faithful i _ hi
  have hkept := now.kept_fill (Tables.offered mishap j s)
  refine ⟨?_, h.kept.trans hkept, fun k p hp => ?_, fun table value hfirst hnow => ?_, ?_⟩
  · change (c.tables.serve mishap s).2.flags? j = _
    rw [Tables.flags_serve, h.row, Option.map_some]
  · obtain ⟨rfl, rfl⟩ | hp := call_set hp
    · exact (hme.2 c.tables mishap now h.row (.refl now)).mono
        (fun table value hnew => found_serve.2 (hnew.imp_right (.intro rfl))) (.refl _)
    · exact (h.faithful k p hp).mono (fun table value hold => found_serve.2 (.inl hold)) hkept
  · rw [Statement.Flags.of_fill] at hnow
    cases hold : now.of table with
    | some v =>
      obtain rfl : v = value := by simpa [hold] using hnow
      obtain ⟨k, hk⟩ := h.derived table v hfirst hold
      exact ⟨k, found_serve.2 (.inl hk)⟩
    | none =>
      obtain ⟨a, hoffered, rfl⟩ : ∃ a, Tables.offered mishap j s = some a ∧ a.shown table = value := by
        simpa [hold] using hnow
      exact ⟨i, found_serve.2 (.inl (hme.1 a (Tables.offer_of_offered hoffered) table))⟩
  · rintro ⟨sent, hsent, hupdate⟩
    obtain hsent | hsent := List.mem_append.1 hsent
    · obtain ⟨a, rfl⟩ := h.full ⟨sent, hsent, hupdate⟩
      exact ⟨a, hkept.eq_of_full⟩
    · obtain rfl := List.mem_singleton.1 hsent
      obtain ⟨a, ha⟩ := Option.ne_none_iff_exists'.1 hupdate
      exact ⟨_, (congrArg now.fill ha).trans (now.fill_some a)⟩

theorem Stands.step (h : c.Stands j first now) (happening : Happening)
    (hother : ∀ f, happening = .change f → ∀ t, (f t).flags? j = t.flags? j) :
    ∃ later, (c.step j happening).Stands j first later ∧ now.Kept later := by
  cases happening with
  | call =>
    refine ⟨now, { h with faithful := fun i p hp => ?_ }, .refl now⟩
    change (c.calls ++ [Relational.assetsOf j])[i]? = some p at hp
    by_cases hi : i < c.calls.length
    · rw [List.getElem?_append_left hi] at hp
      exact h.faithful i p hp
    · rw [List.getElem?_append_right (Nat.le_of_not_lt hi)] at hp
      obtain rfl := List.mem_singleton.1 (List.mem_of_getElem? hp)
      exact Relational.faithful_assetsOf j _ _
  | change f => exact ⟨now, { h with row := (hother f rfl c.tables).trans h.row }, .refl now⟩
  | act i mishap =>
    change ∃ later, (c.act i mishap).Stands j first later ∧ now.Kept later
    unfold act
    split
    · rename_i s next hi
      exact ⟨_, h.served hi, now.kept_fill _⟩
    · rename_i incident next hi
      refine ⟨now, { h with faithful := fun k p hp => ?_ }, .refl now⟩
      have hme : Relational.Faithful j (next ()) (c.found j i) now :=
        h.faithful i (.ask (.report incident) next) hi
      obtain ⟨rfl, rfl⟩ | hp := call_set hp
      · exact hme
      · exact h.faithful k p hp
    · exact ⟨now, h, .refl now⟩
    · exact ⟨now, h, .refl now⟩

theorem Stands.run (h : c.Stands j first now) {happenings : List Happening}
    (hother : ∀ f, .change f ∈ happenings → ∀ t, (f t).flags? j = t.flags? j) :
    ∃ later, (c.run j happenings).Stands j first later ∧ now.Kept later := by
  induction happenings generalizing c now with
  | nil => exact ⟨now, h, .refl now⟩
  | cons happening happenings ih =>
    obtain ⟨next, hnext, hkept⟩ := h.step happening fun f hf => hother f (hf ▸ List.mem_cons_self)
    obtain ⟨last, hlast, hkept'⟩ := ih hnext fun f hf => hother f (List.mem_cons_of_mem _ hf)
    exact ⟨last, hlast, hkept.trans hkept'⟩

theorem Stands.start {t : Tables} (ht : t.flags? j = some first) :
    (Derivation.start t).Stands j first first where
  row := ht
  kept := .refl first
  faithful i p hp := by simp [Derivation.start] at hp
  derived table value hnone hsome := by simp [hnone] at hsome
  full := by simp [Derivation.start, Updated]

theorem Stands.returned (h : c.Stands j first now) {a : Assets} (ha : a ∈ c.returned) :
    now = a.flags := by
  obtain ⟨i, hi⟩ := mem_returned ha
  exact h.faithful i _ hi a rfl

/-- All that is in the row at some moment is still there in the end. -/
theorem stands_before {t : Tables} (ht : t.flags? j = some first) {happenings : List Happening}
    (hother : ∀ f, .change f ∈ happenings → ∀ t, (f t).flags? j = t.flags? j) :
    ∃ last, ∀ before, before <+: happenings →
      ∃ now, ((Derivation.start t).run j before).Stands j first now ∧ now.Kept last := by
  obtain ⟨last, hlast, -⟩ := (Stands.start ht).run hother
  refine ⟨last, ?_⟩
  rintro before ⟨after, rfl⟩
  obtain ⟨now, hnow, -⟩ := (Stands.start ht).run fun f hf => hother f (List.mem_append_left after hf)
  obtain ⟨final, hfinal, hkept⟩ := hnow.run fun f hf => hother f (List.mem_append_right before hf)
  have hsame : some final = some last := by
    rw [← hfinal.row, ← hlast.row, run, run, run, List.foldl_append]
  exact ⟨now, hnow, Option.some.inj hsame ▸ hkept⟩

/-- The flags of a job are derived once. At every moment, the calls that have succeeded returned the same
assets, which are in the row, and have been since the first update. Flags that were set at the start
never change, and those that were null were found like this by one of the calls. -/
theorem flags_derived_once {j : String} {first : Statement.Flags} {t : Tables}
    (hrow : t.flags? j = some first) {happenings : List Happening}
    (hother : ∀ f, .change f ∈ happenings → ∀ t, (f t).flags? j = t.flags? j) :
    ∃ a : Assets, ∀ before, before <+: happenings →
      let c := (start t).run j before
      (∀ b ∈ c.returned, b = a ∧ c.tables.flags? j = some a.flags) ∧
      (c.Updated j → c.tables.flags? j = some a.flags) ∧
      ∃ now, c.tables.flags? j = some now ∧ first.Kept now ∧
        ∀ table value, first.of table = none → now.of table = some value →
          ∃ sent ∈ c.log, sent.finding j = some (table, value) ∧
            sent.before.shows table j = value := by
  obtain ⟨last, hmoments⟩ := stands_before hrow hother
  obtain ⟨a, ha⟩ := last.assets_unique
  refine ⟨a, fun before hb => ?_⟩
  obtain ⟨now, hnow, hkept⟩ := hmoments before hb
  have hfull (b : Assets) (hb : now = b.flags) : b = a := by
    subst hb
    exact ha b hkept.eq_of_full
  refine ⟨fun b hret => ?_, fun hup => ?_, now, hnow.row, hnow.kept, fun table value hnone hsome => ?_⟩
  · have hb := hnow.returned hret
    obtain rfl := hfull b hb
    exact ⟨rfl, hb ▸ hnow.row⟩
  · obtain ⟨b, hb⟩ := hnow.full hup
    obtain rfl := hfull b hb
    exact hb ▸ hnow.row
  · obtain ⟨i, sent, hsent, -, hfinding⟩ := hnow.derived table value hnone hsome
    exact ⟨sent, hsent, hfinding, Tables.shows_of_finding hfinding⟩

/-- The first call finds no tables; before it gets to write that down, images are collected, and a second
call finds them and is done. -/
theorem flags_derived_once_overtaken :
    let row : JobRecord := ⟨"job", "fashion", Phase.evidence.name, (none, none), by decide +kernel⟩
    let collect (t : Tables) : Tables :=
      { t with collected := fun | .images => some ["job"] | .videos => none }
    let first := [.call, .act 0 none, .act 0 none]
    let second := [.change collect, .call, .act 1 none, .act 1 none, .act 1 none, .act 1 none,
      .act 1 none]
    let rest := [.act 0 none, .act 0 none]
    let c := (start (Tables.empty.create row)).run "job" (first ++ second ++ rest)
    c.log.map (Sent.update "job") = [none, none, none, none, none, none, some ⟨true, false⟩,
        none, some ⟨false, false⟩] ∧
      c.returned.length = 2 ∧ (∀ b ∈ c.returned, b = ⟨true, false⟩) ∧
      c.tables.flags? "job" = some (some true, some false) := by
  intro row collect first second rest c
  have hrow : (Tables.empty.create row).flags? "job" = some (none, none) := by decide +kernel
  have hother : ∀ f, .change f ∈ first ++ second ++ rest → ∀ t, (f t).flags? "job" = t.flags? "job" := by
    intro f hf t
    obtain rfl : f = collect := by simpa [first, second, rest] using hf
    rfl
  obtain ⟨a, ha⟩ := flags_derived_once hrow hother
  obtain ⟨hreturned, -⟩ := ha _ (List.prefix_refl _)
  have htrue : ⟨true, false⟩ ∈ c.returned := by decide +kernel
  obtain ⟨rfl, hflags⟩ := hreturned _ htrue
  exact ⟨by decide +kernel, by decide +kernel, fun b hb => (hreturned b hb).1, hflags⟩

end Derivation
end PhaseKeeper
