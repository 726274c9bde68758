import Mathlib.Tactic.Common
import PhaseKeeper.Number.Decimal
import PhaseKeeper.Settings.Resolved
/-!
How the environment determines the settings under a profile: which variable each of them is taken from,
what it is then, and that no other variable has a part in it.
-/
namespace PhaseKeeper

namespace Environment

/-- The variable is unset, or set to the empty text. -/
def Blank (env : Environment) (name : String) : Prop := ∀ v, env.lookup name = some v → v = ""

/-- The value that a setting has in the environment: that of its variable under the profile, or else
that of its plain variable. -/
inductive Chosen (env : Environment) (p key : String) : Option String → Prop where
  | profiled {v : String} (hp : p ≠ "") (h : env.lookup (p ++ "_" ++ key) = some v) (hv : v ≠ "") :
    env.Chosen p key (some v)
  | plain {v : String} (hno : p ≠ "" → env.Blank (p ++ "_" ++ key)) (h : env.lookup key = some v)
    (hv : v ≠ "") : env.Chosen p key (some v)
  | unset (hno : p ≠ "" → env.Blank (p ++ "_" ++ key)) (h : env.Blank key) : env.Chosen p key none

/-- What a value comes to as a number less than `bound`. -/
inductive Reckoned (bound default : Nat) : Option String → Nat → Prop where
  | number {s : String} {n : Nat} (h : Decimal.Spells n s.toList) (hn : n < bound) :
    Reckoned bound default (some s) n
  | unreadable {s : String} (h : ∀ n < bound, ¬ Decimal.Spells n s.toList) :
    Reckoned bound default (some s) default
  | unset : Reckoned bound default none default

def IsText (env : Environment) (p key default s : String) : Prop :=
  ∃ v, env.Chosen p key v ∧ s = v.getD default

def IsNumber (env : Environment) (p key : String) (bound default n : Nat) : Prop :=
  ∃ v, env.Chosen p key v ∧ Reckoned bound default v n

variable {env : Environment} {p key name v : String} {bound default n : Nat}

theorem filled?_eq_some_iff : env.filled? name = some v ↔ env.lookup name = some v ∧ v ≠ "" := by
  rw [filled?, Option.filter_eq_some_iff, decide_eq_true_eq]

theorem filled?_eq_none_iff : env.filled? name = none ↔ env.Blank name := by
  rw [filled?, Option.filter_eq_none_iff]
  simp [Blank]

theorem chosen_iff {v : Option String} : env.Chosen p key v ↔ env.profiled? p key = v := by
  have hblank : (p ≠ "" → env.Blank (p ++ "_" ++ key)) ↔
      p = "" ∨ env.filled? (ofProfile p key) = none := by
    rw [filled?_eq_none_iff, ← or_iff_not_imp_left]
    rfl
  constructor
  · intro h
    cases h with
    | profiled hp h hv =>
      have hfilled : env.filled? (ofProfile p key) = some _ := filled?_eq_some_iff.2 ⟨h, hv⟩
      rw [profiled?, if_neg hp, hfilled, Option.some_or]
    | plain hno h hv =>
      have hfilled : env.filled? key = some _ := filled?_eq_some_iff.2 ⟨h, hv⟩
      obtain hp | hno := hblank.1 hno <;> simp [profiled?, *]
    | unset hno h =>
      have hfilled := filled?_eq_none_iff.2 h
      obtain hp | hno := hblank.1 hno <;> simp [profiled?, *]
  · rintro rfl
    rw [profiled?]
    have hplain (hno : p = "" ∨ env.filled? (ofProfile p key) = none) :
        env.Chosen p key (env.filled? key) := by
      cases h : env.filled? key with
      | none => exact .unset (hblank.2 hno) (filled?_eq_none_iff.1 h)
      | some v =>
        obtain ⟨h, hv⟩ := filled?_eq_some_iff.1 h
        exact .plain (hblank.2 hno) h hv
    split_ifs with hp
    · exact hplain (.inl hp)
    · cases h : env.filled? (ofProfile p key) with
      | none => exact hplain (.inr h)
      | some v =>
        obtain ⟨h, hv⟩ := filled?_eq_some_iff.1 h
        exact .profiled hp h hv

theorem reckoned_iff {v : Option String} : Reckoned bound default v n ↔
    (v.bind fun s => Decimal.below? bound s.toList).getD default = n := by
  constructor
  · intro h
    cases h with
    | number h hn => simp [Decimal.below?_eq_some_iff.2 ⟨h, hn⟩]
    | unreadable h => simp [Decimal.below?_eq_none_iff.2 h]
    | unset => rfl
  · rintro rfl
    cases v with
    | none => exact .unset
    | some s =>
      rw [Option.bind_some]
      cases h : Decimal.below? bound s.toList with
      | none => exact .unreadable (Decimal.below?_eq_none_iff.1 h)
      | some n =>
        obtain ⟨h, hn⟩ := Decimal.below?_eq_some_iff.1 h
        exact .number h hn

theorem isText_iff {s : String} : env.IsText p key v s ↔ s = env.text p key v := by
  simp [IsText, chosen_iff, text]

theorem isNumber_iff : env.IsNumber p key bound default n ↔
    n = env.number p key bound default := by
  simp [IsNumber, chosen_iff, reckoned_iff, number, eq_comm]

theorem number_lt (h : default < bound) : env.number p key bound default < bound := by
  rw [number]
  cases hn : (env.profiled? p key).bind fun s => Decimal.below? bound s.toList with
  | none => exact h
  | some n =>
    obtain ⟨s, -, hs⟩ := Option.bind_eq_some_iff.1 hn
    exact (Decimal.below?_eq_some_iff.1 hs).2

end Environment

namespace Settings
open Environment (chosen_iff isText_iff isNumber_iff number_lt)

/-- What each setting is. -/
structure Resolved (env : Environment) (p : String) (s : Settings) : Prop where
  profile : s.profile = p
  host : env.IsText p "PG_HOST" "localhost" s.database.host
  port : env.IsNumber p "PG_PORT" UInt16.size 5432 s.database.port.toNat
  database : env.IsText p "PG_DATABASE" "matchflow" s.database.database
  username : env.Chosen p "PG_USERNAME" s.database.username
  password : env.Chosen p "PG_PASSWORD" s.database.password
  sslMode : env.IsText p "PG_SSL_MODE" "prefer" s.database.sslMode
  maxConnections : env.IsNumber p "PG_MAX_CONNECTIONS" UInt32.size 10 s.database.maxConnections.toNat
  frontend : env.IsText p "BUS_FRONTEND" "tcp://127.0.0.1:5555" s.bus.frontend
  backend : env.IsText p "BUS_BACKEND" "tcp://127.0.0.1:5556" s.bus.backend
  workerName : env.IsText p "WORKER_NAME" "phase-orchestrator" s.worker.workerName
  cacheCapacity : ∃ n, env.IsNumber p "DEDUP_CACHE_CAPACITY" UInt32.size 10000 n ∧
    s.worker.cacheCapacity.toNat = max 1 n
  maxInFlight : ∃ n, env.IsNumber p "MAX_IN_FLIGHT" UInt32.size 64 n ∧
    s.worker.maxInFlight.toNat = max 1 n
  healthInterval : ∃ n, env.IsNumber p "HEALTH_INTERVAL_SECS" UInt64.size 30 n ∧
    s.worker.healthIntervalSecs.toNat = max 1 n
  shutdownTimeout : env.IsNumber p "SHUTDOWN_TIMEOUT_SECS" UInt64.size 10
    s.worker.shutdownTimeoutSecs.toNat

def keys : List String :=
  ["PG_HOST", "PG_PORT", "PG_DATABASE", "PG_USERNAME", "PG_PASSWORD", "PG_SSL_MODE",
    "PG_MAX_CONNECTIONS", "BUS_FRONTEND", "BUS_BACKEND", "WORKER_NAME", "DEDUP_CACHE_CAPACITY",
    "MAX_IN_FLIGHT", "HEALTH_INTERVAL_SECS", "SHUTDOWN_TIMEOUT_SECS"]

/-- The variables that the settings under a profile are looked up in. -/
def Consults (p name : String) : Prop :=
  ∃ key ∈ keys, name = key ∨ p ≠ "" ∧ name = p ++ "_" ++ key

variable {env env' : Environment} {p q key key' : String} {s s' : Settings}

theorem toNat_raised {bound default : Nat} (hd : default < bound) (hb : bound ≤ UInt64.size) :
    (UInt64.ofNat (max 1 (env.number p key bound default))).toNat =
      max 1 (env.number p key bound default) :=
  UInt64.toNat_ofNat_of_lt' (Nat.max_lt.2 ⟨by decide, Nat.lt_of_lt_of_le (number_lt hd) hb⟩)

theorem resolved_ofProfile (env : Environment) (profile : String) :
    Resolved env (Text.upper profile) (ofProfile env profile) where
  profile := rfl
  host := isText_iff.2 rfl
  port := isNumber_iff.2 (UInt16.toNat_ofNat_of_lt' (number_lt (by decide)))
  database := isText_iff.2 rfl
  username := chosen_iff.2 rfl
  password := chosen_iff.2 rfl
  sslMode := isText_iff.2 rfl
  maxConnections := isNumber_iff.2 (UInt32.toNat_ofNat_of_lt' (number_lt (by decide)))
  frontend := isText_iff.2 rfl
  backend := isText_iff.2 rfl
  workerName := isText_iff.2 rfl
  cacheCapacity := ⟨_, isNumber_iff.2 rfl, toNat_raised (by decide) (by decide)⟩
  maxInFlight := ⟨_, isNumber_iff.2 rfl, toNat_raised (by decide) (by decide)⟩
  healthInterval := ⟨_, isNumber_iff.2 rfl, toNat_raised (by decide) (by decide)⟩
  shutdownTimeout := isNumber_iff.2 (UInt64.toNat_ofNat_of_lt' (number_lt (by decide)))

theorem Resolved.unique (h : Resolved env p s) (h' : Resolved env p s') : s = s' := by
  have htext {key default x y : String} (hx : env.IsText p key default x)
      (hy : env.IsText p key default y) : x = y := (isText_iff.1 hx).trans (isText_iff.1 hy).symm
  have hchosen {key : String} {x y : Option String} (hx : env.Chosen p key x)
      (hy : env.Chosen p key y) : x = y := (chosen_iff.1 hx).symm.trans (chosen_iff.1 hy)
  have hnumber {key : String} {bound default m n : Nat} (hm : env.IsNumber p key bound default m)
      (hn : env.IsNumber p key bound default n) : m = n :=
    (isNumber_iff.1 hm).trans (isNumber_iff.1 hn).symm
  have hraised {key : String} {bound default : Nat} {x y : UInt64}
      (hx : ∃ n, env.IsNumber p key bound default n ∧ x.toNat = max 1 n)
      (hy : ∃ n, env.IsNumber p key bound default n ∧ y.toNat = max 1 n) : x = y := by
    obtain ⟨m, hm, hx⟩ := hx
    obtain ⟨n, hn, hy⟩ := hy
    exact UInt64.toNat_inj.1 (by rw [hx, hy, hnumber hm hn])
  obtain ⟨profile, database, bus, worker⟩ := s
  obtain ⟨profile', database', bus', worker'⟩ := s'
  have hdatabase : database = database' := by
    cases database
    cases database'
    rw [DatabaseSettings.mk.injEq]
    exact ⟨htext h.host h'.host, UInt16.toNat_inj.1 (hnumber h.port h'.port),
      htext h.database h'.database, hchosen h.username h'.username, hchosen h.password h'.password,
      htext h.sslMode h'.sslMode, UInt32.toNat_inj.1 (hnumber h.maxConnections h'.maxConnections)⟩
  have hbus : bus = bus' := by
    cases bus
    cases bus'
    rw [BusSettings.mk.injEq]
    exact ⟨htext h.frontend h'.frontend, htext h.backend h'.backend⟩
  have hworker : worker = worker' := by
    cases worker
    cases worker'
    rw [WorkerSettings.mk.injEq]
    exact ⟨htext h.workerName h'.workerName, hraised h.cacheCapacity h'.cacheCapacity,
      hraised h.maxInFlight h'.maxInFlight, hraised h.healthInterval h'.healthInterval,
      UInt64.toNat_inj.1 (hnumber h.shutdownTimeout h'.shutdownTimeout)⟩
  rw [mk.injEq]
  exact ⟨h.profile.trans h'.profile.symm, hdatabase, hbus, hworker⟩

theorem Resolved.positive (h : Resolved env p s) : 0 < s.worker.cacheCapacity ∧
    0 < s.worker.maxInFlight ∧ 0 < s.worker.healthIntervalSecs := by
  have hraised {x : UInt64} {n : Nat} (hx : x.toNat = max 1 n) : 0 < x :=
    UInt64.lt_iff_toNat_lt.2 (hx ▸ Nat.lt_of_lt_of_le Nat.one_pos (Nat.le_max_left 1 n))
  obtain ⟨_, -, hcache⟩ := h.cacheCapacity
  obtain ⟨_, -, hlimit⟩ := h.maxInFlight
  obtain ⟨_, -, hinterval⟩ := h.healthInterval
  exact ⟨hraised hcache, hraised hlimit, hraised hinterval⟩

theorem ofProfile_congr {profile : String}
    (h : ∀ name, Consults (Text.upper profile) name → env'.lookup name = env.lookup name) :
    ofProfile env' profile = ofProfile env profile := by
  have hprofiled : ∀ key ∈ keys, Environment.profiled? env' (Text.upper profile) key =
      Environment.profiled? env (Text.upper profile) key := by
    intro key hkey
    have hplain := h key ⟨key, hkey, .inl rfl⟩
    have hown (hp : Text.upper profile ≠ "") := h _ ⟨key, hkey, .inr ⟨hp, rfl⟩⟩
    simp only [Environment.profiled?, Environment.filled?, Environment.ofProfile, hplain]
    split_ifs with hp
    · rfl
    · rw [hown hp]
  simp (disch := decide) only [ofProfile, DatabaseSettings.ofProfile, BusSettings.ofProfile,
    WorkerSettings.ofProfile, Environment.text, Environment.number, hprofiled]

/-- No key has another one as its end, behind an underscore. -/
theorem keys_apart : ∀ key ∈ keys, ∀ key' ∈ keys, ¬ '_' :: key'.toList <:+ key.toList := by decide

/-- So a variable tells the profile and the key that it belongs to. -/
theorem profile_key_injective (hkey : key ∈ keys) (hkey' : key' ∈ keys)
    (h : p ++ "_" ++ key = q ++ "_" ++ key') : p = q ∧ key = key' := by
  have hlist : p.toList ++ '_' :: key.toList = q.toList ++ '_' :: key'.toList := by
    simpa using congrArg String.toList h
  -- Of two keys behind different profiles the longer one would end in the other.
  have hnot {key key' : String} (hkey : key ∈ keys) (hkey' : key' ∈ keys) (c : Char) (r : List Char) :
      '_' :: key.toList ≠ c :: r ++ '_' :: key'.toList := by
    intro hlong
    obtain ⟨-, htail⟩ := List.cons_eq_cons.1 hlong
    exact keys_apart key hkey key' hkey' ⟨r, htail.symm⟩
  obtain ⟨front, hq, hrest⟩ | ⟨front, hp, hrest⟩ := List.append_eq_append_iff.1 hlist
  · cases front with
    | nil => simp_all [String.toList_inj]
    | cons c r => exact absurd hrest (hnot hkey hkey' c r)
  · cases front with
    | nil => simp_all [String.toList_inj]
    | cons c r => exact absurd hrest (hnot hkey' hkey c r)

theorem not_consults (hkey : key ∈ keys) (hq : q ≠ p) : ¬ Consults p (q ++ "_" ++ key) := by
  rintro ⟨key', hkey', hplain | ⟨-, hown⟩⟩
  · refine keys_apart key' hkey' key hkey ⟨q.toList, ?_⟩
    simpa using congrArg String.toList hplain
  · exact hq (profile_key_injective hkey hkey' hown).1

/-- Each setting is what the environment makes it, and only the variables that are consulted count: so
none of another profile does, and the profile itself counts only in upper case. No capacity is zero,
nor is the interval. -/
theorem settings_resolved (env : Environment) (profile : String) :
    (∀ s, Resolved env (Text.upper profile) s ↔ s = ofProfile env profile) ∧
    (0 < (ofProfile env profile).worker.cacheCapacity ∧
      0 < (ofProfile env profile).worker.maxInFlight ∧
      0 < (ofProfile env profile).worker.healthIntervalSecs) ∧
    (∀ env' : Environment,
      (∀ name, Consults (Text.upper profile) name → env'.lookup name = env.lookup name) →
      ofProfile env' profile = ofProfile env profile) ∧
    (∀ rival, rival ≠ Text.upper profile → ∀ key ∈ keys, ∀ value,
      ofProfile ((rival ++ "_" ++ key, value) :: env) profile = ofProfile env profile) ∧
    ∀ profile', Text.upper profile' = Text.upper profile →
      ofProfile env profile' = ofProfile env profile := by
  have hresolved := resolved_ofProfile env profile
  refine ⟨fun s => ⟨fun h => h.unique hresolved, ?_⟩, hresolved.positive, fun env' => ofProfile_congr,
    fun rival hrival key hkey value => ofProfile_congr fun name hname => ?_, fun profile' h => ?_⟩
  · rintro rfl
    exact hresolved
  · have hne : name ≠ rival ++ "_" ++ key := by
      rintro rfl
      exact not_consults hkey hrival hname
    rw [List.lookup_cons, beq_eq_false_iff_ne.2 hne]
  · rw [ofProfile, ofProfile, h]

def unreadablePort : Environment :=
  [("PROD_PG_PORT", "65536"), ("PG_PORT", "6543"), ("MAX_IN_FLIGHT", "+00")]

theorem settings_resolved_unreadable :
    (ofProfile unreadablePort "prod").database.port = 5432 ∧
      (ofProfile unreadablePort "prod").worker.maxInFlight = 1 ∧
      Resolved unreadablePort (Text.upper "prod") (ofProfile unreadablePort "prod") ∧
      ofProfile (("TEST_PG_HOST", "elsewhere") :: unreadablePort) "prod" =
        ofProfile unreadablePort "prod" ∧
      ofProfile unreadablePort "Prod" = ofProfile unreadablePort "prod" := by
  obtain ⟨hresolved, -, -, hrival, hcase⟩ := settings_resolved unreadablePort "prod"
  exact ⟨by decide, by decide, (hresolved _).2 rfl,
    hrival "TEST" (by decide) "PG_HOST" (by decide) "elsewhere", hcase "Prod" (by decide)⟩

end Settings
end PhaseKeeper
