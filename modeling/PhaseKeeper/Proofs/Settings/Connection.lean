import Mathlib.Tactic.Common
import PhaseKeeper.Number.Decimal
import PhaseKeeper.Settings.Resolved
/-!
What the text of a connection says about its parts. They are put together as they are, with marks
between them, and nothing in a part tells its own characters from a mark. So the text determines the
parts only where each of them ends at the first mark that can end it.
-/
namespace PhaseKeeper

namespace Text

/-- Marks that end a part of a text. The first character of a mark does not come again inside it, and
no mark is the beginning of another. -/
structure Marks (isMark : List Char → Prop) (first : Char) : Prop where
  head : ∀ {m}, isMark m → ∃ tail, m = first :: tail ∧ first ∉ tail
  apart : ∀ {m m' r r'}, isMark m → isMark m' → m ++ r = m' ++ r' → m = m'

def Unmarked (isMark : List Char → Prop) (s : List Char) : Prop :=
  ∀ before m after, isMark m → s ≠ before ++ m ++ after

variable {isMark : List Char → Prop} {c : Char} {s s' m m' r r' : List Char}

theorem unmarked_char_iff : Unmarked (· = [c]) s ↔ c ∉ s := by
  rw [← not_iff_not, not_not]
  constructor
  · intro h
    simp only [Unmarked, not_forall, not_not] at h
    obtain ⟨before, m, after, rfl, rfl⟩ := h
    simp
  · intro h hno
    obtain ⟨before, after, rfl⟩ := List.append_of_mem h
    exact hno before [c] after rfl (by simp)

theorem marks_single {tail : List Char} (h : c ∉ tail) : Marks (· = c :: tail) c where
  head hm := ⟨tail, hm, h⟩
  apart hm hm' _ := hm.trans hm'.symm

namespace Marks

theorem unmarked (h : Marks isMark c) (hs : c ∉ s) : Unmarked isMark s := by
  rintro before m after hm rfl
  obtain ⟨tail, rfl, -⟩ := h.head hm
  simp at hs

theorem not_beyond (h : Marks isMark c) (hm : isMark m) (hm' : isMark m') {front : List Char}
    (hs : Unmarked isMark (s ++ front)) (heq : m ++ r = front ++ (m' ++ r')) : front = [] := by
  by_contra hfront
  obtain ⟨x, hx, -⟩ | ⟨x, hx, hrest⟩ := List.append_eq_append_iff.1 heq
  · exact hs s m x hm (by rw [hx, List.append_assoc])
  · -- the second mark would begin inside the first
    cases x with
    | nil => exact hs s m [] hm (by rw [hx]; simp)
    | cons a x =>
      obtain ⟨tail, rfl, hno⟩ := h.head hm
      obtain ⟨tail', rfl, -⟩ := h.head hm'
      obtain ⟨rfl, -⟩ := List.cons_eq_cons.1 hrest
      cases front with
      | nil => exact hfront rfl
      | cons b front =>
        obtain ⟨-, rfl⟩ := List.cons_eq_cons.1 hx
        exact hno (by simp)

theorem cut_unique (h : Marks isMark c) (hm : isMark m) (hm' : isMark m') (hs : Unmarked isMark s)
    (hs' : Unmarked isMark s') (heq : s ++ m ++ r = s' ++ m' ++ r') :
    s = s' ∧ m = m' ∧ r = r' := by
  have hparts : s = s' ∧ m ++ r = m' ++ r' := by
    simp only [List.append_assoc] at heq
    obtain ⟨front, rfl, hrest⟩ | ⟨front, rfl, hrest⟩ := List.append_eq_append_iff.1 heq
    · cases h.not_beyond hm hm' hs' hrest
      exact ⟨(List.append_nil s).symm, hrest⟩
    · cases h.not_beyond hm' hm hs hrest
      exact ⟨List.append_nil s', hrest.symm⟩
  obtain ⟨rfl, hrest⟩ := hparts
  cases h.apart hm hm' hrest
  exact ⟨rfl, rfl, List.append_cancel_left hrest⟩

theorem exists_cut (h : Marks isMark c) (s : List Char) {m : List Char} (hm : isMark m) :
    ∃ s' m' x, isMark m' ∧ Unmarked isMark s' ∧ ∀ r, s ++ m ++ r = s' ++ m' ++ (x ++ r) := by
  by_cases hs : Unmarked isMark s
  · exact ⟨s, m, [], hm, hs, fun r => rfl⟩
  · simp only [Unmarked, not_forall, not_not] at hs
    obtain ⟨before, m', after, hm', rfl⟩ := hs
    have hshorter : before.length < (before ++ m' ++ after).length := by
      obtain ⟨tail, rfl, -⟩ := h.head hm'
      simp
    obtain ⟨s', m'', x, hm'', hs', hcut⟩ := exists_cut h before hm'
    refine ⟨s', m'', x ++ after ++ m, hm'', hs', fun r => ?_⟩
    simpa using hcut (after ++ m ++ r)
  termination_by s.length

end Marks
end Text

namespace DatabaseSettings
open Text (Marks Unmarked marks_single unmarked_char_iff)

/-- They name the same user, secret, server, database and mode. -/
structure Agrees (s s' : DatabaseSettings) : Prop where
  user : s.user = s'.user
  secret : s.secret = s'.secret
  host : s.host = s'.host
  port : s.port = s'.port
  database : s.database = s'.database
  sslMode : s.sslMode = s'.sslMode

/-- What stands between the host and the name of the database. -/
def portMark (port : UInt16) : List Char := ':' :: (toString port.toNat).toList ++ ['/']

def IsPortMark (m : List Char) : Prop := ∃ port, m = portMark port

def modeMark : List Char := '?' :: "sslmode=".toList

/-- No part has in it what ends it. -/
structure Separable (s : DatabaseSettings) : Prop where
  user : ':' ∉ s.user.toList
  secret : '@' ∉ s.secret.toList
  host : Unmarked IsPortMark s.host.toList
  database : Unmarked (· = modeMark) s.database.toList

variable {s s' : DatabaseSettings} {port port' : UInt16} {r r' : List Char}

theorem not_mem_port {c : Char} (hc : c.isDigit = false) (hs : c ≠ '+') (port : UInt16) :
    c ∉ (toString port.toNat).toList := (Decimal.spells_toString port.toNat).not_mem hc hs

theorem marks_modeMark : Marks (· = modeMark) '?' := marks_single (by decide)

theorem portMark_inj (h : portMark port ++ r = portMark port' ++ r') : port = port' := by
  have hslash (port : UInt16) : Unmarked (· = ['/']) (toString port.toNat).toList :=
    unmarked_char_iff.2 (not_mem_port (by decide) (by decide) port)
  obtain ⟨hdigits, -⟩ := (marks_single List.not_mem_nil).cut_unique rfl rfl (hslash port)
    (hslash port') (List.cons_eq_cons.1 h).2
  have hport : some port.toNat = some port'.toNat := by
    rw [← Decimal.ofText?_eq_some_iff.2 (Decimal.spells_toString port.toNat),
      ← Decimal.ofText?_eq_some_iff.2 (Decimal.spells_toString port'.toNat), hdigits]
  exact UInt16.toNat_inj.1 (Option.some.inj hport)

theorem marks_port : Marks IsPortMark ':' where
  head := by
    rintro m ⟨port, rfl⟩
    refine ⟨_, rfl, fun hm => ?_⟩
    obtain hm | hm := List.mem_append.1 hm
    · exact not_mem_port (by decide) (by decide) port hm
    · exact absurd hm (by decide)
  apart := by
    rintro m m' r r' ⟨port, rfl⟩ ⟨port', rfl⟩ h
    rw [portMark_inj h]

theorem toList_connectionString (s : DatabaseSettings) : s.connectionString.toList =
    "postgres://".toList ++ (s.user.toList ++ [':'] ++ (s.secret.toList ++ ['@'] ++
      (s.host.toList ++ portMark s.port ++
        (s.database.toList ++ modeMark ++ s.sslMode.toList)))) := by
  unfold connectionString
  simp [portMark, modeMark]

theorem Separable.congr (h : s.Separable) (hs : s'.Agrees s) : s'.Separable where
  user := hs.user ▸ h.user
  secret := hs.secret ▸ h.secret
  host := hs.host ▸ h.host
  database := hs.database ▸ h.database

theorem Separable.agrees (h : s.Separable) (h' : s'.Separable)
    (heq : s.connectionString = s'.connectionString) : s.Agrees s' := by
  have hlist := congrArg String.toList heq
  rw [toList_connectionString, toList_connectionString] at hlist
  obtain ⟨huser, -, hlist⟩ := (marks_single List.not_mem_nil).cut_unique rfl rfl
    (unmarked_char_iff.2 h.user) (unmarked_char_iff.2 h'.user) (List.append_cancel_left hlist)
  obtain ⟨hsecret, -, hlist⟩ := (marks_single List.not_mem_nil).cut_unique rfl rfl
    (unmarked_char_iff.2 h.secret) (unmarked_char_iff.2 h'.secret) hlist
  obtain ⟨hhost, hport, hlist⟩ := marks_port.cut_unique ⟨_, rfl⟩ ⟨_, rfl⟩ h.host h'.host hlist
  obtain ⟨hdatabase, -, hmode⟩ := marks_modeMark.cut_unique rfl rfl h.database h'.database hlist
  have hsame : s.port = s'.port := portMark_inj (congrArg (· ++ []) hport)
  exact ⟨String.toList_inj.1 huser, String.toList_inj.1 hsecret, String.toList_inj.1 hhost, hsame,
    String.toList_inj.1 hdatabase, String.toList_inj.1 hmode⟩

/-- Cut at its first marks, a text is that of settings whose parts are separable. -/
theorem exists_separable (s : DatabaseSettings) :
    ∃ s' : DatabaseSettings, s'.Separable ∧ s'.connectionString = s.connectionString := by
  obtain ⟨user, _, x, rfl, huser, hcut⟩ :=
    (marks_single (c := ':') List.not_mem_nil).exists_cut s.user.toList rfl
  obtain ⟨secret, _, y, rfl, hsecret, hcut'⟩ :=
    (marks_single (c := '@') List.not_mem_nil).exists_cut (x ++ s.secret.toList) rfl
  obtain ⟨host, _, z, ⟨port, rfl⟩, hhost, hcut''⟩ :=
    marks_port.exists_cut (y ++ s.host.toList) ⟨s.port, rfl⟩
  obtain ⟨database, _, w, rfl, hdatabase, hcut'''⟩ :=
    marks_modeMark.exists_cut (z ++ s.database.toList) rfl
  let s' : DatabaseSettings := ⟨.ofList host, port, .ofList database, some (.ofList user),
    some (.ofList secret), .ofList (w ++ s.sslMode.toList), s.maxConnections⟩
  have hu : s'.user.toList = user := String.toList_ofList
  have hp : s'.secret.toList = secret := String.toList_ofList
  have hh : s'.host.toList = host := String.toList_ofList
  have hd : s'.database.toList = database := String.toList_ofList
  have hw : s'.sslMode.toList = w ++ s.sslMode.toList := String.toList_ofList
  refine ⟨s', ⟨?_, ?_, hh ▸ hhost, hd ▸ hdatabase⟩, String.toList_inj.1 ?_⟩
  · exact unmarked_char_iff.1 (hu ▸ huser)
  · exact unmarked_char_iff.1 (hp ▸ hsecret)
  · rw [toList_connectionString, toList_connectionString, hu, hp, hh, hd, hw, ← hcut''']
    simp only [List.append_assoc] at hcut hcut' hcut'' ⊢
    rw [hcut, hcut', hcut'']

/-- Separable parts are determined by the text of the connection, and no others are: settings with a
part that is not have the text of settings that do not agree with them. -/
theorem separable_determined :
    (∀ s s' : DatabaseSettings, s.Separable → s'.Separable →
      s.connectionString = s'.connectionString → s.Agrees s') ∧
    ∀ s : DatabaseSettings, ¬ s.Separable →
      ∃ s', s'.Separable ∧ s'.connectionString = s.connectionString ∧ ¬ s.Agrees s' := by
  refine ⟨fun s s' h h' => h.agrees h', fun s hs => ?_⟩
  obtain ⟨s', hs', heq⟩ := exists_separable s
  exact ⟨s', hs', heq, fun hagrees => hs (hs'.congr hagrees)⟩

def colonUser : DatabaseSettings :=
  ⟨"localhost", 5432, "matchflow", some "a:b", some "c", "prefer", 10⟩

def colonSecret : DatabaseSettings :=
  { colonUser with username := some "a", password := some "b:c" }

theorem not_determined_colon : ¬ ∀ s s' : DatabaseSettings,
    s.connectionString = s'.connectionString → s.Agrees s' := by
  intro h
  have hagrees := h colonUser colonSecret (by decide)
  exact absurd hagrees.user (by decide)

/-- Whoever gives no name connects under the usual one. The secret has a colon, the name of the
database a slash and a question mark. -/
theorem separable_determined_usual_user :
    let s : DatabaseSettings := ⟨"localhost", 5432, "a/b?c", none, some "x:y", "require", 10⟩
    let s' := { s with username := some "postgres", maxConnections := 5 }
    s.Separable ∧ s'.Separable ∧ s.connectionString = s'.connectionString ∧ s.Agrees s' ∧
      ¬ colonUser.Separable ∧ ∃ t : DatabaseSettings,
        t.connectionString = colonUser.connectionString ∧ ¬ colonUser.Agrees t := by
  intro s s'
  have hs : s.Separable := by
    refine ⟨by decide, by decide, marks_port.unmarked (by decide), ?_⟩
    rintro before m after rfl h
    have hlength := congrArg List.length h
    simp [s, modeMark] at hlength
    omega
  have hs' : s'.Separable := hs.congr ⟨rfl, rfl, rfl, rfl, rfl, rfl⟩
  have hcolon : ¬ colonUser.Separable := fun h => absurd h.user (by decide)
  obtain ⟨t, -, htext, hdiffers⟩ := separable_determined.2 colonUser hcolon
  exact ⟨hs, hs', rfl, separable_determined.1 s s' hs hs' rfl, hcolon, t, htext, hdiffers⟩

end DatabaseSettings
end PhaseKeeper
