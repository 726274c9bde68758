import Mathlib.Data.List.Basic
import Mathlib.Tactic.Common
import PhaseKeeper.Bus.Endpoint
import PhaseKeeper.Number.Decimal
/-!
The texts that stand for endpoints. An endpoint is read from just those, and is written as one of them,
in which the port has no sign and no zeros in front.
-/
namespace PhaseKeeper.Endpoint

section SplitLast
variable {c : Char} {s before after : List Char}

theorem splitLast_eq_none_iff : splitLast c s = none ↔ c ∉ s := by
  induction s with
  | nil => simp [splitLast]
  | cons a r ih =>
    rw [splitLast, List.mem_cons, not_or, ← ih]
    cases splitLast c r with
    | some p => simp
    | none => simp [eq_comm]

theorem splitLast_eq_some_iff :
    splitLast c s = some (before, after) ↔ s = before ++ c :: after ∧ c ∉ after := by
  induction s generalizing before with
  | nil => simp [splitLast]
  | cons a r ih =>
    rw [splitLast]
    cases hr : splitLast c r with
    | none =>
      have hc := splitLast_eq_none_iff.1 hr
      cases before with
      | nil => grind
      | cons b before => grind
    | some p =>
      obtain ⟨before', after'⟩ := p
      rw [hr] at ih
      cases before with
      | nil =>
        have hmem : c ∈ r := by
          by_contra hno
          rw [splitLast_eq_none_iff.2 hno] at hr
          cases hr
        simp only [Option.some.injEq, Prod.mk.injEq, reduceCtorEq, false_and, List.nil_append,
          List.cons.injEq, false_iff, not_and, Decidable.not_not, and_imp]
        rintro rfl rfl
        exact hmem
      | cons b before =>
        have hsplit := @ih before
        simp only [Option.some_inj, Prod.mk.injEq, List.cons.injEq, List.cons_append] at hsplit ⊢
        rw [and_assoc, hsplit, and_assoc]

end SplitLast

/-- The path, or the host. -/
def place : Endpoint → String
  | .ipc path => path
  | .tcp host _ => host

/-- The texts of an endpoint. Its port may have a sign and zeros in front. -/
inductive Written : Endpoint → String → Prop where
  | ipc {path : String} (hpath : path ≠ "") : Written (.ipc path) ("ipc://" ++ path)
  | tcp {host digits : String} {port : UInt16} (hhost : host ≠ "")
    (hport : Decimal.Spells port.toNat digits.toList) :
    Written (.tcp host port) ("tcp://" ++ host ++ ":" ++ digits)

variable {e : Endpoint} {s : String}

theorem ofPath?_eq_some_iff {path : List Char} :
    ofPath? path = some e ↔ path ≠ [] ∧ e = .ipc (.ofList path) := by
  rw [ofPath?]
  split_ifs with h
  · simp [List.isEmpty_iff.1 h]
  · simp [List.isEmpty_iff.not.1 h, eq_comm]

theorem ofAddress?_eq_some_iff {address : List Char} : ofAddress? address = some e ↔
    ∃ host digits port, address = host ++ ':' :: digits ∧ host ≠ [] ∧
      Decimal.Spells port.toNat digits ∧ e = .tcp (.ofList host) port := by
  constructor
  · intro h
    obtain ⟨⟨host, digits⟩, hsplit, h⟩ := Option.bind_eq_some_iff.1 h
    obtain ⟨n, hn, h⟩ := Option.bind_eq_some_iff.1 h
    obtain ⟨hspells, hlt⟩ := Decimal.below?_eq_some_iff.1 hn
    split_ifs at h with hhost
    cases h
    refine ⟨host, digits, .ofNat n, (splitLast_eq_some_iff.1 hsplit).1, ?_, ?_, rfl⟩
    · exact List.isEmpty_iff.not.1 hhost
    · rwa [UInt16.toNat_ofNat_of_lt' hlt]
  · rintro ⟨host, digits, port, rfl, hhost, hport, rfl⟩
    have hcolon : ':' ∉ digits := hport.not_mem (by decide) (by decide)
    have hsplit : splitLast ':' (host ++ ':' :: digits) = some (host, digits) :=
      splitLast_eq_some_iff.2 ⟨rfl, hcolon⟩
    have hbelow : Decimal.below? UInt16.size digits = some port.toNat :=
      Decimal.below?_eq_some_iff.2 ⟨hport, port.toNat_lt⟩
    simp [ofAddress?, hsplit, hbelow, hhost]

theorem ipcScheme_tcpScheme (r : List Char) :
    ipcScheme.toList.isPrefixOf? (tcpScheme.toList ++ r) = none := by
  rw [Option.eq_none_iff_forall_ne_some]
  intro path h
  have happend := List.append_eq_of_isPrefixOf?_eq_some h
  simp [ipcScheme, tcpScheme] at happend

theorem written_of_ofText? (h : ofText? s.toList = some e) : e.Written s := by
  rw [ofText?] at h
  cases hipc : ipcScheme.toList.isPrefixOf? s.toList with
  | some path =>
    rw [hipc] at h
    obtain ⟨hpath, rfl⟩ := ofPath?_eq_some_iff.1 h
    have hs : s = ipcScheme ++ .ofList path := String.toList_inj.1 (by
      simpa using (List.append_eq_of_isPrefixOf?_eq_some hipc).symm)
    subst hs
    exact .ipc (by simpa using hpath)
  | none =>
    rw [hipc] at h
    obtain ⟨address, htcp, h⟩ := Option.bind_eq_some_iff.1 h
    obtain ⟨host, digits, port, rfl, hhost, hport, rfl⟩ := ofAddress?_eq_some_iff.1 h
    have hs : s = tcpScheme ++ .ofList host ++ ":" ++ .ofList digits := String.toList_inj.1 (by
      simpa using (List.append_eq_of_isPrefixOf?_eq_some htcp).symm)
    subst hs
    exact .tcp (by simpa using hhost) (by simpa using hport)

theorem Written.ofText? (h : e.Written s) : ofText? s.toList = some e := by
  cases h with
  | @ipc path hpath =>
    have hprefix : ipcScheme.toList.isPrefixOf? (ipcScheme ++ path).toList = some path.toList :=
      List.isPrefixOf?_eq_some_iff_append_eq.2 (by simp)
    change Endpoint.ofText? (ipcScheme ++ path).toList = _
    rw [Endpoint.ofText?, hprefix]
    exact ofPath?_eq_some_iff.2 ⟨by simpa using hpath, by simp⟩
  | @tcp host digits port hhost hport =>
    have hlist : (tcpScheme ++ host ++ ":" ++ digits).toList =
        tcpScheme.toList ++ (host.toList ++ ':' :: digits.toList) := by simp
    change Endpoint.ofText? (tcpScheme ++ host ++ ":" ++ digits).toList = _
    rw [hlist, Endpoint.ofText?, ipcScheme_tcpScheme, List.isPrefixOf?_eq_some_iff_append_eq.2 rfl]
    exact ofAddress?_eq_some_iff.2 ⟨_, _, port, rfl, by simpa using hhost, hport, by simp⟩

theorem parse_eq_ok_iff : parse s = .ok e ↔ e.Written s := by
  rw [parse]
  cases h : ofText? s.toList with
  | some e' =>
    simp only [Except.ok.injEq]
    refine ⟨?_, fun hw => ?_⟩
    · rintro rfl
      exact written_of_ofText? h
    · exact Option.some_inj.1 (h.symm.trans hw.ofText?)
  | none => exact iff_of_false (by simp) fun hw => by simp [hw.ofText?] at h

theorem parse_eq_error_iff {m : Malformed} :
    parse s = .error m ↔ m = ⟨s⟩ ∧ ∀ e : Endpoint, ¬ e.Written s := by
  have hok (e : Endpoint) := @parse_eq_ok_iff e s
  simp only [← hok]
  rw [parse]
  cases ofText? s.toList with
  | some e => simp
  | none => simp [eq_comm]

theorem Written.place_ne (h : e.Written s) : e.place ≠ "" := by
  cases h with
  | ipc h => exact h
  | tcp h => exact h

theorem written_text (h : e.place ≠ "") : e.Written e.text := by
  cases e with
  | ipc path => exact .ipc h
  | tcp host port => exact .tcp h (Decimal.spells_toString _)

/-- The second text is the first, but for the port behind the last colon, which it has without sign
and without zeros in front. -/
inductive Tidied : String → String → Prop where
  | same (s : String) : Tidied s s
  | port (front : String) {digits : String} {n : Nat} (h : Decimal.Spells n digits.toList) :
    Tidied (front ++ ":" ++ digits) (front ++ ":" ++ toString n)

theorem Written.tidied (h : e.Written s) : Tidied s e.text := by
  cases h with
  | ipc => exact .same _
  | tcp _ hport => exact .port _ hport

/-- A text is read as an endpoint just if it is one of its texts, and all other texts are given back
whole. An endpoint is read back from what is written for it just if its path or host is not empty, and
none with an empty one is ever read. What is written for an endpoint that was read is what it was
read from, with the port tidied up. -/
theorem endpoint_texts :
    (∀ (s : String) (e : Endpoint), parse s = .ok e ↔ e.Written s) ∧
    (∀ (s : String) (m : Malformed), parse s = .error m ↔ m = ⟨s⟩ ∧ ∀ e : Endpoint, ¬ e.Written s) ∧
    (∀ e : Endpoint, parse e.text = .ok e ↔ e.place ≠ "") ∧
    ∀ (s : String) (e : Endpoint), parse s = .ok e → e.place ≠ "" ∧ Tidied s e.text := by
  refine ⟨fun _ _ => parse_eq_ok_iff, fun _ _ => parse_eq_error_iff, fun e => ?_, fun s e h => ?_⟩
  · rw [parse_eq_ok_iff]
    exact ⟨Written.place_ne, written_text⟩
  · have hw := parse_eq_ok_iff.1 h
    exact ⟨hw.place_ne, hw.tidied⟩

/-- The host has colons of its own, and the port has a sign and zeros in front. -/
theorem endpoint_texts_colons :
    parse "tcp://[::1]:+0080" = .ok (.tcp "[::1]" 80) ∧
      Tidied "tcp://[::1]:+0080" "tcp://[::1]:80" ∧
      parse "tcp://[::1]:80" = .ok (.tcp "[::1]" 80) := by
  obtain ⟨hread, -, hback, htidy⟩ := endpoint_texts
  have hport : Decimal.Spells (80 : UInt16).toNat "+0080".toList :=
    .signed ⟨by decide, List.all_eq_true.1 (by decide), by decide⟩
  have hok : parse "tcp://[::1]:+0080" = .ok (.tcp "[::1]" 80) :=
    (hread _ _).2 (@Written.tcp "[::1]" _ _ (by decide) hport)
  have htext : (Endpoint.tcp "[::1]" 80).text = "tcp://[::1]:80" := by decide
  exact ⟨hok, htext ▸ (htidy _ _ hok).2, htext ▸ (hback (.tcp "[::1]" 80)).2 (by decide)⟩

end PhaseKeeper.Endpoint
