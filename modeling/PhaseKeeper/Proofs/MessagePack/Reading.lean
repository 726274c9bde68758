import Mathlib.Algebra.Group.Nat.Defs
import Mathlib.Data.List.Induction
import Mathlib.Tactic.Common
import PhaseKeeper.MessagePack.Value
import PhaseKeeper.MessagePack.Writer
import PhaseKeeper.Proofs.Message.Drafts
import PhaseKeeper.Proofs.Text.Utf8
/-!
What a reader does with bytes that were written for it, and what it can return from any others. Each
of the three relations here goes through `>>=`, so that a reader is treated like the steps it is
made of.
-/
namespace PhaseKeeper.MessagePack

/-- The reader takes just these bytes off the front of any others, and returns `a`. -/
def Reads {α : Type} (read : Reader α) (bytes : Bytes) (a : α) : Prop :=
  ∀ rest, read (bytes ++ rest) = .ok (a, rest)

/-- The reader fails on these bytes, whatever follows. -/
def Fails {α : Type} (read : Reader α) (bytes : Bytes) (e : ReadError) : Prop :=
  ∀ rest, read (bytes ++ rest) = .error e

/-- Whatever the bytes are, the reader returns only such values. -/
def Ensures {α : Type} (read : Reader α) (P : α → Prop) : Prop :=
  ∀ bytes a rest, read bytes = .ok (a, rest) → P a

section Composition
variable {α β : Type} {read : Reader α} {next : α → Reader β} {front back : Bytes} {a : α} {b : β}
variable {P : α → Prop} {Q : β → Prop}

theorem Reads.pure (a : α) : Reads (pure a) [] a := fun _ => rfl

theorem Reads.bind_eq (h : Reads read front a) (rest : Bytes) :
    (read >>= next) (front ++ rest) = next a rest := by
  simp only [Bind.bind, StateT.bind, h rest, Except.bind]

theorem Reads.bind (h : Reads read front a) (h' : Reads (next a) back b) :
    Reads (read >>= next) (front ++ back) b := by
  intro rest
  rw [List.append_assoc, h.bind_eq]
  exact h' rest

theorem Reads.finish (h : Reads read front a) (h' : Reads (next a) [] b) :
    Reads (read >>= next) front b := by
  have hboth := h.bind h'
  rwa [List.append_nil] at hboth

theorem Reads.lift {x : Except ReadError α} (h : x = .ok a) : Reads (liftM x) [] a := by
  subst h
  exact fun _ => rfl

theorem Reads.map (f : α → β) (h : Reads read front a) : Reads (f <$> read) front (f a) := by
  intro rest
  simp only [Functor.map, StateT.map, h rest, Bind.bind, Except.bind, Pure.pure, Except.pure]

theorem Fails.bind (h : Reads read front a) {e : ReadError} (h' : Fails (next a) back e) :
    Fails (read >>= next) (front ++ back) e := by
  intro rest
  rw [List.append_assoc, h.bind_eq]
  exact h' rest

theorem Fails.finish (h : Reads read front a) {e : ReadError} (h' : Fails (next a) [] e) :
    Fails (read >>= next) front e := by
  have hboth := Fails.bind h h'
  rwa [List.append_nil] at hboth

theorem Fails.first {e : ReadError} (h : Fails read front e) : Fails (read >>= next) front e := by
  intro rest
  simp only [Bind.bind, StateT.bind, h rest, Except.bind]

theorem Ensures.pure (h : P a) : Ensures (pure a) P := by
  intro bytes b rest heq
  cases heq
  exact h

theorem Ensures.mono {Q : α → Prop} (h : Ensures read P) (h' : ∀ a, P a → Q a) : Ensures read Q :=
  fun bytes a rest heq => h' a (h bytes a rest heq)

theorem Ensures.any (read : Reader α) : Ensures read fun _ => True := fun _ _ _ _ => trivial

theorem Ensures.throw (e : ReadError) : Ensures (throw e) P := by
  intro bytes b rest heq
  cases heq

theorem Ensures.bind (h : Ensures read P) (h' : ∀ a, P a → Ensures (next a) Q) :
    Ensures (read >>= next) Q := by
  intro bytes b rest heq
  cases hr : read bytes with
  | error e => simp [Bind.bind, StateT.bind, hr, Except.bind] at heq
  | ok r =>
    simp only [Bind.bind, StateT.bind, hr, Except.bind] at heq
    exact h' r.1 (h bytes r.1 r.2 hr) r.2 b rest heq

theorem Ensures.throw_bind (e : ReadError) : Ensures (MonadExcept.throw e >>= next) Q :=
  Ensures.bind (P := fun _ => False) (.throw e) fun _ h => h.elim

theorem Ensures.map (h : Ensures read P) {f : α → β} (h' : ∀ a, P a → Q (f a)) :
    Ensures (f <$> read) Q := by
  rw [map_eq_pure_bind]
  exact h.bind fun a ha => .pure (h' a ha)

theorem Fails.throw (e : ReadError) : Fails (throw e : Reader α) [] e := fun _ => rfl

theorem Fails.append {e : ReadError} (h : Fails read front e) (back : Bytes) :
    Fails read (front ++ back) e := by
  intro rest
  rw [List.append_assoc]
  exact h _

theorem Fails.map (f : α → β) {e : ReadError} (h : Fails read front e) :
    Fails (f <$> read) front e := by
  intro rest
  simp only [Functor.map, StateT.map, h rest, Bind.bind, Except.bind]

end Composition

theorem times_ensures {α : Type} {read : Reader α} {P : α → Prop} (h : Ensures read P) (n : Nat) :
    Ensures (times read n) fun as => as.length = n ∧ ∀ a ∈ as, P a := by
  induction n with
  | zero => exact .pure ⟨rfl, fun a ha => absurd ha List.not_mem_nil⟩
  | succ n ih =>
    refine h.bind fun a ha => ih.bind fun as has => .pure ⟨?_, ?_⟩
    · rw [List.length_cons, has.1]
    · exact List.forall_mem_cons.2 ⟨ha, has.2⟩

theorem Reads.readAll_append {α : Type} {read : Reader α} {bytes : Bytes} {a : α}
    (h : Reads read bytes a) (rest : Bytes) : readAll read (bytes ++ rest) = .ok a := by
  rw [MessagePack.readAll, h rest]
  rfl

theorem Reads.readAll {α : Type} {read : Reader α} {bytes : Bytes} {a : α}
    (h : Reads read bytes a) : readAll read bytes = .ok a := by
  have hread := h.readAll_append []
  rwa [List.append_nil] at hread

theorem Fails.readAll {α : Type} {read : Reader α} {bytes : Bytes} {e : ReadError}
    (h : Fails read bytes e) : readAll read bytes = .error e := by
  have hread := h []
  rw [List.append_nil] at hread
  rw [MessagePack.readAll, hread]
  rfl

theorem Ensures.of_readAll {α : Type} {read : Reader α} {P : α → Prop} (h : Ensures read P)
    {bytes : Bytes} {a : α} (ha : MessagePack.readAll read bytes = .ok a) : P a := by
  obtain ⟨r, hr, rfl⟩ := ok_of_map ha
  exact h bytes r.1 r.2 hr

theorem ofBigEndian_snoc (bytes : Bytes) (b : UInt8) :
    ofBigEndian (bytes ++ [b]) = ofBigEndian bytes * 256 + b.toNat := by
  simp [ofBigEndian]

theorem ofBigEndian_toBigEndian (w n : Nat) : ofBigEndian (toBigEndian w n) = n % 256 ^ w := by
  induction w generalizing n with
  | zero => simp [toBigEndian, ofBigEndian, Nat.mod_one]
  | succ w ih =>
    have hbyte : (UInt8.ofNat n).toNat = n % 256 := UInt8.toNat_ofNat'
    rw [toBigEndian, ofBigEndian_snoc, ih, hbyte, Nat.pow_succ', Nat.mod_mul]
    omega

theorem reads_take (bytes : Bytes) (short : ReadError) :
    Reads (take bytes.length short) bytes bytes := by
  intro rest
  simp [take]

theorem reads_bigEndian {w n : Nat} (h : n < 256 ^ w) :
    Reads (bigEndian w) (toBigEndian w n) n := by
  have hread : Reads (bigEndian w) (toBigEndian w n) (ofBigEndian (toBigEndian w n)) := by
    have htake := reads_take (toBigEndian w n) .shortNumber
    rw [length_toBigEndian] at htake
    exact htake.map ofBigEndian
  rwa [ofBigEndian_toBigEndian, Nat.mod_eq_of_lt h] at hread

theorem ofBigEndian_lt (bytes : Bytes) : ofBigEndian bytes < 256 ^ bytes.length := by
  induction bytes using List.reverseRecOn with
  | nil => exact Nat.one_pos
  | append_singleton bytes b ih =>
    have hb : b.toNat < 256 := b.toNat_lt
    rw [ofBigEndian_snoc, List.length_append, List.length_singleton, Nat.pow_succ]
    omega

theorem take_ensures (n : Nat) (short : ReadError) :
    Ensures (take n short) fun bytes => bytes.length = n := by
  intro bytes a rest heq
  simp only [take] at heq
  split_ifs at heq with hlen
  cases heq
  have := List.length_take_le n bytes
  omega

theorem bigEndian_ensures (w : Nat) : Ensures (bigEndian w) (· < 256 ^ w) :=
  (take_ensures w _).map fun bytes hlen => hlen ▸ ofBigEndian_lt bytes

end PhaseKeeper.MessagePack
