import Mathlib.Tactic.Common
import PhaseKeeper.Proofs.MessagePack.Value
/-!
Items that nobody asks for. Whatever well-formed item stands there, and in whichever form it is
written, passing over it takes just its bytes.
-/
namespace PhaseKeeper.MessagePack

/-- The bytes of a well-formed item without extensions, in which at most `d` lists and maps are
nested. -/
inductive Item : (d : Nat) → Bytes → Prop where
  | whole {d : Nat} {h : Head} {bytes : Bytes} (hs : Spells h bytes) (hh : h.isWhole = true) :
    Item d bytes
  | list {d : Nat} {front : Bytes} {items : List Bytes} (hn : Spells (.list items.length) front)
    (h : ∀ item ∈ items, Item d item) : Item (d + 1) (front ++ items.flatten)
  | map {d : Nat} {front : Bytes} {entries : List (Bytes × Bytes)}
    (hn : Spells (.map entries.length) front) (hkey : ∀ e ∈ entries, Item d e.1)
    (hvalue : ∀ e ∈ entries, Item d e.2) :
    Item (d + 1) (front ++ entries.flatMap fun e => e.1 ++ e.2)

theorem reads_times {α : Type} {read : Reader α} {a : α} {items : List Bytes}
    (h : ∀ item ∈ items, Reads read item a) :
    Reads (times read items.length) items.flatten (items.map fun _ => a) := by
  induction items with
  | nil => exact .pure _
  | cons item r ih =>
    obtain ⟨hitem, hr⟩ := List.forall_mem_cons.1 h
    exact hitem.bind ((ih hr).finish (.pure _))

theorem reads_skip {d : Nat} {bytes : Bytes} (h : Item d bytes) : Reads (skip d) bytes () := by
  induction h with
  | @whole d h bytes hs hh =>
    cases d with
    | zero =>
      refine hs.reads.finish ?_
      cases h <;> first | exact .pure _ | cases hh
    | succ d =>
      refine hs.reads.finish ?_
      cases h <;> first | exact .pure _ | cases hh
  | list hn h ih => exact hn.reads.bind ((reads_times ih).map _)
  | @map d front entries hn hkey hvalue ihkey ihvalue =>
    have hboth : ∀ item ∈ entries.map fun e => e.1 ++ e.2,
        Reads (do skip d; skip d) item () := by
      intro item hitem
      obtain ⟨e, he, rfl⟩ := List.mem_map.1 hitem
      exact (ihkey e he).bind (ihvalue e he)
    have hread := reads_times hboth
    rw [List.length_map, ← List.flatMap_def] at hread
    exact hn.reads.bind (hread.map _)

end PhaseKeeper.MessagePack
