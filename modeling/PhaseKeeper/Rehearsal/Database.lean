import PhaseKeeper.Bus.Recording
import PhaseKeeper.Handling.Delivery
import PhaseKeeper.Store.Recent
import PhaseKeeper.Store.Relational
/-!
A rehearsal over a relational store whose database only knows its part: each statement takes the next
of the replies that were laid down. What was not taken is dropped with the cue.
-/
namespace PhaseKeeper.Rehearsal

inductive Cell where
  | null
  | bool (b : Bool)
  | text (s : String)
deriving DecidableEq, Repr

inductive Answer where
  | rows (rows : List (List Cell))
  | affected (n : Nat)
  | refused (code reason : String)
deriving DecidableEq, Repr

namespace Answer

def internal (reason : String) : DatabaseFault := .refused "XX000" reason

def exhausted : DatabaseFault := internal "script exhausted"
def mismatch : DatabaseFault := internal "script mismatch"

def first? {α : Type} (read : List Cell → Option α) (rs : List (List Cell)) :
    Except DatabaseFault (Option α) :=
  match rs.mapM read with
  | some as => .ok as.head?
  | none => .error mismatch

def textRow : List Cell → Option (Option String)
  | [.text s] => some (some s)
  | [.null] => some none
  | _ => none

def boolRow : List Cell → Option (Option Bool)
  | [.bool b] => some (some b)
  | [.null] => some none
  | _ => none

def flag : Cell → Option (Option Bool)
  | .bool b => some (some b)
  | .null => some none
  | .text _ => none

def flagsRow : List Cell → Option Statement.Flags
  | [a, b] => do return (← flag a, ← flag b)
  | _ => none

def text (rs : List (List Cell)) : Except DatabaseFault (Option String) := do
  match ← first? textRow rs with
  | none => return none
  | some none => throw .unexpectedNull
  | some (some s) => return some s

def truth (rs : List (List Cell)) : Except DatabaseFault Bool := do
  match ← first? boolRow rs with
  | none => throw .noRow
  | some none => throw .unexpectedNull
  | some (some b) => return b

def count : List (List Cell) → Except DatabaseFault Nat
  | [] => .ok 0
  | _ => .error mismatch

def ofRows (rs : List (List Cell)) : (s : Statement) → s.Reply
  | .selectPhase _ | .selectIndustry _ => text rs
  | .selectFlags _ | .fillFlags .. => first? flagsRow rs
  | .tableExists _ | .rowExists .. | .eventExists .. => truth rs
  | .swapPhase .. | .insertEvent _ => count rs

def ofCount (n : Nat) : (s : Statement) → s.Reply
  | .swapPhase .. | .insertEvent _ => .ok n
  | s => ofRows [] s

def reply (a : Answer) (s : Statement) : s.Reply :=
  match a with
  | .rows rs => ofRows rs s
  | .affected n => ofCount n s
  | .refused code reason => .error (.refused code reason)

end Answer

structure Desk where
  recent : RecentIds
  bus : RecordingBus
  closed : Bool
  clock : Instant
  replies : List Answer
  statements : List Statement
  incidents : List Incident

namespace Desk
open Relational (Query)

def answerQuery : (q : Query) → Desk → q.Reply × Desk
  | .report i, d => ((), { d with incidents := d.incidents ++ [i] })
  | .run s, d =>
    if d.closed then (.error .closed, d)
    else
      let d := { d with statements := d.statements ++ [s] }
      match d.replies with
      | [] => (.error Answer.exhausted, d)
      | a :: replies => (a.reply s, { d with replies })

def answer : (r : Request) → Desk → r.Reply × Desk
  | .store c, d => (Relational.answer c).run answerQuery d
  | .lookUp id, d =>
    let (hit, recent) := d.recent.lookUp id
    (hit, { d with recent })
  | .remember id, d => ((), { d with recent := d.recent.use id })
  | .now, d => (d.clock, d)
  | .publish draft, d =>
    let (r, bus) := d.bus.send draft d.clock
    (r, { d with bus })
  | .report i, d => ((), { d with incidents := d.incidents ++ [i] })

end Desk

inductive DeskCue where
  | call (c : StoreCall)
  | event (eventType : String) (payload : Json)
  | failTopic (topic reason : String)
  | close

inductive DeskResult where
  | nothing
  | reply (c : StoreCall) (r : c.Reply)
  | outcome (o : Outcome)

structure DeskScene where
  result : DeskResult
  statements : List Statement
  unused : Nat
  cached : Nat
  published : List Message
  incidents : List Incident

namespace Desk

def enact (d : Desk) : DeskCue → DeskResult × Desk
  | .call c => (DeskResult.reply c <$> askStore c).run answer d
  | .event eventType payload =>
    (DeskResult.outcome <$> handleEvent .standard eventType payload).run answer d
  | .failTopic topic reason => (.nothing, { d with bus := d.bus.refuse topic reason })
  | .close => (.nothing, { d with closed := true })

def scene (result : DeskResult) (d : Desk) : DeskScene :=
  ⟨result, d.statements, d.replies.length, d.recent.size, d.bus.published, d.incidents⟩

def play (d : Desk) (cue : DeskCue) (replies : List Answer) : DeskScene × Desk :=
  let d := { d with bus := d.bus.cleared, replies, statements := [], incidents := [] }
  let (r, d) := d.enact cue
  (d.scene r, d)

def playAll : List (DeskCue × List Answer) → Desk → List DeskScene
  | [], _ => []
  | (cue, replies) :: rest, d =>
    let (scene, d) := d.play cue replies
    scene :: playAll rest d

def scenes (capacity : Nat) (script : List (DeskCue × List Answer)) : List DeskScene :=
  playAll script ⟨.ofCapacity capacity, .empty, false, .epoch, [], [], []⟩

end Desk
end PhaseKeeper.Rehearsal
