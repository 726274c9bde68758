import PhaseKeeper.Json.Record
import PhaseKeeper.Number.Decimal
/-!
Where a bus can be reached: a socket in the file system, or a host and port. The host is all that
stands before the last colon.
-/
namespace PhaseKeeper

inductive Endpoint where
  | ipc (path : String)
  | tcp (host : String) (port : UInt16)
deriving DecidableEq, Repr

namespace Endpoint

structure Malformed where
  text : String
deriving DecidableEq, Repr

def Malformed.message (e : Malformed) : String :=
  "invalid endpoint '" ++ e.text ++ "', expected ipc://<path> or tcp://<host>:<port>"

def named (name : String) : Endpoint := .ipc ("/tmp/matchflow/" ++ name ++ ".sock")

def ipcScheme : String := "ipc://"
def tcpScheme : String := "tcp://"

def splitLast (c : Char) : List Char → Option (List Char × List Char)
  | [] => none
  | a :: r =>
    match splitLast c r with
    | some (before, after) => some (a :: before, after)
    | none => if a = c then some ([], r) else none

def ofPath? (path : List Char) : Option Endpoint :=
  if path.isEmpty then none else some (.ipc (.ofList path))

def ofAddress? (address : List Char) : Option Endpoint := do
  let (host, port) ← splitLast ':' address
  let port ← Decimal.below? UInt16.size port
  if host.isEmpty then none else some (.tcp (.ofList host) (.ofNat port))

def ofText? (s : List Char) : Option Endpoint :=
  match ipcScheme.toList.isPrefixOf? s with
  | some path => ofPath? path
  | none => (tcpScheme.toList.isPrefixOf? s).bind ofAddress?

def parse (s : String) : Except Malformed Endpoint :=
  match ofText? s.toList with
  | some e => .ok e
  | none => .error ⟨s⟩

def text : Endpoint → String
  | .ipc path => ipcScheme ++ path
  | .tcp host port => tcpScheme ++ host ++ ":" ++ toString port.toNat

inductive Kind where
  | ipc
  | tcp
deriving DecidableEq, Repr

def kinds : List (String × Kind) := [("Ipc", .ipc), ("Tcp", .tcp)]

def toJson : Endpoint → Json
  | .ipc path => .object [("address", .text path), ("type", .text "Ipc")]
  | .tcp host port =>
    .object [("address", .object [("host", .text host), ("port", .int port.toNat)]),
      ("type", .text "Tcp")]

def tcpRecord : Json.Record :=
  ⟨"Transport::Tcp", [Json.field "host" Json.asText, Json.field "port" Json.asUInt16], 2⟩

/-- The address of an endpoint of this kind. A host and port do not come as a list. -/
def ofAddressJson : Kind → Json.Reader Endpoint
  | .ipc, j => .ipc <$> Json.asText j
  | .tcp, .object ms =>
    tcpRecord.read (fun ms => do
      return .tcp (← ms.need "host" Json.asText) (← ms.need "port" Json.asUInt16)) (.object ms)
  | .tcp, j => .error (.wrongType j.found "struct variant Transport::Tcp")

def described : String := "adjacently tagged enum Transport"

def ofJson : Json.Reader Endpoint
  | .object ms => do
    let kind ← match ms.lookup "type" with
      | some j => Json.asVariant kinds j
      | none => throw (.missingField "type")
    match ms.lookup "address" with
    | some j => ofAddressJson kind j
    | none => throw (.missingField "address")
  | .list [] => .error (.wrongLength 0 described)
  | .list (tag :: items) => do
    let kind ← Json.asVariant kinds tag
    match items with
    | [] => throw (.wrongLength 1 described)
    | address :: more => do
      let e ← ofAddressJson kind address
      if !more.isEmpty then
        throw (.wrongLength (more.length + 2) "fewer elements in array")
      return e
  | j => .error (.wrongType j.found described)

end Endpoint
end PhaseKeeper
