import Kvasir.Server

/-! The HTTP bridge, an ordinary client of the server behind a web handler. The
handler runs against what the network does with its one connection; JSON is a
parameter, of which only the two strings it carries are used. -/

namespace Kvasir.Bridge
open Strings Utf8 Protocol Server Runs

/-- The strings that the handler takes from JSON and gives to it: the command a
request body decodes to, and what is decoded from an encoded string. -/
structure Json where
  decode : Bytes → Option Bytes
  carry : Bytes → Bytes
  decoded : ∀ body command, decode body = some command → Valid command
  carried : ∀ bytes, Valid bytes → carry bytes = bytes

/-- How far the one connection of a request gets, and what arrives on it before
the deadline or its end. -/
structure Network where
  dial : Bool
  write : Bool
  inbound : Bytes
  deriving DecidableEq, Repr

structure Result where
  sent : Bytes
  reply : Bytes
  deriving DecidableEq, Repr

/-- An error with its status, or status 200 and a result. -/
inductive Response where
  | error (message : Bytes) (code : Nat)
  | ok (result : Result)
  deriving DecidableEq, Repr

def statusBadRequest : Nat := 400
def statusBadGateway : Nat := 502

/-- The response, whether the server was dialed, and what was written to it. -/
structure Outcome where
  response : Response
  dialed : Bool := false
  written : Option Bytes := none
  deriving DecidableEq, Repr

def readString (delimiter : UInt8) (inbound : Bytes) : Option Bytes :=
  (Lines.cut delimiter inbound).map fun (line, _) => line ++ [delimiter]

/-- Forwards one command line over a fresh connection and returns the one line
reply. -/
def handleCmd (json : Json) (kvAddr : Bytes) (network : Network) (body : Bytes) : Outcome :=
  match json.decode body with
  | none => { response := .error (text "bad request body") statusBadRequest }
  | some command =>
    let line := trimSpace command
    -- One line in, one line out.
    if line = [] ∨ carriageReturn ∈ line ∨ newline ∈ line then
      { response := .error (text "send exactly one command line") statusBadRequest }
    else if network.dial = false then
      { response := .error (text "kvstore server is not reachable at " ++ kvAddr) statusBadGateway, dialed := true }
    else
      let written := some (line ++ [newline])
      if network.write = false then
        { response := .error (text "write to kvstore failed") statusBadGateway, dialed := true, written }
      else
        match readString newline network.inbound with
        | none => { response := .error (text "read from kvstore failed") statusBadGateway, dialed := true, written }
        | some reply => { response := .ok ⟨line, trimRight lineEnds reply⟩, dialed := true, written }

/-- A request that is not one command line. -/
def Refused (json : Json) (body : Bytes) : Prop :=
  ∀ command, json.decode body = some command →
    trimSpace command = [] ∨ carriageReturn ∈ trimSpace command ∨ newline ∈ trimSpace command

section Outcome
variable {json : Json} {kvAddr body : Bytes} {network : Network}

theorem handleCmd_refused (refused : Refused json body) :
    ∃ message, handleCmd json kvAddr network body = { response := .error message statusBadRequest } := by
  unfold handleCmd
  cases decoded : json.decode body with
  | none => exact ⟨_, rfl⟩
  | some command => exact ⟨_, if_pos (refused command decoded)⟩

theorem handleCmd_written {stream : Bytes} (written : (handleCmd json kvAddr network body).written = some stream) :
    ∃ command, json.decode body = some command ∧ stream = trimSpace command ++ [newline] := by
  unfold handleCmd at written
  cases decoded : json.decode body with
  | none => simp [decoded] at written
  | some command =>
    simp only [decoded] at written
    split at written
    · cases written
    split at written
    · cases written
    split at written
    · cases written
      exact ⟨command, rfl, rfl⟩
    · cases read : readString newline network.inbound <;> rw [read] at written <;> cases written <;> exact ⟨command, rfl, rfl⟩

theorem refused_iff {command : Bytes} (decoded : json.decode body = some command) :
    Refused json body ↔ trimSpace command = [] ∨ carriageReturn ∈ trimSpace command ∨ newline ∈ trimSpace command := by
  refine ⟨fun refused => refused command decoded, fun refused other same => ?_⟩
  rw [decoded] at same
  cases same
  exact refused

theorem handleCmd_sent {command : Bytes} (decoded : json.decode body = some command) (accepted : ¬ Refused json body)
    (dial : network.dial = true) (write : network.write = true) :
    handleCmd json kvAddr network body = {
      response := match readString newline network.inbound with
        | none => .error (text "read from kvstore failed") statusBadGateway
        | some reply => .ok ⟨trimSpace command, trimRight lineEnds reply⟩
      dialed := true
      written := some (trimSpace command ++ [newline]) } := by
  rw [refused_iff decoded] at accepted
  simp only [handleCmd, decoded, if_neg accepted, dial, write, Bool.true_eq_false, if_false]
  cases readString newline network.inbound <;> rfl

end Outcome

/-- The two ends of a connection: the server reads in order what was written to
it, all of it unless its own side closes the connection first, and what arrives
at the client is what the server's handler wrote. -/
structure Connected (network : Network) (stream : Bytes) (store : MemoryStore) (id : ConnId) (events : List Event) : Prop where
  ordered : received (actions id events) <+: stream
  whole : ∀ past before future, events = past ++ .handle id .readEnd :: future → run step { store } past = some before →
    (before.conn id).closed = true ∨ received (actions id past) = stream
  reads : network.inbound <+: (replies (actions id events)).flatten

end Kvasir.Bridge
